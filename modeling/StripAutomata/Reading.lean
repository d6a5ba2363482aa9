/-!
# Readings

Reading text mentions signals by their names.  The names that were accepted matter on their own,
even where reading fails later, because a lexicon takes them in as they come.  A reading
is therefore the list of the names accepted, in order, beside the outcome; one reading after
another mentions the names of both, unless the first one fails.
-/

namespace StripAutomata

/-- The names that reading accepted, in order, and what came of it. -/
structure Reading (ε α : Type) where
  mentioned : List String
  outcome : Except ε α

namespace Reading

variable {ε α β : Type}

/-- The reading that needs no text. -/
def done (a : α) : Reading ε α := ⟨[], .ok a⟩

/-- The reading that fails before it accepts a name. -/
def fail (e : ε) : Reading ε α := ⟨[], .error e⟩

/-- The reading of a name. -/
def mention (name : String) (a : α) : Reading ε α := ⟨[name], .ok a⟩

/-- A reading and then another one, which may depend on the first. -/
def andThen (r : Reading ε α) (next : α → Reading ε β) : Reading ε β :=
  match r.outcome with
  | .error e => ⟨r.mentioned, .error e⟩
  | .ok a =>
    let rest := next a
    ⟨r.mentioned ++ rest.mentioned, rest.outcome⟩

/-- The reading with another account of what was read. -/
def map (f : α → β) (r : Reading ε α) : Reading ε β := ⟨r.mentioned, r.outcome.map f⟩

instance : Monad (Reading ε) where
  map := map
  pure := done
  bind := andThen

/-- The reading with another account of its failure. -/
def mapError {ε' : Type} (f : ε → ε') (r : Reading ε α) : Reading ε' α :=
  ⟨r.mentioned, r.outcome.mapError f⟩

@[simp] theorem pure_eq (a : α) : (pure a : Reading ε α) = ⟨[], .ok a⟩ := rfl

@[simp] theorem map_eq (f : α → β) (r : Reading ε α) :
    f <$> r = ⟨r.mentioned, r.outcome.map f⟩ := rfl

@[simp] theorem bind_ok (names : List String) (a : α) (next : α → Reading ε β) :
    ((⟨names, .ok a⟩ : Reading ε α) >>= next) =
      ⟨names ++ (next a).mentioned, (next a).outcome⟩ := rfl

@[simp] theorem bind_error (names : List String) (e : ε) (next : α → Reading ε β) :
    ((⟨names, .error e⟩ : Reading ε α) >>= next) = ⟨names, .error e⟩ := rfl

end Reading
end StripAutomata
