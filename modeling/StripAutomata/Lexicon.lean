import StripAutomata.Signal.Basic

/-!
# Lexicons

A lexicon gives every name a handle, in the order in which names are first interned, and never
takes a handle back.  It is the list of its names without repetition: a handle's name is the entry
at its place, and a name's handle is the place of its entry.  So the two look-ups undo each other,
and interning either finds the name or appends it.

The handles of a lexicon have no bound.  A program keeps a table instead, of names in an array and
an index of their handles, and has handles of 32 bits only.  That is `IndexedLexicon`: by
`IndexedLexicon.indexed_grows` it does what a lexicon does as long as there are at most `Signal.bound`
names.  What is said of lexicons is said of such a table up to there, and no further.
-/

namespace StripAutomata

/-- The names of the signals, in the order of their handles.  There may be any number of them, while
a table with handles of 32 bits is a lexicon only up to `Signal.bound` names
(`IndexedLexicon.indexed_grows`). -/
structure Lexicon where
  names : List String
  nodup : names.Nodup
  deriving DecidableEq

namespace Lexicon

/-- The lexicon without names. -/
def empty : Lexicon := ⟨[], .nil⟩

instance : EmptyCollection Lexicon := ⟨empty⟩
instance : Inhabited Lexicon := ⟨empty⟩

/-- The number of names. -/
def size (lexicon : Lexicon) : Nat := lexicon.names.length

/-- The name of a signal, if the lexicon knows the signal. -/
def name? (lexicon : Lexicon) (s : Signal) : Option String := lexicon.names[s.index]?

/-- The name of a signal, or a question mark for a signal that the lexicon does not know. -/
def nameOf (lexicon : Lexicon) (s : Signal) : String := (lexicon.name? s).getD "?"

/-- The signal of a name, if the lexicon knows the name. -/
def signal? (lexicon : Lexicon) (name : String) : Option Signal :=
  (lexicon.names.idxOf? name).map Signal.mk

/-- The lexicon with one more name, unless it has the name. -/
def insert (lexicon : Lexicon) (name : String) : Lexicon :=
  if h : name ∈ lexicon.names then lexicon
  else ⟨lexicon.names ++ [name], by
    rw [List.nodup_append]
    refine ⟨lexicon.nodup, by simp, ?_⟩
    rintro a ha b hb rfl
    exact h (List.mem_singleton.1 hb ▸ ha)⟩

/-- The lexicon with the names of a list, each unless it is there, in order. -/
def insertAll (lexicon : Lexicon) (names : List String) : Lexicon :=
  names.foldl insert lexicon

/-- The place of a name, which for a name that the lexicon does not know is the next free one. -/
def handle (lexicon : Lexicon) (name : String) : Signal :=
  ⟨lexicon.names.idxOf name⟩

/-- The signal of a name, in the lexicon that has the name. -/
def intern (lexicon : Lexicon) (name : String) : Signal × Lexicon :=
  (lexicon.handle name, lexicon.insert name)

/-- Every signal with its name, in the order of the handles. -/
def entries (lexicon : Lexicon) : List (Signal × String) :=
  lexicon.names.zipIdx.map fun entry => (⟨entry.2⟩, entry.1)

/-! ## How the look-ups and interning meet -/

/-- The two look-ups undo each other. -/
theorem signal?_eq_some_iff {lexicon : Lexicon} {name : String} {s : Signal} :
    lexicon.signal? name = some s ↔ lexicon.name? s = some name := by
  constructor
  · intro h
    obtain ⟨i, hi, rfl⟩ := Option.map_eq_some_iff.1 h
    rw [List.idxOf?_eq_some_iff] at hi
    obtain ⟨hlt, hname, -⟩ := hi
    simp only [name?]
    rw [List.getElem?_eq_getElem hlt]
    simpa using hname
  · intro h
    obtain ⟨hlt, hname⟩ := List.getElem?_eq_some_iff.1 h
    refine Option.map_eq_some_iff.2
      ⟨s.index, List.idxOf?_eq_some_iff.2 ⟨hlt, by simpa using hname, ?_⟩, rfl⟩
    intro j hj heq
    have heq' : lexicon.names[j] = lexicon.names[s.index] := by rw [hname]; simpa using heq
    exact absurd ((List.getElem_inj lexicon.nodup).1 heq') (Nat.ne_of_lt hj)

/-- A name that the lexicon knows changes nothing. -/
theorem insert_of_mem {lexicon : Lexicon} {name : String} (h : name ∈ lexicon.names) :
    lexicon.insert name = lexicon := by
  simp [insert, h]

/-- A name that the lexicon does not know is appended. -/
theorem names_insert_of_not_mem {lexicon : Lexicon} {name : String} (h : name ∉ lexicon.names) :
    (lexicon.insert name).names = lexicon.names ++ [name] := by
  simp [insert, h]

end Lexicon
end StripAutomata
