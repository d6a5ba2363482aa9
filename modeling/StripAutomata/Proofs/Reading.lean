import Mathlib.Tactic.Common
import StripAutomata.Reading

/-!
# Names before and within a reading

`Reading.after` puts names before a reading, which is how a reader that has accepted a name goes on.
A reading that is put together from two and succeeds is taken apart again by `Reading.bind_eq_ok`:
both parts succeed, and the names are those of the first part and then those of the second.  If the
first part fails, the whole fails for the same reason (`Reading.outcome_bind_of_error`).
-/

namespace StripAutomata.Reading

variable {ε ε' α β : Type}

/-! ## Names before a reading -/

/-- A reading that comes after names were accepted. -/
def after (names : List String) (r : Reading ε α) : Reading ε α :=
  ⟨names ++ r.mentioned, r.outcome⟩

@[simp] lemma after_after (names more : List String) (r : Reading ε α) :
    (r.after more).after names = r.after (names ++ more) := by
  simp [after]

/-! ## One reading after another -/

lemma bind_assoc {γ : Type} (r : Reading ε α) (next : α → Reading ε β) (last : β → Reading ε γ) :
    r >>= next >>= last = r >>= fun a => next a >>= last := by
  obtain ⟨mentioned, error | a⟩ := r
  · rfl
  · rcases hnext : next a with ⟨more, error | b⟩ <;> simp [hnext]

lemma mapError_bind (f : ε → ε') (r : Reading ε α) (next : α → Reading ε β) :
    (r >>= next).mapError f = r.mapError f >>= fun a => (next a).mapError f := by
  obtain ⟨mentioned, error | a⟩ := r <;> rfl

lemma map_bind {γ : Type} (f : β → γ) (r : Reading ε α) (next : α → Reading ε β) :
    f <$> (r >>= next) = r >>= fun a => f <$> next a := by
  obtain ⟨mentioned, error | a⟩ := r <;> rfl

lemma bind_map {γ : Type} (f : α → β) (r : Reading ε α) (next : β → Reading ε γ) :
    (f <$> r) >>= next = r >>= fun a => next (f a) := by
  obtain ⟨mentioned, error | a⟩ := r <;> rfl

/-- The names of two readings are those of the first one and, if it succeeds, of the second one. -/
lemma mentioned_bind (r : Reading ε α) (next : α → Reading ε β) :
    (r >>= next).mentioned = r.mentioned ++
      match r.outcome with
      | .ok a => (next a).mentioned
      | .error _ => [] := by
  obtain ⟨mentioned, error | a⟩ := r
  · exact (List.append_nil mentioned).symm
  · rfl

/-- Two readings succeed together if the first one does and then the second one. -/
lemma outcome_bind_eq_ok_iff {r : Reading ε α} {next : α → Reading ε β} {b : β} :
    (r >>= next).outcome = .ok b ↔ ∃ a, r.outcome = .ok a ∧ (next a).outcome = .ok b := by
  obtain ⟨mentioned, error | a⟩ := r <;> simp

/-- Two readings fail together if the first one does, or it does not and the second one does. -/
lemma outcome_bind_eq_error_iff {r : Reading ε α} {next : α → Reading ε β} {e : ε} :
    (r >>= next).outcome = .error e ↔
      r.outcome = .error e ∨ ∃ a, r.outcome = .ok a ∧ (next a).outcome = .error e := by
  obtain ⟨mentioned, error | a⟩ := r <;> simp

lemma outcome_map_eq_ok_iff {f : α → β} {r : Reading ε α} {b : β} :
    (f <$> r).outcome = .ok b ↔ ∃ a, r.outcome = .ok a ∧ f a = b := by
  obtain ⟨mentioned, error | a⟩ := r <;> simp [Except.map]

lemma outcome_map_eq_error_iff {f : α → β} {r : Reading ε α} {e : ε} :
    (f <$> r).outcome = .error e ↔ r.outcome = .error e := by
  obtain ⟨mentioned, error | a⟩ := r <;> simp [Except.map]

lemma outcome_mapError_eq_ok_iff {f : ε → ε'} {r : Reading ε α} {a : α} :
    (r.mapError f).outcome = .ok a ↔ r.outcome = .ok a := by
  obtain ⟨mentioned, error | b⟩ := r <;> simp [mapError, Except.mapError]

lemma outcome_mapError_eq_error_iff {f : ε → ε'} {r : Reading ε α} {e : ε'} :
    (r.mapError f).outcome = .error e ↔ ∃ fault, r.outcome = .error fault ∧ e = f fault := by
  obtain ⟨mentioned, error | b⟩ := r <;> simp [mapError, Except.mapError, eq_comm]

/-! ## Success -/

/-- What a reading that succeeds is put together from. -/
lemma bind_eq_ok {r : Reading ε α} {next : α → Reading ε β} {names : List String} {b : β}
    (h : (r >>= next) = ⟨names, .ok b⟩) :
    ∃ before a rest, r = ⟨before, .ok a⟩ ∧ next a = ⟨rest, .ok b⟩ ∧ names = before ++ rest := by
  obtain ⟨before, error | a⟩ := r
  · cases h
  · rw [bind_ok, mk.injEq] at h
    obtain ⟨rfl, houtcome⟩ := h
    refine ⟨before, a, (next a).mentioned, rfl, ?_, rfl⟩
    rw [← houtcome]

lemma mapError_eq_ok {f : ε → ε'} {r : Reading ε α} {names : List String} {a : α}
    (h : r.mapError f = ⟨names, .ok a⟩) : r = ⟨names, .ok a⟩ := by
  obtain ⟨mentioned, error | b⟩ := r
  · cases h
  · cases h
    rfl

/-! ## Failure -/

lemma outcome_bind_of_error {r : Reading ε α} {e : ε} (h : r.outcome = .error e)
    (next : α → Reading ε β) : (r >>= next).outcome = .error e := by
  obtain ⟨mentioned, outcome⟩ := r
  cases h
  rfl

lemma outcome_mapError_of_error {r : Reading ε α} {e : ε} (h : r.outcome = .error e)
    (f : ε → ε') : (r.mapError f).outcome = .error (f e) := by
  rw [mapError, h]
  rfl

end StripAutomata.Reading
