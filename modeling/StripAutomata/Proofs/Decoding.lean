import Mathlib.Data.List.Forall2

/-!
# Lists that are decoded

A list is decoded entry by entry, and fails as a whole where one entry cannot be decoded.  So what a
list is decoded to stands in the same order, one for one (`mapM_eq_some_iff`), and if what was
encoded is decoded again, then so is a list of it (`mapM_map_self`).
-/

namespace StripAutomata.Decoding

variable {α β : Type} {decode : β → Option α}

lemma mapM_eq_some_iff {bs : List β} {as : List α} :
    bs.mapM decode = some as ↔ List.Forall₂ (fun b a => decode b = some a) bs as := by
  induction bs generalizing as with
  | nil =>
    rw [List.mapM_nil, List.forall₂_nil_left_iff]
    exact ⟨fun h => (Option.some.inj h).symm, fun h => congrArg some h.symm⟩
  | cons b bs ih =>
    simp only [List.mapM_cons, Option.bind_eq_bind, Option.bind_eq_some_iff,
      List.forall₂_cons_left_iff]
    constructor
    · rintro ⟨a, ha, rest, hrest, h⟩
      exact ⟨a, rest, ha, ih.1 hrest, (Option.some.inj h).symm⟩
    · rintro ⟨a, rest, ha, hrest, rfl⟩
      exact ⟨a, ha, rest, ih.2 hrest, rfl⟩

/-- Values that are decoded one by one are decoded as a list. -/
lemma mapM_map_encode {γ : Type} {encode : γ → β} {value : γ → α} {as : List γ}
    (h : ∀ a ∈ as, decode (encode a) = some (value a)) :
    (as.map encode).mapM decode = some (as.map value) := by
  rw [mapM_eq_some_iff, List.forall₂_map_left_iff, List.forall₂_map_right_iff, List.forall₂_same]
  exact h

/-- Values that are decoded to themselves one by one are so as a list. -/
lemma mapM_map_self {encode : α → β} {as : List α} (h : ∀ a ∈ as, decode (encode a) = some a) :
    (as.map encode).mapM decode = some as := by
  have hall : (as.map encode).mapM decode = some (as.map id) := mapM_map_encode h
  rwa [List.map_id] at hall

end StripAutomata.Decoding
