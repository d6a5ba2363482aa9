import Mathlib.Tactic.Common
import StripAutomata.Json.Decode
import StripAutomata.Proofs.Decoding
import StripAutomata.Proofs.Json.RoundTrip

/-!
# Reading values out of texts

A value has two texts, and whatever a reader makes of the value, it makes of both texts
(`Json.load?_of_mem_texts`).  So that something is read again from the texts that it is written as
is a fact about values only.

For numbers and lists the readers are described here by what they accept.  A number is accepted just
if it is the value of that number (`nat?_eq_some_iff`).  If all that a reader accepts is written for
something, then so is all that it accepts in a list (`list?_eq_some_iff`).  A record of one value is
an object or an array (`record?_eq_some_singleton_iff`), and a record that was written has the values
of its members for its keys (`record?_ofMembers`).
-/

namespace StripAutomata.Json

/-! ## Texts -/

/-- The texts of a value: without blanks, and laid out. -/
def texts (v : Json) : List String := [v.compactText, v.prettyText]

/-- What a reader of values makes of a text. -/
def load? {α : Type} (ofJson? : Json → Option α) (text : String) : Option α :=
  (parse? text).bind ofJson?

lemma parse?_of_mem_texts {v : Json} (hv : v.IsKept) {text : String} (h : text ∈ v.texts) :
    parse? text = some v := by
  rcases List.mem_pair.1 h with rfl | rfl
  · exact parse?_compactText hv
  · exact parse?_prettyText hv

/-- What a reader makes of a value, it makes of its texts. -/
lemma load?_of_mem_texts {α : Type} {ofJson? : Json → Option α} {v : Json} {a : α} (hv : v.IsKept)
    (ha : ofJson? v = some a) {text : String} (h : text ∈ v.texts) :
    load? ofJson? text = some a := by
  rw [load?, parse?_of_mem_texts hv h, Option.bind_some, ha]

/-! ## Numbers -/

lemma nat?_eq_some_iff {bound n : Nat} {v : Json} :
    nat? bound v = some n ↔ v = ofNat n ∧ n < bound := by
  constructor
  · intro h
    unfold nat? at h
    split at h
    next m =>
      obtain ⟨hm, hn⟩ := Option.ite_none_right_eq_some.1 h
      cases hn
      exact ⟨rfl, hm⟩
    next => cases h
  · rintro ⟨rfl, hn⟩
    exact if_pos hn

/-! ## Lists -/

lemma areKept_iff {vs : List Json} : AreKept vs ↔ ∀ v ∈ vs, v.IsKept := by
  induction vs with
  | nil => exact iff_of_true trivial fun v hv => absurd hv List.not_mem_nil
  | cons v vs ih => rw [AreKept, ih, List.forall_mem_cons]

lemma isKept_array_map {α : Type} {toJson : α → Json} {as : List α}
    (h : ∀ a ∈ as, (toJson a).IsKept) : (array (as.map toJson)).IsKept :=
  areKept_iff.2 (List.forall_mem_map.2 h)

variable {α : Type} {item? : Json → Option α}

/-- A list is accepted just if its items are, when these are described by what they are written
for. -/
lemma list?_eq_some_iff {γ : Type} {toJson : γ → Json} {fits : γ → Prop} {value : γ → α}
    (h : ∀ v a, item? v = some a ↔ ∃ c, v = toJson c ∧ fits c ∧ a = value c) {v : Json}
    {as : List α} : list? item? v = some as ↔
      ∃ cs : List γ, v = array (cs.map toJson) ∧ (∀ c ∈ cs, fits c) ∧ as = cs.map value := by
  constructor
  · intro hread
    unfold list? at hread
    split at hread
    next items =>
      -- The items are read one by one, each as what it is written for.
      induction Decoding.mapM_eq_some_iff.1 hread with
      | nil => exact ⟨[], rfl, fun c hc => absurd hc List.not_mem_nil, rfl⟩
      | cons hitem hitems ih =>
        obtain ⟨c, rfl, hc, rfl⟩ := (h _ _).1 hitem
        obtain ⟨cs, hcs, hfits, rfl⟩ := ih (Decoding.mapM_eq_some_iff.2 hitems)
        obtain rfl := array.inj hcs
        exact ⟨c :: cs, rfl, List.forall_mem_cons.2 ⟨hc, hfits⟩, rfl⟩
    next => cases hread
  · rintro ⟨cs, rfl, hfits, rfl⟩
    exact Decoding.mapM_map_encode fun c hc => (h _ _).2 ⟨c, rfl, hfits c hc, rfl⟩

lemma list?_array_map {toJson : α → Json} {as : List α}
    (h : ∀ a ∈ as, item? (toJson a) = some a) : list? item? (array (as.map toJson)) = some as :=
  Decoding.mapM_map_self h

/-! ## Records -/

/-- Whether a value is a record of one value: an object that has the key once, whatever else it has
under other keys, or an array of the value alone. -/
def IsRecordOf (key : String) (value : Json) : Json → Prop
  | object members =>
    (∀ m ∈ members, m.1.isSome = true) ∧ members.filter (·.1 == some key) = [(some key, value)]
  | array items => items = [value]
  | _ => False

lemma member?_eq_some_iff {members : List (Option String × Json)} {key : String} {value : Json} :
    member? members key = some (some value) ↔
      members.filter (·.1 == some key) = [(some key, value)] := by
  unfold member?
  constructor
  · intro h
    split at h
    next => cases h
    next m hone =>
      have hm : m ∈ members.filter (·.1 == some key) := hone ▸ List.mem_singleton_self m
      have hkey : m.1 = some key := beq_iff_eq.1 (List.mem_filter.1 hm).2
      obtain rfl := Option.some.inj (Option.some.inj h)
      rw [hone, ← hkey]
    next => cases h
  · intro h
    rw [h]

/-- The records of one value are those that are read as such. -/
lemma record?_eq_some_singleton_iff {key : String} {value v : Json} :
    record? [key] v = some [some value] ↔ IsRecordOf key value v := by
  cases v with
  | object members =>
    have hall : members.all (·.1.isSome) = true ↔ ∀ m ∈ members, m.1.isSome = true :=
      List.all_eq_true
    simp only [record?, IsRecordOf, ← hall, ← member?_eq_some_iff]
    by_cases h : members.all (·.1.isSome) = true
    · rw [if_pos h, and_iff_right h, Decoding.mapM_eq_some_iff, List.forall₂_cons,
        and_iff_left List.Forall₂.nil]
    · rw [if_neg h]
      exact iff_of_false (fun hnone => Option.some_ne_none _ hnone.symm) fun hone => h hone.1
  | array items =>
    -- The items of an array stand for the keys in their order, so there must be one.
    unfold record? IsRecordOf
    rcases items with _ | ⟨item, _ | ⟨second, items⟩⟩ <;> simp
  | _ => exact iff_of_false (fun hnone => Option.some_ne_none _ hnone.symm) id

lemma filter_eq_singleton {members : List (String × Json)} (h : (members.map (·.1)).Nodup)
    {m : String × Json} (hm : m ∈ members) : members.filter (·.1 == m.1) = [m] := by
  induction members with
  | nil => exact absurd hm List.not_mem_nil
  | cons first rest ih =>
    obtain ⟨hfirst, hrest⟩ := List.nodup_cons.1 h
    rcases List.mem_cons.1 hm with rfl | hm
    · -- No key stands twice, so nothing of the rest has this one.
      rw [List.filter_cons, if_pos (beq_self_eq_true m.1), List.filter_eq_nil_iff.2]
      intro other hother hsame
      exact hfirst (List.mem_map.2 ⟨other, hother, beq_iff_eq.1 hsame⟩)
    · have hne : ¬ (first.1 == m.1) = true := fun hsame =>
        hfirst (List.mem_map.2 ⟨m, hm, (beq_iff_eq.1 hsame).symm⟩)
      rw [List.filter_cons, if_neg hne, ih hrest hm]

/-- The members of a record that was written are the values of its keys. -/
lemma record?_ofMembers (members : List (String × Json)) (h : (members.map (·.1)).Nodup) :
    record? (members.map (·.1)) (ofMembers members) = some (members.map fun m => some m.2) := by
  have htexts : (members.map fun m => (some m.1, m.2)).all (·.1.isSome) = true := by simp
  refine (if_pos htexts).trans (Decoding.mapM_map_encode fun m hm => ?_)
  have hfilter : (members.map fun m => (some m.1, m.2)).filter (·.1 == some m.1) =
      [(some m.1, m.2)] := by
    rw [List.filter_map]
    exact congrArg (List.map _) (filter_eq_singleton h hm)
  rw [member?, hfilter]

end StripAutomata.Json
