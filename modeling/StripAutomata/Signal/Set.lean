import StripAutomata.Signal.Basic

/-!
# Sets of signals

A cell holds a set of signals, and so does the summary of what a rule refers to.  A set is kept as
the strictly ascending list of its members, so two sets with the same members are equal
(`SignalSet.ext`) and the members can be listed in one order only.

Insertion is described through membership by `SignalSet.mem_insert`, and what comes of a list by
`SignalSet.mem_ofList`.
-/

namespace StripAutomata

/-- A finite set of signals: its members, strictly ascending. -/
structure SignalSet where
  toList : List Signal
  ascending : toList.Pairwise (· < ·)
  deriving DecidableEq

namespace SignalSet

/-- The set without members. -/
def empty : SignalSet := ⟨[], .nil⟩

instance : EmptyCollection SignalSet := ⟨empty⟩
instance : Inhabited SignalSet := ⟨empty⟩
instance : Membership Signal SignalSet := ⟨fun set s => s ∈ set.toList⟩

instance (s : Signal) (set : SignalSet) : Decidable (s ∈ set) :=
  inferInstanceAs (Decidable (s ∈ set.toList))

theorem mem_def {s : Signal} {set : SignalSet} : s ∈ set ↔ s ∈ set.toList := Iff.rfl

/-- Whether the set has no members. -/
def isEmpty (set : SignalSet) : Bool := set.toList.isEmpty

/-- Whether a signal is a member. -/
def contains (set : SignalSet) (s : Signal) : Bool := decide (s ∈ set)

@[simp] theorem contains_eq_true_iff {set : SignalSet} {s : Signal} :
    set.contains s = true ↔ s ∈ set := by
  simp [contains]

@[simp] theorem not_mem_empty (s : Signal) : s ∉ (∅ : SignalSet) := List.not_mem_nil

/-! ## Insertion -/

/-- Puts a signal at its place in an ascending list, unless it is there. -/
def insertSorted (s : Signal) : List Signal → List Signal
  | [] => [s]
  | a :: as => if s < a then s :: a :: as else if s = a then a :: as else a :: insertSorted s as

theorem mem_insertSorted {s x : Signal} {l : List Signal} :
    x ∈ insertSorted s l ↔ x = s ∨ x ∈ l := by
  induction l with
  | nil => simp [insertSorted]
  | cons a as ih =>
    unfold insertSorted
    split
    · simp
    · split
      next h => subst h; simp
      next => simp only [List.mem_cons, ih]; exact or_left_comm

theorem pairwise_insertSorted {s : Signal} {l : List Signal} (h : l.Pairwise (· < ·)) :
    (insertSorted s l).Pairwise (· < ·) := by
  induction l with
  | nil => simp [insertSorted]
  | cons a as ih =>
    obtain ⟨ha, has⟩ := List.pairwise_cons.1 h
    unfold insertSorted
    split
    next hlt =>
      refine List.pairwise_cons.2 ⟨fun x hx => ?_, h⟩
      rcases List.mem_cons.1 hx with rfl | hx
      · exact hlt
      · exact Signal.lt_trans hlt (ha x hx)
    next hlt =>
      split
      next => exact h
      next hne =>
        refine List.pairwise_cons.2 ⟨fun x hx => ?_, ih has⟩
        rcases mem_insertSorted.1 hx with rfl | hx
        · exact (Signal.lt_or_lt_of_ne hne).resolve_left hlt
        · exact ha x hx

/-- The set with one more member. -/
def insert (set : SignalSet) (s : Signal) : SignalSet :=
  ⟨insertSorted s set.toList, pairwise_insertSorted set.ascending⟩

@[simp] theorem mem_insert {set : SignalSet} {s x : Signal} :
    x ∈ set.insert s ↔ x = s ∨ x ∈ set :=
  mem_insertSorted

/-- The set of the signals of a list, in whatever order and number they stand there. -/
def ofList (l : List Signal) : SignalSet := l.foldl insert ∅

theorem mem_foldl_insert {set : SignalSet} {l : List Signal} {s : Signal} :
    s ∈ l.foldl insert set ↔ s ∈ set ∨ s ∈ l := by
  induction l generalizing set with
  | nil => simp
  | cons x l ih => rw [List.foldl_cons, ih, mem_insert, List.mem_cons, or_comm (a := s = x), or_assoc]

@[simp] theorem mem_ofList {l : List Signal} {s : Signal} : s ∈ ofList l ↔ s ∈ l :=
  mem_foldl_insert.trans (or_iff_right (not_mem_empty s))

/-! ## Equality -/

theorem eq_of_pairwise_of_mem_iff :
    ∀ {l₁ l₂ : List Signal}, l₁.Pairwise (· < ·) → l₂.Pairwise (· < ·) →
      (∀ s, s ∈ l₁ ↔ s ∈ l₂) → l₁ = l₂
  | [], [], _, _, _ => rfl
  | [], b :: _, _, _, h => absurd ((h b).2 (List.mem_cons_self ..)) List.not_mem_nil
  | a :: _, [], _, _, h => absurd ((h a).1 (List.mem_cons_self ..)) List.not_mem_nil
  | a :: as, b :: bs, h₁, h₂, h => by
    obtain ⟨ha, has⟩ := List.pairwise_cons.1 h₁
    obtain ⟨hb, hbs⟩ := List.pairwise_cons.1 h₂
    -- The heads are the least members of the same set.
    have hab : a = b := by
      rcases List.mem_cons.1 ((h a).1 (List.mem_cons_self ..)) with rfl | hmem
      · rfl
      · rcases List.mem_cons.1 ((h b).2 (List.mem_cons_self ..)) with rfl | hmem'
        · rfl
        · exact absurd (Signal.lt_trans (ha b hmem') (hb a hmem)) (Signal.lt_irrefl a)
    subst hab
    refine congrArg (a :: ·)
      (eq_of_pairwise_of_mem_iff has hbs fun s => ⟨fun hs => ?_, fun hs => ?_⟩)
    · rcases List.mem_cons.1 ((h s).1 (List.mem_cons_of_mem _ hs)) with rfl | hs'
      · exact absurd (ha s hs) (Signal.lt_irrefl s)
      · exact hs'
    · rcases List.mem_cons.1 ((h s).2 (List.mem_cons_of_mem _ hs)) with rfl | hs'
      · exact absurd (hb s hs) (Signal.lt_irrefl s)
      · exact hs'

/-- Sets with the same members are equal. -/
theorem ext {a b : SignalSet} (h : ∀ s, s ∈ a ↔ s ∈ b) : a = b := by
  cases a; cases b
  simp only [mk.injEq]
  exact eq_of_pairwise_of_mem_iff ‹_› ‹_› h

end SignalSet
end StripAutomata
