import StripAutomata.Automaton.Basic
import StripAutomata.Proofs.Formula.Truth

/-!
# How far rules reach

The reach of an automaton has the least and the greatest of the offsets at which its rules read or
place signals, zero among them (`reach_least`, `reach_greatest`).  A window of that reach therefore
covers every offset at which a condition looks (`covers_of_mem_literals`).
-/

namespace StripAutomata.Automaton

variable {a : Automaton}

/-- The least offset is one of the offsets, or zero, and none of them is less. -/
lemma reach_least (a : Automaton) :
    a.reach.least ∈ 0 :: a.offsets ∧ ∀ offset ∈ 0 :: a.offsets, a.reach.least ≤ offset :=
  List.min?_eq_some_iff.1 List.min?_cons'

/-- The greatest offset is one of the offsets, or zero, and none of them is greater. -/
lemma reach_greatest (a : Automaton) :
    a.reach.greatest ∈ 0 :: a.offsets ∧ ∀ offset ∈ 0 :: a.offsets, offset ≤ a.reach.greatest :=
  List.max?_eq_some_iff.1 List.max?_cons'

/-- No output lands later than the lookahead says. -/
lemma step_le_lookahead {o : Output Signal} (ho : o ∈ a.outputs) : o.step ≤ a.reach.lookahead := by
  have hgreatest : (0 :: a.outputs.map (·.step)).max? = some a.reach.lookahead := List.max?_cons'
  exact (List.max?_eq_some_iff.1 hgreatest).2 o.step
    (List.mem_cons_of_mem 0 (List.mem_map_of_mem ho))

lemma mem_offsets_of_mem_literals {rule : Rule Signal} {l : Literal Signal} (hrule : rule ∈ a.rules)
    (hl : l ∈ rule.condition.literals) : l.position ∈ a.offsets :=
  List.mem_flatMap.2 ⟨rule, hrule, List.mem_append_left _ (List.mem_map_of_mem hl)⟩

/-- A window of the reach covers every offset at which a condition looks. -/
lemma covers_of_mem_literals {rule : Rule Signal} {l : Literal Signal} (hrule : rule ∈ a.rules)
    (hl : l ∈ rule.condition.literals) (strip : Strip) (focal : Nat) :
    (strip.neighborhood focal a.reach.least a.reach.greatest).Covers l.position := by
  have hmem := List.mem_cons_of_mem 0 (mem_offsets_of_mem_literals hrule hl)
  exact ⟨(reach_least a).2 _ hmem, (reach_greatest a).2 _ hmem⟩

end StripAutomata.Automaton
