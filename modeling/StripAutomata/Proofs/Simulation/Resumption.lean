import StripAutomata.Proofs.Simulation.Horizon

/-!
# Runs that are cut and resumed

A run of `n` steps ends with a strip into which the steps before have placed signals, but which has
not been scanned.  A longer run scans it next, and what it finds then is this strip and, if no
output lands more than one step later, empty strips behind it.  These are the strips before a run
from the last strip of the shorter one (`extract_eq_initialStrips`), so from there the longer run
does what this run does, and the strips of the two are the same (`simulate_resume`).

With outputs that land two steps later this is wrong: what they have placed behind the cut is lost.
-/

namespace StripAutomata

namespace Simulation

variable {a : Automaton} {initial cut : Strip} {n k : Nat} {between : Array Strip}

/-- If no output lands more than one step later, the strips behind those that have been scanned are
the strips before a run from the first of them. -/
lemma extract_eq_initialStrips (hlookahead : a.reach.lookahead ≤ 1)
    (hbetween : (List.range n).foldlM (scanStep a.reach a.rules initial.size)
      (initialStrips initial (n + k)) = .ok between)
    (hcut : between[n]? = some cut) (hsize : cut.size = initial.size) :
    between.extract n (n + k + 1) = initialStrips cut k := by
  refine Array.ext_getElem? fun t => ?_
  rw [getElem?_extract]
  cases t with
  | zero => rw [if_pos (by omega), Nat.add_zero, hcut, getElem?_initialStrips_zero]
  | succ t =>
    -- The strips behind the cut are still as they were: outputs land at most at the cut itself.
    have hnone : ∀ time ∈ List.range n, ∀ rule ∈ a.rules, ∀ o ∈ rule.outputs,
        time + o.step ≠ n + t + 1 := by
      intro time htime rule hrule o ho
      have hlt : time < n := List.mem_range.1 htime
      have hstep : o.step ≤ a.reach.lookahead :=
        Automaton.step_le_lookahead (List.mem_flatMap.2 ⟨rule, hrule, ho⟩)
      omega
    rw [← Nat.add_assoc, getElem?_foldlM_scanStep hnone hbetween, getElem?_initialStrips_succ,
      getElem?_initialStrips_succ, hsize]
    by_cases ht : t < k
    · rw [if_pos (by omega), if_pos (by omega), if_pos ht]
    · rw [if_neg (by omega), if_neg ht]

end Simulation

namespace Automaton

open Simulation

/-- **A run can be cut and resumed.**  If no output of an automaton lands more than one step later,
a run of `n` steps can be cut off there, and a run of `m` steps from its last strip has the strips
that a run of `n + m` steps has from step `n` on. -/
theorem simulate_resume (a : Automaton) (hlookahead : a.reach.lookahead ≤ 1) (initial : Strip)
    (n m : Nat) :
    ∃ whole before cut after, a.simulate initial (n + m) = .ok whole ∧
      a.simulate initial n = .ok before ∧ before.strip? n = some cut ∧
      a.simulate cut m = .ok after ∧
      ∀ k ≤ m, ∃ strip, whole.strip? (n + k) = some strip ∧ after.strip? k = some strip := by
  obtain ⟨between, last, hbetween, hlast, hshort, hlong⟩ := exists_simulate_further a initial n m
  have hshape := (hasShape_initialStrips initial (n + m)).foldlM_scanStep hbetween
  obtain ⟨cut, hcut, hsize⟩ := hshape.width n (Nat.le_add_right n m)
  have hresumed : a.simulate cut m = .ok ⟨last.extract n (n + m + 1)⟩ := by
    rw [simulate, hsize, ← extract_eq_initialStrips hlookahead hbetween hcut hsize,
      foldlM_scanStep_extract a.reach a.rules initial.size n (n + m + 1) m (by omega), hlast]
    rfl
  refine ⟨_, _, cut, _, hlong, hshort, ?_, hresumed, fun k hk => ?_⟩
  · rw [Diagram.strip?, getElem?_take, if_pos (Nat.lt_succ_self n), hcut]
  · obtain ⟨strip, hstrip, -⟩ := (hshape.foldlM_scanStep hlast).width (n + k) (by omega)
    refine ⟨strip, hstrip, ?_⟩
    rw [Diagram.strip?, getElem?_extract, if_pos (by omega), hstrip]

/-- The automaton of a rule that marks the cell of a signal and moves the signal to the right, and
of a rule that marks the cell behind a mark at once. -/
def marking : Automaton :=
  ⟨∅, [⟨.literal ⟨⟨0⟩, 0, 0⟩, [⟨0, ⟨1⟩, 0⟩, ⟨1, ⟨0⟩, 1⟩]⟩, ⟨.literal ⟨⟨1⟩, -1, 0⟩, [⟨0, ⟨2⟩, 0⟩]⟩]⟩

/-- A run of four cells is cut after its second step and resumed for two more. -/
theorem simulate_resume_marking :
    marking.reach.lookahead ≤ 1 ∧
    ∃ whole before cut after, marking.simulate ((Strip.empty 4).place 0 ⟨0⟩) (2 + 2) = .ok whole ∧
      marking.simulate ((Strip.empty 4).place 0 ⟨0⟩) 2 = .ok before ∧ before.strip? 2 = some cut ∧
      marking.simulate cut 2 = .ok after ∧
      ∀ k ≤ 2, ∃ strip, whole.strip? (2 + k) = some strip ∧ after.strip? k = some strip := by
  have hlookahead : marking.reach.lookahead ≤ 1 := by decide
  exact ⟨hlookahead, simulate_resume marking hlookahead _ 2 2⟩

/-- What lands two steps later is lost where a run is cut in between. -/
example :
    let staying : Automaton := ⟨∅, [⟨.literal ⟨⟨0⟩, 0, 0⟩, [⟨0, ⟨0⟩, 2⟩]⟩]⟩
    ∃ whole before cut after, staying.simulate ((Strip.empty 1).place 0 ⟨0⟩) 2 = .ok whole ∧
      staying.simulate ((Strip.empty 1).place 0 ⟨0⟩) 1 = .ok before ∧ before.strip? 1 = some cut ∧
      staying.simulate cut 1 = .ok after ∧ whole.strip? 2 ≠ after.strip? 1 :=
  ⟨_, _, _, _, rfl, rfl, rfl, rfl, by decide⟩

end Automaton
end StripAutomata
