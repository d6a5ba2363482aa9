import StripAutomata.Memory
import StripAutomata.Proofs.Automaton.Reach
import StripAutomata.Proofs.Simulation.Loop

/-!
# Runs refuse nothing

A neighborhood refuses an offset outside its window, and evaluation gets to some literals of a
condition only, depending on what the cells hold.  The window of a run is the reach of the
automaton, and the reach is gathered from all literals of all rules.  So a condition of the
automaton can be evaluated in that window around any place, whatever the strip
(`exists_eval_reach`), and no loop of a run is ever refused (`simulate_refuses_nothing`).

Nothing is assumed of the automaton: its rules need not have been read, nor be normal, and the
strips may be of any size.
-/

namespace StripAutomata

variable {a : Automaton} {rule : Rule Signal}

namespace Automaton

/-- A condition of an automaton can be evaluated in a window of its reach. -/
lemma exists_eval_reach (hrule : rule ∈ a.rules) (strip : Strip) (focal : Nat) :
    ∃ b, rule.condition.eval (strip.neighborhood focal a.reach.least a.reach.greatest) = .ok b := by
  obtain ⟨b, hb, -⟩ := Formula.exists_eval_iff_holds fun l hl =>
    covers_of_mem_literals hrule hl strip focal
  exact ⟨b, hb⟩

end Automaton

namespace Simulation

/-- Trying a rule is not refused. -/
lemma tryRule_total (hrule : rule ∈ a.rules) (time cell : Nat) (strips : Array Strip) :
    ∃ after, tryRule a.reach time cell strips rule = .ok after := by
  obtain ⟨b, hb⟩ := Automaton.exists_eval_reach hrule (strips[time]?.getD default) cell
  have hfires : fires a.reach strips time cell rule = .ok b := hb
  rw [tryRule_eq, hfires]
  exact ⟨_, rfl⟩

lemma scanCell_total (a : Automaton) (time cell : Nat) (strips : Array Strip) :
    ∃ after, scanCell a.reach a.rules time strips cell = .ok after :=
  foldlM_total (fun _ hrule strips => tryRule_total hrule time cell strips) strips

lemma scanStep_total (a : Automaton) (width time : Nat) (strips : Array Strip) :
    ∃ after, scanStep a.reach a.rules width strips time = .ok after :=
  foldlM_total (fun cell _ strips => scanCell_total a time cell strips) strips

end Simulation

namespace Automaton

/-- **Runs refuse nothing.**  A run of any automaton from any strip has a diagram, for any number of
steps, and where memory has no room for the diagram it is still not a refusal that the run ends
with.  Nor is there a refusal when a condition of the automaton is evaluated in a window of the
reach around some cell. -/
theorem simulate_refuses_nothing (a : Automaton) :
    (∀ (initial : Strip) (steps : Nat), (∃ d, a.simulate initial steps = .ok d) ∧
      ∀ e, a.simulate? initial steps ≠ some (.error e)) ∧
    ∀ rule ∈ a.rules, ∀ (strip : Strip) (focal : Nat), ∃ b,
      rule.condition.eval (strip.neighborhood focal a.reach.least a.reach.greatest) = .ok b := by
  refine ⟨fun initial steps => ?_, fun rule hrule => exists_eval_reach hrule⟩
  obtain ⟨strips, hstrips⟩ := Simulation.foldlM_total (l := List.range steps)
    (fun time _ strips => Simulation.scanStep_total a initial.size time strips)
    (Simulation.initialStrips initial steps)
  have hdiagram : a.simulate initial steps = .ok ⟨strips⟩ := by
    rw [simulate, hstrips]
    rfl
  refine ⟨⟨_, hdiagram⟩, fun e he => ?_⟩
  unfold simulate? at he
  split at he
  · rw [hdiagram] at he
    exact absurd he (by simp)
  · exact absurd he (by simp)

/-- An automaton whose conditions were not put together by the builders, with literals that
evaluation gets to only if there is another signal. -/
def guarded : Automaton :=
  ⟨∅, [⟨.conjunction [.literal ⟨⟨0⟩, 1, 0⟩, .conjunction [.literal ⟨⟨1⟩, -7, 4⟩]], [⟨3, ⟨1⟩, 0⟩]⟩,
    ⟨.disjunction [.always, .literal ⟨⟨5⟩, 9, 0⟩], [⟨-2, ⟨0⟩, 2⟩]⟩]⟩

/-- Nothing is refused by an automaton with conditions of all shapes, not even at the far end of a
window that has no cell in it. -/
theorem simulate_refuses_nothing_guarded :
    guarded.rules[0] ∈ guarded.rules ∧
    ((∃ d, guarded.simulate (.empty 2) 3 = .ok d) ∧
      ∀ e, guarded.simulate? (.empty 2) 3 ≠ some (.error e)) ∧
    ∃ b, guarded.rules[0].condition.eval
      ((Strip.empty 2).neighborhood 1 guarded.reach.least guarded.reach.greatest) = .ok b := by
  have hrule : guarded.rules[0] ∈ guarded.rules := List.mem_cons_self ..
  obtain ⟨hruns, hconditions⟩ := simulate_refuses_nothing guarded
  exact ⟨hrule, hruns (.empty 2) 3, hconditions _ hrule (.empty 2) 1⟩

end Automaton
end StripAutomata
