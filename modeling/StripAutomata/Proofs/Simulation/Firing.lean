import Mathlib.Order.RelClasses
import StripAutomata.Automaton.Basic
import StripAutomata.Proofs.Formula.Truth

/-!
# Which rules fire

A run visits every time step, at it every cell from left to right, and at the cell every rule in
order.  Here the firing of rules is described without strips that change: a rule fires at a visit if
its condition holds of what the cells hold by then, which is what the initial strip holds and what
was placed by the rules that fired at visits before (`Automaton.fires_iff`).  This is a recursion on
the order of visits, `Visit.Before`, and it knows neither of a last time step nor of a diagram.

Nothing is assumed of the rules, so the description is right for outputs of the same step that
leave their cell, too.
-/

namespace StripAutomata

/-- The trying of a rule, given by its index, at a time step and a cell. -/
structure Visit where
  time : Nat
  cell : Nat
  rule : Nat

namespace Visit

/-- Whether a visit comes before another one: time steps come first, then cells, then rules. -/
def Before (u v : Visit) : Prop :=
  u.time < v.time ∨ u.time = v.time ∧ (u.cell < v.cell ∨ u.cell = v.cell ∧ u.rule < v.rule)

lemma wellFounded_before : WellFounded Before := by
  have hlex : WellFounded (Prod.Lex (· < · : Nat → Nat → Prop)
      (Prod.Lex (· < · : Nat → Nat → Prop) (· < · : Nat → Nat → Prop))) :=
    Nat.lt_wfRel.wf.prod_lex (Nat.lt_wfRel.wf.prod_lex Nat.lt_wfRel.wf)
  refine Subrelation.wf ?_ (InvImage.wf (fun v : Visit => (v.time, v.cell, v.rule)) hlex)
  rintro ⟨t, c, k⟩ ⟨t', c', k'⟩ (h | ⟨h, h' | ⟨h', hk⟩⟩)
  · exact Prod.Lex.left _ _ h
  · cases h
    exact Prod.Lex.right _ (Prod.Lex.left _ _ h')
  · cases h
    cases h'
    exact Prod.Lex.right _ (Prod.Lex.right _ hk)

instance : WellFoundedRelation Visit := ⟨Before, wellFounded_before⟩

end Visit

namespace Automaton

/-- Whether the rule of a visit has an output that lands at a time step and a cell. -/
def Places (a : Automaton) (v : Visit) (time cell : Nat) (s : Signal) : Prop :=
  ∃ rule, a.rules[v.rule]? = some rule ∧
    ∃ o ∈ rule.outputs, v.time + o.step = time ∧ (v.cell : Int) + o.offset = cell ∧ o.signal = s

/-- Whether the condition of the rule of a visit holds of the contents of the cells of a strip.
Beside the strip there is nothing. -/
def CanFire (a : Automaton) (width : Nat) (contents : Nat → Signal → Prop) (v : Visit) : Prop :=
  ∃ rule, a.rules[v.rule]? = some rule ∧
    rule.condition.Holds fun offset s =>
      ∃ cell < width, (cell : Int) = v.cell + offset ∧ contents cell s

/-- Whether a rule fires at a visit of a run. -/
def Fires (a : Automaton) (initial : Strip) (v : Visit) : Prop :=
  v.cell < initial.size ∧
    a.CanFire initial.size (fun cell s =>
      (v.time = 0 ∧ s ∈ initial.cellOrEmpty cell) ∨
        ∃ u, ∃ _ : u.Before v, Fires a initial u ∧ a.Places u v.time cell s) v
termination_by v
decreasing_by assumption

/-- What a cell holds at a time step by the time of a visit. -/
def HeldBefore (a : Automaton) (initial : Strip) (v : Visit) (time cell : Nat) (s : Signal) :
    Prop :=
  (time = 0 ∧ s ∈ initial.cellOrEmpty cell) ∨
    ∃ u, u.Before v ∧ a.Fires initial u ∧ a.Places u time cell s

variable {a : Automaton} {initial : Strip} {v : Visit}

/-- Only what the cells of the strip hold matters for whether a rule can fire. -/
lemma canFire_congr {width : Nat} {p q : Nat → Signal → Prop}
    (h : ∀ cell < width, ∀ s, p cell s ↔ q cell s) : a.CanFire width p v ↔ a.CanFire width q v := by
  refine exists_congr fun rule => and_congr_right fun _ => ?_
  refine Formula.holds_congr fun l _ => exists_congr fun cell => and_congr_right fun hcell => ?_
  exact and_congr_right fun _ => h cell hcell l.signal

/-- **A rule fires if its condition holds of what the cells hold by then.** -/
theorem fires_iff :
    a.Fires initial v ↔
      v.cell < initial.size ∧ a.CanFire initial.size (a.HeldBefore initial v v.time) v := by
  rw [Fires]
  refine and_congr_right fun _ => canFire_congr fun cell _ s => ?_
  rw [HeldBefore]
  simp only [exists_prop]

lemma Fires.cell_lt (h : a.Fires initial v) : v.cell < initial.size := (fires_iff.1 h).1

lemma Places.rule_lt {time cell : Nat} {s : Signal} (h : a.Places v time cell s) :
    v.rule < a.rules.length := by
  obtain ⟨rule, hrule, -⟩ := h
  exact (List.getElem?_eq_some_iff.1 hrule).1

lemma Places.time_le {time cell : Nat} {s : Signal} (h : a.Places v time cell s) :
    v.time ≤ time := by
  obtain ⟨rule, -, o, -, htime, -⟩ := h
  omega

end Automaton
end StripAutomata
