import Mathlib.Data.List.Forall2
import StripAutomata.Proofs.Simulation.Horizon
import StripAutomata.Proofs.Simulation.Silent

/-!
# The order of rules

If no output is of the same step, the strip that is being scanned does not change while it is
scanned.  Which rules fire at a time step is then settled before it begins, and what they place is
put into sets, in which order and number do not show.  So all that matters of the rules is which
condition goes with which output (`Automaton.effects`): what a time step adds to the strips is said
by them alone (`exists_scanStep_adds`), and from time step to time step two automata with the same
effects have the same strips.

Outputs of the same step make the order of the rules matter, but not that of the outputs of one
rule, which are placed all at once or not at all (`exists_tryRule_same`).

Nothing is said of handles: two automata are compared as if they were over one lexicon, and what the
lexicon has does not come into it.
-/

namespace StripAutomata

/-- Whether a condition holds at a cell of a strip.  How far a window would reach is left out, since
truth does not depend on it. -/
def Strip.Satisfies (strip : Strip) (cell : Nat) (c : Formula Signal) : Prop :=
  c.HoldsIn (strip.neighborhood cell 0 0)

/-- Whether two rules fire on the same and place the same, in whatever order and number. -/
structure Rule.PlacesSame (r q : Rule Signal) : Prop where
  condition : r.condition = q.condition
  outputs : ∀ o, o ∈ r.outputs ↔ o ∈ q.outputs

namespace Automaton

/-- The conditions of the rules, each with one of the outputs that are placed where it holds. -/
def effects (a : Automaton) : List (Formula Signal × Output Signal) :=
  a.rules.flatMap fun rule => rule.outputs.map fun o => (rule.condition, o)

lemma exists_mem_effects {a : Automaton} {p : Formula Signal → Prop} {q : Output Signal → Prop} :
    (∃ e ∈ a.effects, p e.1 ∧ q e.2) ↔
      ∃ rule ∈ a.rules, p rule.condition ∧ ∃ o ∈ rule.outputs, q o := by
  constructor
  · rintro ⟨e, he, hp, hq⟩
    obtain ⟨rule, hrule, he⟩ := List.mem_flatMap.1 he
    obtain ⟨o, ho, rfl⟩ := List.mem_map.1 he
    exact ⟨rule, hrule, hp, o, ho, hq⟩
  · rintro ⟨rule, hrule, hp, o, ho, hq⟩
    exact ⟨_, List.mem_flatMap.2 ⟨rule, hrule, List.mem_map_of_mem ho⟩, hp, hq⟩

end Automaton

namespace Simulation

variable {a b : Automaton} {rule : Rule Signal} {strips after : Array Strip} {strip : Strip}
  {steps width time cell : Nat}

/-- Strips of one shape are equal if they hold the same. -/
lemma HasShape.eq_of_hold {other : Array Strip} (h : HasShape strips steps width)
    (h' : HasShape other steps width)
    (hsame : ∀ t ≤ steps, ∀ c < width, ∀ s, Hold strips t c s ↔ Hold other t c s) :
    strips = other := by
  have hdiagrams : Diagram.mk strips = ⟨other⟩ :=
    Diagram.ext_of_hasShape h h' fun t ht c hc => SignalSet.ext fun s => by
      rw [mem_signalsAt_iff_hold, mem_signalsAt_iff_hold, hsame t ht c hc s]
  exact congrArg Diagram.strips hdiagrams

lemma exists_tryRule (hrule : rule ∈ a.rules) (hrow : strips[time]? = some strip) (cell : Nat) :
    ∃ after, tryRule a.reach time cell strips rule = .ok after ∧
      (strip.Satisfies cell rule.condition → after = placeAll time cell strips rule.outputs) ∧
      (¬ strip.Satisfies cell rule.condition → after = strips) := by
  obtain ⟨fired, hfired, htruth⟩ := Formula.exists_eval_iff_holds fun l hl =>
    Automaton.covers_of_mem_literals hrule hl strip cell
  have hfires : fires a.reach strips time cell rule = .ok fired := by
    rw [fires, hrow]
    exact hfired
  have hsatisfies : fired = true ↔ strip.Satisfies cell rule.condition := htruth
  rw [tryRule_eq, hfires]
  refine ⟨_, rfl, fun h => if_pos (hsatisfies.2 h), fun h => if_neg fun hf => ?_⟩
  exact h (hsatisfies.1 hf)

/-! ## What a time step adds -/

/-- Whether strips come from others by adding signals, where the strip of a time step is as given
before and after. -/
structure Adds (steps width time : Nat) (strip : Strip) (before : Array Strip)
    (added : Nat → Nat → Signal → Prop) (after : Array Strip) : Prop where
  shape : HasShape after steps width
  row : after[time]? = some strip
  hold : ∀ t ≤ steps, ∀ c < width, ∀ s, Hold after t c s ↔ Hold before t c s ∨ added t c s

lemma exists_foldlM_adds {α : Type} {l : List α}
    {f : Array Strip → α → Except OutsideWindow (Array Strip)}
    {added : α → Nat → Nat → Signal → Prop}
    (step : ∀ x ∈ l, ∀ strips, HasShape strips steps width → strips[time]? = some strip →
      ∃ after, f strips x = .ok after ∧ Adds steps width time strip strips (added x) after)
    (hshape : HasShape strips steps width) (hrow : strips[time]? = some strip) :
    ∃ after, l.foldlM f strips = .ok after ∧
      Adds steps width time strip strips (fun t c s => ∃ x ∈ l, added x t c s) after := by
  induction l generalizing strips with
  | nil => exact ⟨strips, rfl, hshape, hrow, fun t _ c _ s => by simp⟩
  | cons x l ih =>
    obtain ⟨between, hbetween, hfirst⟩ := step x (List.mem_cons_self ..) strips hshape hrow
    -- The strip of the time step is as it was, so the other entries look at the same.
    obtain ⟨after, hafter, hrest⟩ :=
      ih (fun y hy => step y (List.mem_cons_of_mem x hy)) hfirst.shape hfirst.row
    refine ⟨after, ?_, hrest.shape, hrest.row, fun t ht c hc s => ?_⟩
    · rw [List.foldlM_cons, hbetween]
      exact hafter
    · rw [hrest.hold t ht c hc s, hfirst.hold t ht c hc s, List.exists_mem_cons_iff, or_assoc]

/-- What a rule adds at a cell, if its outputs land in later time steps. -/
lemma exists_tryRule_adds (hlater : ∀ o ∈ a.outputs, o.step ≠ 0) (hrule : rule ∈ a.rules)
    (cell : Nat) (hshape : HasShape strips steps width) (hrow : strips[time]? = some strip) :
    ∃ after, tryRule a.reach time cell strips rule = .ok after ∧
      Adds steps width time strip strips (fun t c s => strip.Satisfies cell rule.condition ∧
        ∃ o ∈ rule.outputs, time + o.step = t ∧ (cell : Int) + o.offset = c ∧ o.signal = s)
        after := by
  obtain ⟨after, hafter, hfires, hsilent⟩ := exists_tryRule hrule hrow cell
  refine ⟨after, hafter, ?_⟩
  by_cases hsatisfies : strip.Satisfies cell rule.condition
  · -- What is placed in later steps leaves the strip of this one alone.
    have hnone : ∀ o ∈ rule.outputs, time + o.step ≠ time := by
      intro o ho
      have hstep : o.step ≠ 0 := hlater o (List.mem_flatMap.2 ⟨rule, hrule, ho⟩)
      omega
    rw [hfires hsatisfies]
    refine ⟨hshape.placeAll _ _ _, (getElem?_placeAll hnone cell strips).trans hrow,
      fun t ht c hc s => ?_⟩
    rw [hold_placeAll hshape ht hc, and_iff_right hsatisfies]
  · rw [hsilent hsatisfies]
    exact ⟨hshape, hrow, fun t _ c _ s => by simp [hsatisfies]⟩

/-- **What a time step adds** are the outputs of the effects whose conditions hold before it, if no
output is of the same step. -/
theorem exists_scanStep_adds (hlater : ∀ o ∈ a.outputs, o.step ≠ 0)
    (hshape : HasShape strips steps width) (hrow : strips[time]? = some strip) :
    ∃ after, scanStep a.reach a.rules width strips time = .ok after ∧
      Adds steps width time strip strips (fun t c s => ∃ cell ∈ List.range width,
        ∃ e ∈ a.effects, strip.Satisfies cell e.1 ∧
          (time + e.2.step = t ∧ (cell : Int) + e.2.offset = c ∧ e.2.signal = s)) after := by
  -- One loop over the cells, and in it one over the rules.
  have hcells := exists_foldlM_adds (l := List.range width) (fun cell _ strips hshape hrow =>
    exists_foldlM_adds (fun rule hrule strips hshape hrow =>
      exists_tryRule_adds hlater hrule cell hshape hrow) hshape hrow) hshape hrow
  obtain ⟨after, hafter, hadds⟩ := hcells
  refine ⟨after, hafter, hadds.shape, hadds.row, fun t ht c hc s => ?_⟩
  rw [hadds.hold t ht c hc s]
  refine or_congr_right (exists_congr fun cell => and_congr_right fun _ => ?_)
  exact (Automaton.exists_mem_effects (p := strip.Satisfies cell)
    (q := fun o => time + o.step = t ∧ (cell : Int) + o.offset = c ∧ o.signal = s)).symm

/-- Automata with the same effects do the same in a time step, if no output is of the same step. -/
lemma exists_scanStep_same_of_effects (ha : ∀ o ∈ a.outputs, o.step ≠ 0)
    (hb : ∀ o ∈ b.outputs, o.step ≠ 0) (h : ∀ e, e ∈ a.effects ↔ e ∈ b.effects)
    (htime : time ≤ steps) (hshape : HasShape strips steps width) :
    ∃ after, scanStep a.reach a.rules width strips time = .ok after ∧
      scanStep b.reach b.rules width strips time = .ok after ∧ HasShape after steps width := by
  obtain ⟨strip, hrow, -⟩ := hshape.width time htime
  obtain ⟨after, hafter, hadds⟩ := exists_scanStep_adds ha hshape hrow
  obtain ⟨after', hafter', hadds'⟩ := exists_scanStep_adds hb hshape hrow
  have hsame : after = after' := hadds.shape.eq_of_hold hadds'.shape fun t ht c hc s => by
    rw [hadds.hold t ht c hc s, hadds'.hold t ht c hc s]
    simp only [h]
  exact ⟨after, hafter, hsame ▸ hafter', hadds.shape⟩

/-! ## Outputs of one rule -/

lemma placeAll_congr {outputs others : List (Output Signal)} (h : ∀ o, o ∈ outputs ↔ o ∈ others)
    (hshape : HasShape strips steps width) (time cell : Nat) :
    placeAll time cell strips outputs = placeAll time cell strips others := by
  refine (hshape.placeAll _ _ _).eq_of_hold (hshape.placeAll _ _ _) fun t ht c hc s => ?_
  rw [hold_placeAll hshape ht hc, hold_placeAll hshape ht hc]
  simp only [h]

/-- Two rules with the same condition do the same if they have the same outputs, in whatever order
and number, and whatever the other rules of their automata are. -/
lemma exists_tryRule_same {q : Rule Signal} (hrule : rule ∈ a.rules) (hq : q ∈ b.rules)
    (h : rule.PlacesSame q) (htime : time ≤ steps) (cell : Nat)
    (hshape : HasShape strips steps width) :
    ∃ after, tryRule a.reach time cell strips rule = .ok after ∧
      tryRule b.reach time cell strips q = .ok after ∧ HasShape after steps width := by
  obtain ⟨strip, hrow, -⟩ := hshape.width time htime
  obtain ⟨after, hafter, hfires, hsilent⟩ := exists_tryRule hrule hrow cell
  obtain ⟨after', hafter', hfires', hsilent'⟩ := exists_tryRule hq hrow cell
  rw [← h.condition] at hfires' hsilent'
  by_cases hsatisfies : strip.Satisfies cell rule.condition
  · rw [hfires hsatisfies] at hafter
    rw [hfires' hsatisfies, ← placeAll_congr h.outputs hshape] at hafter'
    exact ⟨_, hafter, hafter', hshape.placeAll _ _ _⟩
  · rw [hsilent hsatisfies] at hafter
    rw [hsilent' hsatisfies] at hafter'
    exact ⟨strips, hafter, hafter', hshape⟩

/-- Automata whose rules place the same, one by one, do the same in a time step. -/
lemma exists_scanStep_same_of_rules (h : List.Forall₂ Rule.PlacesSame a.rules b.rules)
    (htime : time ≤ steps) (hshape : HasShape strips steps width) :
    ∃ after, scanStep a.reach a.rules width strips time = .ok after ∧
      scanStep b.reach b.rules width strips time = .ok after ∧ HasShape after steps width := by
  have hcells : List.Forall₂ Eq (List.range width) (List.range width) := List.forall₂_refl _
  refine exists_foldlM_same hcells (fun cell _ _ _ hcell strips hshape => ?_) hshape
  subst hcell
  refine exists_foldlM_same h (fun rule hrule q hq hsame strips hshape => ?_) hshape
  exact exists_tryRule_same hrule hq hsame htime cell hshape

end Simulation

/-! ## Diagrams -/

namespace Automaton

open Simulation

variable {a b : Automaton} {initial : Strip} {steps : Nat}

lemma exists_simulate_same
    (h : ∀ time ≤ steps, ∀ strips, HasShape strips steps initial.size →
      ∃ after, scanStep a.reach a.rules initial.size strips time = .ok after ∧
        scanStep b.reach b.rules initial.size strips time = .ok after ∧
        HasShape after steps initial.size) :
    ∃ d, a.simulate initial steps = .ok d ∧ b.simulate initial steps = .ok d := by
  have htimes : List.Forall₂ Eq (List.range steps) (List.range steps) := List.forall₂_refl _
  have hsame : ∃ strips, (List.range steps).foldlM (scanStep a.reach a.rules initial.size)
        (initialStrips initial steps) = .ok strips ∧
      (List.range steps).foldlM (scanStep b.reach b.rules initial.size)
        (initialStrips initial steps) = .ok strips ∧ HasShape strips steps initial.size := by
    refine exists_foldlM_same htimes (fun time htime _ _ hsame strips hshape => ?_)
      (hasShape_initialStrips initial steps)
    subst hsame
    exact h time (List.mem_range.1 htime).le strips hshape
  obtain ⟨strips, hstrips, hstrips', -⟩ := hsame
  exact ⟨⟨strips⟩, by rw [simulate, hstrips]; rfl, by rw [simulate, hstrips']; rfl⟩

lemma foldlM_of_simulate {d : Diagram} (h : a.simulate initial steps = .ok d) :
    (List.range steps).foldlM (scanStep a.reach a.rules initial.size)
      (initialStrips initial steps) = .ok d.strips := by
  rw [simulate] at h
  cases hstrips : (List.range steps).foldlM (scanStep a.reach a.rules initial.size)
      (initialStrips initial steps) with
  | error e =>
    rw [hstrips] at h
    cases h
  | ok strips =>
    rw [hstrips] at h
    cases h
    rfl

/-- The initial strip stays as it is, if no output is of the same step. -/
lemma strip?_zero_of_simulate (hlater : ∀ o ∈ a.outputs, o.step ≠ 0) {d : Diagram}
    (h : a.simulate initial steps = .ok d) : d.strip? 0 = some initial := by
  have hnone : ∀ time ∈ List.range steps, ∀ rule ∈ a.rules, ∀ o ∈ rule.outputs,
      time + o.step ≠ 0 := by
    intro time _ rule hrule o ho
    have hstep : o.step ≠ 0 := hlater o (List.mem_flatMap.2 ⟨rule, hrule, ho⟩)
    omega
  rw [Diagram.strip?, getElem?_foldlM_scanStep hnone (foldlM_of_simulate h),
    getElem?_initialStrips_zero]

/-- **Rules are a set, but for outputs of the same step.**  If no output of two automata is of the
same step, and the conditions that go with outputs in the one go with the same outputs in the other,
the two have the same diagrams, in which the initial strip is as it was.  So rules may be listed in
another order, listed twice, split, or merged if they have one condition, and outputs of a rule may
be listed in another order or twice.  The latter holds for any two automata. -/
theorem simulate_rules_as_set :
    (∀ a b : Automaton, (∀ o ∈ a.outputs, o.step ≠ 0) → (∀ o ∈ b.outputs, o.step ≠ 0) →
      (∀ e, e ∈ a.effects ↔ e ∈ b.effects) → ∀ (initial : Strip) (steps : Nat),
      ∃ d, a.simulate initial steps = .ok d ∧ b.simulate initial steps = .ok d ∧
        d.strip? 0 = some initial) ∧
    ∀ a b : Automaton, List.Forall₂ Rule.PlacesSame a.rules b.rules →
      ∀ (initial : Strip) (steps : Nat),
      ∃ d, a.simulate initial steps = .ok d ∧ b.simulate initial steps = .ok d := by
  refine ⟨fun a b ha hb heffects initial steps => ?_, fun a b hrules initial steps => ?_⟩
  · obtain ⟨d, hd, hd'⟩ := exists_simulate_same fun time htime strips hshape =>
      exists_scanStep_same_of_effects ha hb heffects htime hshape
    exact ⟨d, hd, hd', strip?_zero_of_simulate ha hd⟩
  · exact exists_simulate_same fun time htime strips hshape =>
      exists_scanStep_same_of_rules hrules htime hshape

/-- The automaton of a rule that moves a signal and leaves another one behind later on, and of a
rule about that one. -/
def gathered : Automaton :=
  ⟨∅, [⟨.literal ⟨⟨0⟩, 0, 0⟩, [⟨1, ⟨0⟩, 1⟩, ⟨0, ⟨1⟩, 2⟩]⟩, ⟨.literal ⟨⟨1⟩, 1, 0⟩, [⟨0, ⟨0⟩, 1⟩]⟩]⟩

/-- The same with the first rule split, the rules in another order, and an output twice. -/
def scattered : Automaton :=
  ⟨∅, [⟨.literal ⟨⟨1⟩, 1, 0⟩, [⟨0, ⟨0⟩, 1⟩, ⟨0, ⟨0⟩, 1⟩]⟩, ⟨.literal ⟨⟨0⟩, 0, 0⟩, [⟨0, ⟨1⟩, 2⟩]⟩,
    ⟨.literal ⟨⟨0⟩, 0, 0⟩, [⟨1, ⟨0⟩, 1⟩]⟩]⟩

/-- The automaton of a rule with an output of the same step, and of a rule that looks at it. -/
def marked : Automaton :=
  ⟨∅, [⟨.literal ⟨⟨0⟩, 0, 0⟩, [⟨0, ⟨1⟩, 0⟩, ⟨1, ⟨0⟩, 1⟩]⟩, ⟨.literal ⟨⟨1⟩, -1, 0⟩, [⟨0, ⟨2⟩, 0⟩]⟩]⟩

/-- The same with the outputs of the first rule in another order, and one of them twice. -/
def remarked : Automaton :=
  ⟨∅, [⟨.literal ⟨⟨0⟩, 0, 0⟩, [⟨1, ⟨0⟩, 1⟩, ⟨0, ⟨1⟩, 0⟩, ⟨1, ⟨0⟩, 1⟩]⟩,
    ⟨.literal ⟨⟨1⟩, -1, 0⟩, [⟨0, ⟨2⟩, 0⟩]⟩]⟩

/-- Rules that are split, moved and doubled, and outputs that are moved and doubled. -/
theorem simulate_rules_as_set_scattered :
    ((∀ o ∈ gathered.outputs, o.step ≠ 0) ∧ (∀ o ∈ scattered.outputs, o.step ≠ 0) ∧
      (∀ e, e ∈ gathered.effects ↔ e ∈ scattered.effects) ∧
      ∃ d, gathered.simulate ((Strip.empty 4).place 0 ⟨0⟩) 3 = .ok d ∧
        scattered.simulate ((Strip.empty 4).place 0 ⟨0⟩) 3 = .ok d ∧
        d.strip? 0 = some ((Strip.empty 4).place 0 ⟨0⟩)) ∧
    List.Forall₂ Rule.PlacesSame marked.rules remarked.rules ∧
    ∃ d, marked.simulate ((Strip.empty 4).place 0 ⟨0⟩) 3 = .ok d ∧
      remarked.simulate ((Strip.empty 4).place 0 ⟨0⟩) 3 = .ok d := by
  have hgathered : ∀ o ∈ gathered.outputs, o.step ≠ 0 := by decide
  have hscattered : ∀ o ∈ scattered.outputs, o.step ≠ 0 := by decide
  have heffects : ∀ e, e ∈ gathered.effects ↔ e ∈ scattered.effects := by
    have hsub : ∀ e ∈ gathered.effects, e ∈ scattered.effects := by decide
    have hsuper : ∀ e ∈ scattered.effects, e ∈ gathered.effects := by decide
    exact fun e => ⟨hsub e, hsuper e⟩
  have hrules : List.Forall₂ Rule.PlacesSame marked.rules remarked.rules := by
    refine .cons ⟨rfl, fun o => ?_⟩ (.cons ⟨rfl, fun o => Iff.rfl⟩ .nil)
    simp only [List.mem_cons]
    tauto
  exact ⟨⟨hgathered, hscattered, heffects, simulate_rules_as_set.1 gathered scattered hgathered
    hscattered heffects _ 3⟩, hrules, simulate_rules_as_set.2 marked remarked hrules _ 3⟩

end Automaton
end StripAutomata
