import StripAutomata.Memory
import StripAutomata.Proofs.Automaton.Reach
import StripAutomata.Proofs.Simulation.Firing
import StripAutomata.Proofs.Simulation.Loop

/-!
# What a run computes

The loops of a run visit every time step, every cell and every rule, and change the strips on the
way.  Before a visit the strips hold what the initial strip holds and what was placed by the rules
that fired so far; this is the invariant `Simulation.Upto`, and trying a rule takes it from one
visit to the next (`tryRule_upto`).  The loops over rules, cells and time steps then carry it
through the run, and in the end the diagram holds what fired before the last step
(`exists_simulate`).

The invariant also keeps the strips from growing or shrinking, so what is placed beside them or
after the last step is lost.
-/

namespace StripAutomata

/-! ## Placing signals -/

lemma Strip.lt_size_of_mem {strip : Strip} {index : Nat} {s : Signal}
    (h : s ∈ strip.cellOrEmpty index) : index < strip.size := by
  by_contra hlarge
  have hnone : strip.cell? index = none := by
    rw [cell?]
    exact Array.getElem?_eq_none (not_lt.1 hlarge)
  rw [cellOrEmpty, hnone] at h
  exact SignalSet.not_mem_empty s h

lemma Strip.mem_cellOrEmpty_place {strip : Strip} {index i : Nat} {s x : Signal}
    (hi : i < strip.size) :
    x ∈ (strip.place index s).cellOrEmpty i ↔ x ∈ strip.cellOrEmpty i ∨ index = i ∧ s = x := by
  have hcell : strip.cell? i = some strip.cells[i] := Array.getElem?_eq_getElem hi
  by_cases hindex : index = i
  · simp only [cellOrEmpty, cell?_place, if_pos hindex, hcell, Option.map_some, Option.getD_some,
      SignalSet.mem_insert]
    rw [or_comm, eq_comm, and_iff_right hindex]
  · simp [cellOrEmpty, cell?_place, hindex]

namespace Simulation

/-- What strips hold at a time step and a cell. -/
def Hold (strips : Array Strip) (time cell : Nat) (s : Signal) : Prop :=
  s ∈ (strips[time]?.getD default).cellOrEmpty cell

/-- Whether strips are those of a run: one more than its steps, and all of one size. -/
structure HasShape (strips : Array Strip) (steps width : Nat) : Prop where
  length : strips.size = steps + 1
  width : ∀ time ≤ steps, ∃ strip, strips[time]? = some strip ∧ strip.size = width

variable {strips : Array Strip} {steps width : Nat}

lemma HasShape.size_of_mem (h : HasShape strips steps width) {strip : Strip}
    (hstrip : strip ∈ strips) : strip.size = width := by
  obtain ⟨time, htime, rfl⟩ := Array.getElem_of_mem hstrip
  have hle : time ≤ steps := by
    have hlength := h.length
    omega
  obtain ⟨found, hfound, hwidth⟩ := h.width time hle
  rw [Array.getElem?_eq_getElem htime, Option.some.injEq] at hfound
  rw [hfound, hwidth]

lemma HasShape.place (h : HasShape strips steps width) (time : Nat) (cell : Int) (s : Signal) :
    HasShape (place strips time cell s) steps width := by
  cases cell with
  | negSucc index => exact h
  | ofNat index =>
    refine ⟨by rw [Simulation.place, Array.size_modify, h.length], fun t ht => ?_⟩
    obtain ⟨strip, hstrip, hwidth⟩ := h.width t ht
    by_cases htime : time = t
    · refine ⟨strip.place index s, ?_, by rw [Strip.size_place, hwidth]⟩
      simp [Simulation.place, Array.getElem?_modify, htime, hstrip]
    · refine ⟨strip, ?_, hwidth⟩
      simp [Simulation.place, Array.getElem?_modify, htime, hstrip]

/-- A signal that is placed is held afterwards where it was placed, and that is all. -/
lemma hold_place (h : HasShape strips steps width) {time t c : Nat} {cell : Int} {s x : Signal}
    (ht : t ≤ steps) (hc : c < width) :
    Hold (place strips time cell s) t c x ↔
      Hold strips t c x ∨ time = t ∧ cell = c ∧ s = x := by
  obtain ⟨strip, hstrip, hwidth⟩ := h.width t ht
  cases cell with
  | negSucc index =>
    have hne : Int.negSucc index ≠ (c : Int) := by omega
    simp [place, hne]
  | ofNat index =>
    have hindex : (Int.ofNat index = (c : Int)) ↔ index = c := by
      rw [Int.ofNat_eq_natCast, Int.ofNat_inj]
    by_cases htime : time = t
    · have hplaced : (place strips time (Int.ofNat index) s)[t]? = some (strip.place index s) := by
        simp [place, Array.getElem?_modify, htime, hstrip]
      rw [Hold, Hold, hplaced, hstrip, Option.getD_some, Option.getD_some,
        Strip.mem_cellOrEmpty_place (by rwa [hwidth]), hindex, and_iff_right htime]
    · simp [Hold, place, Array.getElem?_modify, htime]

lemma HasShape.placeAll (h : HasShape strips steps width) (time cell : Nat)
    (outputs : List (Output Signal)) : HasShape (placeAll time cell strips outputs) steps width := by
  induction outputs generalizing strips with
  | nil => exact h
  | cons o outputs ih => exact ih (h.place _ _ _)

lemma hold_placeAll (h : HasShape strips steps width) {time cell t c : Nat} {x : Signal}
    {outputs : List (Output Signal)} (ht : t ≤ steps) (hc : c < width) :
    Hold (placeAll time cell strips outputs) t c x ↔
      Hold strips t c x ∨
        ∃ o ∈ outputs, time + o.step = t ∧ (cell : Int) + o.offset = c ∧ o.signal = x := by
  induction outputs generalizing strips with
  | nil => simp [placeAll]
  | cons o outputs ih =>
    have hrest := ih (h.place (time + o.step) (cell + o.offset) o.signal)
    rw [placeAll, List.foldl_cons, ← placeAll, hrest, hold_place h ht hc, List.exists_mem_cons_iff,
      or_assoc]

/-! ## The strips before a run -/

lemma getElem?_initialStrips_zero (initial : Strip) (steps : Nat) :
    (initialStrips initial steps)[0]? = some initial := by
  rw [initialStrips, Array.getElem?_append_left (by simp)]
  rfl

lemma getElem?_initialStrips_succ (initial : Strip) (steps time : Nat) :
    (initialStrips initial steps)[time + 1]? =
      if time < steps then some (Strip.empty initial.size) else none := by
  rw [initialStrips, Array.getElem?_append_right (by simp)]
  simp [Array.getElem?_replicate]

lemma hasShape_initialStrips (initial : Strip) (steps : Nat) :
    HasShape (initialStrips initial steps) steps initial.size := by
  refine ⟨by simp [initialStrips]; omega, fun time htime => ?_⟩
  cases time with
  | zero => exact ⟨initial, getElem?_initialStrips_zero initial steps, rfl⟩
  | succ time =>
    refine ⟨Strip.empty initial.size, ?_, by simp [Strip.empty, Strip.size]⟩
    rw [getElem?_initialStrips_succ, if_pos (by omega)]

lemma not_mem_cellOrEmpty_empty (size cell : Nat) (s : Signal) :
    s ∉ (Strip.empty size).cellOrEmpty cell := by
  intro h
  have hcell : (Strip.empty size).cellOrEmpty cell = ∅ := by
    by_cases hlt : cell < size
    · simp [Strip.cellOrEmpty, Strip.cell?, Strip.empty, hlt]
    · simp [Strip.cellOrEmpty, Strip.cell?, Strip.empty, hlt]
  rw [hcell] at h
  exact SignalSet.not_mem_empty s h

/-- Before a run only the initial strip holds signals. -/
lemma hold_initialStrips {initial : Strip} {time cell : Nat} {s : Signal} :
    Hold (initialStrips initial steps) time cell s ↔ time = 0 ∧ s ∈ initial.cellOrEmpty cell := by
  cases time with
  | zero => rw [Hold, getElem?_initialStrips_zero, Option.getD_some, and_iff_right rfl]
  | succ time =>
    have hnone : ¬ Hold (initialStrips initial steps) (time + 1) cell s := by
      rw [Hold, getElem?_initialStrips_succ]
      by_cases htime : time < steps
      · rw [if_pos htime]
        exact not_mem_cellOrEmpty_empty _ _ _
      · rw [if_neg htime]
        exact not_mem_cellOrEmpty_empty _ _ _
    simp [hnone]

/-! ## Looking at the strips -/

/-- A neighborhood shows what a strip holds, and nothing beside it. -/
lemma mem_signalsAt_iff {strip : Strip} {focal : Nat} {least greatest offset : Int} {s : Signal}
    (hfocal : focal < 0x8000000000000000) :
    s ∈ (strip.neighborhood focal least greatest).signalsAt
        ((strip.neighborhood focal least greatest).origin + offset) ↔
      ∃ cell < strip.size, (cell : Int) = focal + offset ∧ s ∈ strip.cellOrEmpty cell := by
  have horigin : (strip.neighborhood focal least greatest).origin = focal := if_pos hfocal
  rw [horigin]
  generalize (focal : Int) + offset = place
  cases place with
  | ofNat index =>
    constructor
    · intro hs
      exact ⟨index, Strip.lt_size_of_mem hs, rfl, hs⟩
    · rintro ⟨cell, -, hcell, hs⟩
      cases hcell
      exact hs
  | negSucc index =>
    constructor
    · intro hs
      exact absurd hs (SignalSet.not_mem_empty s)
    · rintro ⟨cell, -, hcell, -⟩
      cases hcell

/-- Whether the rule of a visit fires is found out, and is whether it can fire on what is held. -/
lemma exists_fires_iff {a : Automaton} {v : Visit} {rule : Rule Signal}
    (h : HasShape strips steps width) (hroom : Memory.holds width = true)
    (hrule : a.rules[v.rule]? = some rule) (htime : v.time ≤ steps) (hcell : v.cell < width) :
    ∃ b, fires a.reach strips v.time v.cell rule = .ok b ∧
      (b = true ↔ a.CanFire width (Hold strips v.time) v) := by
  obtain ⟨strip, hstrip, rfl⟩ := h.width v.time htime
  have hfocal : v.cell < 0x8000000000000000 := by
    have hlargest : strip.size ≤ Memory.largestRow := of_decide_eq_true hroom
    rw [Memory.largestRow] at hlargest
    omega
  obtain ⟨b, hb, htruth⟩ := Formula.exists_eval_iff_holds fun l hl =>
    Automaton.covers_of_mem_literals (List.mem_of_getElem? hrule) hl strip v.cell
  refine ⟨b, by rw [fires, hstrip]; exact hb, htruth.trans ?_⟩
  have hholds : Formula.HoldsIn (strip.neighborhood v.cell a.reach.least a.reach.greatest)
      rule.condition ↔ rule.condition.Holds fun offset s =>
        ∃ cell < strip.size, (cell : Int) = v.cell + offset ∧ Hold strips v.time cell s := by
    refine Formula.holds_congr fun l _ => (mem_signalsAt_iff hfocal).trans ?_
    simp only [Hold, hstrip, Option.getD_some]
  rw [hholds]
  constructor
  · exact fun hcan => ⟨rule, hrule, hcan⟩
  · rintro ⟨other, hother, hcan⟩
    cases hother.symm.trans hrule
    exact hcan

/-! ## The invariant of a run -/

/-- Whether strips are those of a run that has come to a visit. -/
structure Upto (a : Automaton) (initial : Strip) (steps : Nat) (v : Visit) (strips : Array Strip) :
    Prop where
  shape : HasShape strips steps initial.size
  hold : ∀ time ≤ steps, ∀ cell < initial.size, ∀ s,
    Hold strips time cell s ↔ a.HeldBefore initial v time cell s

variable {a : Automaton} {initial : Strip}

/-- Only rules that there are and that fire matter for what was placed before a visit. -/
lemma heldBefore_congr {v w : Visit}
    (h : ∀ u, a.Fires initial u → u.rule < a.rules.length → (u.Before v ↔ u.Before w))
    {time cell : Nat} {s : Signal} :
    a.HeldBefore initial v time cell s ↔ a.HeldBefore initial w time cell s := by
  refine or_congr_right (exists_congr fun u => ?_)
  constructor
  · rintro ⟨hbefore, hfires, hplaces⟩
    exact ⟨(h u hfires hplaces.rule_lt).1 hbefore, hfires, hplaces⟩
  · rintro ⟨hbefore, hfires, hplaces⟩
    exact ⟨(h u hfires hplaces.rule_lt).2 hbefore, hfires, hplaces⟩

lemma Upto.congr {v w : Visit} (hstrips : Upto a initial steps v strips)
    (h : ∀ u, a.Fires initial u → u.rule < a.rules.length → (u.Before v ↔ u.Before w)) :
    Upto a initial steps w strips :=
  ⟨hstrips.shape, fun time htime cell hcell s =>
    (hstrips.hold time htime cell hcell s).trans (heldBefore_congr h)⟩

/-- The visit after a visit, at the same cell. -/
def next (v : Visit) : Visit := ⟨v.time, v.cell, v.rule + 1⟩

/-- By the time of the next visit there is also what was placed at this one. -/
lemma heldBefore_next {v : Visit} {time cell : Nat} {s : Signal} :
    a.HeldBefore initial (next v) time cell s ↔
      a.HeldBefore initial v time cell s ∨ a.Fires initial v ∧ a.Places v time cell s := by
  have hnext : ∀ u : Visit, u.Before (next v) ↔ u.Before v ∨ u = v := by
    rintro ⟨t, c, k⟩
    obtain ⟨t', c', k'⟩ := v
    simp only [Visit.Before, next, Visit.mk.injEq]
    omega
  simp only [Automaton.HeldBefore, hnext, or_and_right, exists_or, exists_eq_left, or_assoc]

/-- **Trying a rule takes the strips from one visit to the next.** -/
theorem tryRule_upto (hroom : Memory.holds initial.size = true) {v : Visit} {rule : Rule Signal}
    (hrule : a.rules[v.rule]? = some rule) (htime : v.time ≤ steps) (hcell : v.cell < initial.size)
    (h : Upto a initial steps v strips) :
    ∃ after, tryRule a.reach v.time v.cell strips rule = .ok after ∧
      Upto a initial steps (next v) after := by
  obtain ⟨b, hb, hcan⟩ := exists_fires_iff h.shape hroom hrule htime hcell
  have hfires : b = true ↔ a.Fires initial v := by
    rw [hcan, Automaton.fires_iff, and_iff_right hcell]
    exact Automaton.canFire_congr fun cell hlt s => h.hold v.time htime cell hlt s
  cases b with
  | false =>
    have hnot : ¬ a.Fires initial v := fun hv => Bool.false_ne_true (hfires.2 hv)
    refine ⟨strips, by rw [tryRule, hb]; rfl, h.shape, fun time ht cell hc s => ?_⟩
    rw [heldBefore_next, h.hold time ht cell hc s]
    simp [hnot]
  | true =>
    refine ⟨placeAll v.time v.cell strips rule.outputs, by rw [tryRule, hb]; rfl,
      h.shape.placeAll _ _ _, fun time ht cell hc s => ?_⟩
    have hplaces : a.Places v time cell s ↔ ∃ o ∈ rule.outputs, v.time + o.step = time ∧
        (v.cell : Int) + o.offset = cell ∧ o.signal = s := by
      simp [Automaton.Places, hrule]
    rw [heldBefore_next, hold_placeAll h.shape ht hc, h.hold time ht cell hc s, hplaces,
      and_iff_right (hfires.1 rfl)]

/-! ## The loops of a run -/

/-- The rules at a cell take the strips to the next cell. -/
lemma scanCell_upto (hroom : Memory.holds initial.size = true) {time cell : Nat}
    (htime : time ≤ steps) (hcell : cell < initial.size)
    (h : Upto a initial steps ⟨time, cell, 0⟩ strips) :
    ∃ after, scanCell a.reach a.rules time strips cell = .ok after ∧
      Upto a initial steps ⟨time, cell + 1, 0⟩ after := by
  have hstep : ∀ k rule, a.rules[k]? = some rule → ∀ strips,
      Upto a initial steps ⟨time, cell, k⟩ strips →
      ∃ after, tryRule a.reach time cell strips rule = .ok after ∧
        Upto a initial steps ⟨time, cell, k + 1⟩ after := fun k rule hrule strips hstrips =>
    tryRule_upto hroom (v := ⟨time, cell, k⟩) hrule htime hcell hstrips
  obtain ⟨after, hafter, hlast⟩ := exists_foldlM hstep h
  refine ⟨after, hafter, hlast.congr fun u _ hrule => ?_⟩
  simp only [Visit.Before]
  omega

/-- The cells of a time step take the strips to the next time step. -/
lemma scanStep_upto (hroom : Memory.holds initial.size = true) {time : Nat} (htime : time ≤ steps)
    (h : Upto a initial steps ⟨time, 0, 0⟩ strips) :
    ∃ after, scanStep a.reach a.rules initial.size strips time = .ok after ∧
      Upto a initial steps ⟨time + 1, 0, 0⟩ after := by
  have hstep : ∀ cell < initial.size, ∀ strips, Upto a initial steps ⟨time, cell, 0⟩ strips →
      ∃ after, scanCell a.reach a.rules time strips cell = .ok after ∧
        Upto a initial steps ⟨time, cell + 1, 0⟩ after := fun cell hcell strips hstrips =>
    scanCell_upto hroom htime hcell hstrips
  obtain ⟨after, hafter, hlast⟩ := exists_foldlM_range hstep h
  refine ⟨after, hafter, hlast.congr fun u hfires _ => ?_⟩
  have hcell := hfires.cell_lt
  simp only [Visit.Before]
  omega

/-- The strips before a run have come to its first visit. -/
lemma initialStrips_upto : Upto a initial steps ⟨0, 0, 0⟩ (initialStrips initial steps) := by
  refine ⟨hasShape_initialStrips initial steps, fun time _ cell _ s => ?_⟩
  have hnone : ∀ u : Visit, ¬ u.Before ⟨0, 0, 0⟩ := by
    intro u
    simp [Visit.Before]
  rw [hold_initialStrips, Automaton.HeldBefore]
  simp [hnone]

end Simulation

namespace Automaton

/-- **What a run computes.**  A run refuses nothing.  Its diagram has a strip for the initial step
and one for each step that is computed, all of the size of the initial one; and what a cell holds is
what the initial strip holds and what was placed by the rules that fired before the last step. -/
theorem exists_simulate (a : Automaton) {initial : Strip}
    (hroom : Memory.holds initial.size = true) (steps : Nat) :
    ∃ d, a.simulate initial steps = .ok d ∧ Simulation.HasShape d.strips steps initial.size ∧
      ∀ time ≤ steps, ∀ cell < initial.size, ∀ s,
        s ∈ d.signalsAt time cell ↔ (time = 0 ∧ s ∈ initial.cellOrEmpty cell) ∨
          ∃ v, v.time < steps ∧ a.Fires initial v ∧ a.Places v time cell s := by
  have hstep : ∀ time < steps, ∀ strips, Simulation.Upto a initial steps ⟨time, 0, 0⟩ strips →
      ∃ after, Simulation.scanStep a.reach a.rules initial.size strips time = .ok after ∧
        Simulation.Upto a initial steps ⟨time + 1, 0, 0⟩ after := fun time htime strips hstrips =>
    Simulation.scanStep_upto hroom htime.le hstrips
  obtain ⟨strips, hstrips, hlast⟩ :=
    Simulation.exists_foldlM_range hstep Simulation.initialStrips_upto
  refine ⟨⟨strips⟩, by rw [simulate, hstrips]; rfl, hlast.shape, fun time htime cell hcell s => ?_⟩
  obtain ⟨strip, hstrip, -⟩ := hlast.shape.width time htime
  have hhold := hlast.hold time htime cell hcell s
  have hbefore : ∀ u : Visit, u.Before ⟨steps, 0, 0⟩ ↔ u.time < steps := by
    intro u
    simp [Visit.Before]
  simp only [HeldBefore, hbefore, Simulation.Hold, hstrip, Option.getD_some] at hhold
  simpa only [Diagram.signalsAt, Diagram.strip?, hstrip] using hhold

end Automaton
end StripAutomata
