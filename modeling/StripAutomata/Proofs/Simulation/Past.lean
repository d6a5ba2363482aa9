import StripAutomata.Proofs.Automaton.RoundTrip
import StripAutomata.Proofs.Simulation.Trial

/-!
# The past of a run

When a cell of a time step has been scanned, it is settled, and so are the cells to the left of it
and the strips of the time steps before: nothing is placed there any more.  This rests on outputs of
the same step staying at their cell, which the reader of rule text sees to
(`isLocal_of_readInto`).  So what a later trial places lands beyond the cell (`lands_beyond`), one
signal leaves the past the same (`samePast_place`), and so do all trials between two moments
(`samePast_stripsAfter`).

What is placed in the same step is there for the trials that are still to come, since strips are
only added to.  A trial that was before has seen nothing of it.
-/

namespace StripAutomata

namespace Simulation

variable {strips before after : Array Strip} {reach : Reach} {steps width time cell : Nat}
  {target : Int} {v w : Trial} {s : Signal}

/-! ## The past -/

/-- Whether strips are the same before a time step, and at it up to a cell. -/
structure SamePast (time cell : Nat) (before after : Array Strip) : Prop where
  rows : ∀ t < time, after[t]? = before[t]?
  cells : ∀ c ≤ cell, after[time]?.bind (·.cell? c) = before[time]?.bind (·.cell? c)

lemma SamePast.refl (time cell : Nat) (strips : Array Strip) : SamePast time cell strips strips :=
  ⟨fun _ _ => rfl, fun _ _ => rfl⟩

lemma SamePast.trans {first second third : Array Strip} (h : SamePast time cell first second)
    (h' : SamePast time cell second third) : SamePast time cell first third where
  rows := fun t ht => (h'.rows t ht).trans (h.rows t ht)
  cells := fun c hc => (h'.cells c hc).trans (h.cells c hc)

lemma samePast_place {t : Nat} (h : time < t ∨ t = time ∧ (cell : Int) < target)
    (strips : Array Strip) (s : Signal) : SamePast time cell strips (place strips t target s) := by
  refine ⟨fun t' ht' => getElem?_place_of_ne (by omega) target s, fun c hc => ?_⟩
  rcases h with hlater | ⟨rfl, hcell⟩
  · rw [getElem?_place_of_ne (by omega)]
  · cases target with
    | negSucc index => rfl
    | ofNat index =>
      -- In the time step itself the signal lands in another cell than those up to the cell.
      have hne : index ≠ c := by
        rw [Int.ofNat_eq_natCast, Int.ofNat_lt] at hcell
        omega
      rw [place, Array.getElem?_modify, if_pos rfl]
      rcases strips[t]? with _ | strip
      · rfl
      · rw [Option.map_some, Option.bind_some, Option.bind_some, Strip.cell?_place, if_neg hne]

/-- What a trial places lands beyond every cell that was scanned before, if outputs of the same step
stay at their cell. -/
lemma lands_beyond {o : Output Signal} (hlocal : o.IsLocal) (hv : ¬ v.UpTo time cell) :
    time < v.time + o.step ∨ v.time + o.step = time ∧ (cell : Int) < v.cell + o.offset := by
  unfold Trial.UpTo at hv
  -- In its own step a rule places at its cell, which is beyond; else it places in a later step.
  by_cases hstep : o.step = 0
  · have hoffset := hlocal hstep
    omega
  · omega

lemma samePast_placeAll {outputs : List (Output Signal)} (hlocal : ∀ o ∈ outputs, o.IsLocal)
    (hv : ¬ v.UpTo time cell) (strips : Array Strip) :
    SamePast time cell strips (placeAll v.time v.cell strips outputs) := by
  induction outputs generalizing strips with
  | nil => exact SamePast.refl time cell strips
  | cons o outputs ih =>
    obtain ⟨hfirst, hrest⟩ := List.forall_mem_cons.1 hlocal
    exact (samePast_place (lands_beyond hfirst hv) strips o.signal).trans (ih hrest _)

lemma eq_of_attempt (h : attempt reach before v = .ok after) :
    after = placeAll v.time v.cell before v.rule.outputs ∨ after = before :=
  tryRule_cases h

lemma samePast_attempt (hlocal : ∀ o ∈ v.rule.outputs, o.IsLocal) (hv : ¬ v.UpTo time cell)
    (h : attempt reach before v = .ok after) : SamePast time cell before after := by
  rcases eq_of_attempt h with rfl | rfl
  · exact samePast_placeAll hlocal hv before
  · exact SamePast.refl time cell after

lemma extends_attempt (h : attempt reach before v = .ok after) : Extends 0 before after := by
  rcases eq_of_attempt h with rfl | rfl
  · exact extends_placeAll (fun o _ => Nat.zero_le (v.time + o.step)) v.cell
  · exact Extends.refl 0 after

lemma HasShape.attempt (hshape : HasShape before steps width)
    (h : attempt reach before v = .ok after) : HasShape after steps width := by
  rcases eq_of_attempt h with rfl | rfl
  · exact hshape.placeAll _ _ _
  · exact hshape

/-! ## What trials look at -/

/-- What a trial is shown of the strips at an offset from its cell. -/
def shown (reach : Reach) (strips : Array Strip) (v : Trial) (offset : Int) :
    Except OutsideWindow SignalSet :=
  ((strips[v.time]?.getD default).neighborhood v.cell reach.least reach.greatest).get offset

/-- Where a condition looks, the trial is shown what the cell holds. -/
lemma exists_shown {a : Automaton} {l : Literal Signal} (h : HasShape strips steps width)
    (hroom : Memory.holds width = true) (hrule : w.rule ∈ a.rules)
    (hl : l ∈ w.rule.condition.literals) (htime : w.time ≤ steps) (hw : w.cell < width)
    (hcell : cell < width) (hplace : (w.cell : Int) + l.position = cell) :
    ∃ seen, shown a.reach strips w l.position = .ok seen ∧
      ∀ s, s ∈ seen ↔ Hold strips w.time cell s := by
  obtain ⟨strip, hstrip, rfl⟩ := h.width w.time htime
  have hfocal : w.cell < 0x8000000000000000 := by
    have hlargest : strip.size ≤ Memory.largestRow := of_decide_eq_true hroom
    rw [Memory.largestRow] at hlargest
    omega
  have hcovers := Automaton.covers_of_mem_literals hrule hl strip w.cell
  rw [shown, hstrip, Option.getD_some, Neighborhood.get_of_covers hcovers]
  refine ⟨_, rfl, fun s => (mem_signalsAt_iff hfocal).trans ?_⟩
  rw [Hold, hstrip, Option.getD_some, hplace]
  constructor
  · rintro ⟨c, -, hc, hs⟩
    rwa [Int.ofNat_inj.1 hc] at hs
  · exact fun hs => ⟨cell, hcell, rfl, hs⟩

end Simulation

namespace Automaton

open Simulation

variable {a : Automaton} {initial : Strip} {steps i j n m time cell : Nat}
  {strips before after : Array Strip} {u v w : Trial}

/-- What is read places nothing in the same step but at the cell itself. -/
lemma isLocal_of_readInto {lexicon after : Lexicon} {text : String} {listing : Listing Signal}
    (h : RuleText.readInto lexicon text = (after, .ok listing)) :
    ∀ rule ∈ listing.rules, ∀ o ∈ rule.outputs, o.IsLocal := by
  rcases hread : RuleText.read text with ⟨mentioned, error | named⟩
  · simp [RuleText.readInto, Lexicon.take, hread, Except.map] at h
  · rw [RuleText.readInto, Lexicon.take, hread] at h
    cases h
    obtain ⟨hmade, -⟩ := RuleText.madeOf_of_read hread
    refine List.forall_mem_map.2 fun r hr => ?_
    exact fun o ho => (((hmade r hr).1.toRegular.map _).outputs o ho).2

lemma isLocal_of_parse {text : String} (h : parse text = .ok a) :
    ∀ rule ∈ a.rules, ∀ o ∈ rule.outputs, o.IsLocal := fun rule hrule o ho =>
  ((regular_of_parse h rule hrule).outputs o ho).2

/-! ## Moments of a run -/

/-- Whether at a moment of a run all trials are done at a cell and at those that are scanned before
it. -/
def Scanned (a : Automaton) (initial : Strip) (steps n time cell : Nat) : Prop :=
  ∀ i v, (a.trials initial steps)[i]? = some v → v.UpTo time cell → i < n

lemma Scanned.not_upTo (h : a.Scanned initial steps n time cell) (hi : n ≤ i)
    (hv : (a.trials initial steps)[i]? = some v) : ¬ v.UpTo time cell := fun hupTo =>
  absurd (h i v hv hupTo) (Nat.not_lt_of_le hi)

/-- When a trial beyond a cell is at hand, the cell has been scanned. -/
lemma scanned_of_not_upTo (hu : (a.trials initial steps)[n]? = some u)
    (hbeyond : ¬ u.UpTo time cell) : a.Scanned initial steps n time cell := by
  intro i v hv hupTo
  by_contra hi
  -- Trials are in order, so one that comes later is beyond the cell as well.
  rcases (Nat.not_lt.1 hi).lt_or_eq with hlt | rfl
  · have horder := upTo_of_lt hu hv hlt
    unfold Trial.UpTo at hupTo hbeyond horder
    omega
  · rw [hu, Option.some.injEq] at hv
    exact hbeyond (hv ▸ hupTo)

/-- **The past stays the same** from one moment to another one. -/
lemma samePast_stripsAfter (hlocal : ∀ rule ∈ a.rules, ∀ o ∈ rule.outputs, o.IsLocal)
    (hscanned : a.Scanned initial steps n time cell) (hnm : n ≤ m)
    (hbefore : a.stripsAfter initial steps n = .ok before)
    (hafter : a.stripsAfter initial steps m = .ok after) : SamePast time cell before after := by
  refine stripsAfter_rel (SamePast.refl time cell) SamePast.trans hnm
    (fun i v hi hv before after h => ?_) hbefore hafter
  obtain ⟨-, -, hrule⟩ := mem_trials.1 (List.mem_of_getElem? hv)
  exact samePast_attempt (hlocal v.rule hrule) (hscanned.not_upTo hi hv) h

lemma extends_stripsAfter (hnm : n ≤ m) (hbefore : a.stripsAfter initial steps n = .ok before)
    (hafter : a.stripsAfter initial steps m = .ok after) : Extends 0 before after :=
  stripsAfter_rel (Extends.refl 0) Extends.trans hnm (fun _ _ _ _ => extends_attempt) hbefore hafter

lemma hasShape_stripsAfter (h : a.stripsAfter initial steps n = .ok strips) :
    HasShape strips steps initial.size := by
  have hinitial : a.stripsAfter initial steps 0 = .ok (initialStrips initial steps) := by
    rw [stripsAfter, List.take_zero]
    rfl
  -- Every trial keeps the shape.
  have hrel := stripsAfter_rel
    (R := fun before after =>
      HasShape before steps initial.size → HasShape after steps initial.size)
    (fun _ hshape => hshape) (fun h h' hshape => h' (h hshape)) (Nat.zero_le n)
    (fun _ _ _ _ _ _ h hshape => hshape.attempt h) hinitial h
  exact hrel (hasShape_initialStrips initial steps)

lemma hold_of_fires (hlocal : ∀ rule ∈ a.rules, ∀ o ∈ rule.outputs, o.IsLocal)
    (hv : (a.trials initial steps)[i]? = some v)
    (hstrips : a.stripsAfter initial steps i = .ok strips)
    (hfires : fires a.reach strips v.time v.cell v.rule = .ok true) {o : Output Signal}
    (ho : o ∈ v.rule.outputs) (hstep : o.step = 0) (hij : i < j)
    (hafter : a.stripsAfter initial steps j = .ok after) : Hold after v.time v.cell o.signal := by
  obtain ⟨htime, hcell, hrule⟩ := mem_trials.1 (List.mem_of_getElem? hv)
  have hoffset : o.offset = 0 := hlocal v.rule hrule o ho hstep
  have hnext : a.stripsAfter initial steps (i + 1) =
      .ok (placeAll v.time v.cell strips v.rule.outputs) := by
    rw [stripsAfter_succ hv hstrips, attempt, tryRule, hfires]
    rfl
  refine (extends_stripsAfter hij hnext hafter).hold _ _ _ ?_
  rw [hold_placeAll (hasShape_stripsAfter hstrips) htime.le hcell]
  exact Or.inr ⟨o, ho, by omega, by omega, rfl⟩

/-- The mark of a rule that has fired is seen by the trials after it.  Those before it see it only if
the cell held the signal already. -/
lemma exists_seen_of_fires (hlocal : ∀ rule ∈ a.rules, ∀ o ∈ rule.outputs, o.IsLocal)
    (hroom : Memory.holds initial.size = true) (hv : (a.trials initial steps)[i]? = some v)
    (hstrips : a.stripsAfter initial steps i = .ok strips)
    (hfires : fires a.reach strips v.time v.cell v.rule = .ok true) {o : Output Signal}
    (ho : o ∈ v.rule.outputs) (hstep : o.step = 0) (hw : (a.trials initial steps)[j]? = some w)
    (htime : w.time = v.time) {l : Literal Signal} (hl : l ∈ w.rule.condition.literals)
    (hplace : (w.cell : Int) + l.position = v.cell) :
    ∃ later seen, a.stripsAfter initial steps j = .ok later ∧
      shown a.reach later w l.position = .ok seen ∧
      (v.cell < w.cell ∨ w.cell = v.cell ∧ i < j → o.signal ∈ seen) ∧
      (w.cell < v.cell ∨ w.cell = v.cell ∧ j ≤ i → o.signal ∈ seen →
        Hold strips v.time v.cell o.signal) := by
  obtain ⟨-, hcell, -⟩ := mem_trials.1 (List.mem_of_getElem? hv)
  obtain ⟨hwtime, hwcell, hwrule⟩ := mem_trials.1 (List.mem_of_getElem? hw)
  obtain ⟨later, hlater⟩ := exists_stripsAfter a initial steps j
  obtain ⟨seen, hseen, hmem⟩ := exists_shown (hasShape_stripsAfter hlater) hroom hwrule hl
    hwtime.le hwcell hcell hplace
  refine ⟨later, seen, hlater, hseen, fun hafter => ?_, fun hbefore hs => ?_⟩
  · -- The trial is to the right, or at the cell and later, so the mark is there.
    have hij : i < j := hafter.elim (lt_of_cell_lt hv hw htime.symm) (·.2)
    rw [hmem, htime]
    exact hold_of_fires hlocal hv hstrips hfires ho hstep hij hlater
  · -- The trial is before, and nothing that it sees is taken away until the rule fires.
    have hji : j ≤ i := hbefore.elim (fun hlt => (lt_of_cell_lt hw hv htime hlt).le) (·.2)
    rw [hmem, htime] at hs
    exact (extends_stripsAfter hji hlater hstrips).hold _ _ _ hs

/-- **The past of a run is settled.**  What is read places nothing in the same step but at the cell
itself.  So in a run of an automaton that was read, whatever the initial strip and the number of
steps, and at any moment when a cell of a time step has been scanned: wherever a later trial places
a signal, the strips of the time steps before, the cell, and those to the left of it stay the same,
and so they are at all later moments.

When a rule fires and places a signal in the same step, this signal is seen by every later rule at
the cell and at every cell to the right of it in this time step, if the condition looks at the cell.
What was seen there by the rules before and at the cells to the left was in the cell already.  That
the initial strip is one that memory has room for is true of every strip there is. -/
theorem simulate_past :
    (∀ (lexicon after : Lexicon) (text : String) (listing : Listing Signal),
      RuleText.readInto lexicon text = (after, .ok listing) →
      ∀ rule ∈ listing.rules, ∀ o ∈ rule.outputs, o.step = 0 → o.offset = 0) ∧
    ∀ (text : String) (a : Automaton), parse text = .ok a → ∀ (initial : Strip) (steps : Nat),
      a.simulate initial steps =
        (a.stripsAfter initial steps (a.trials initial steps).length).map Diagram.mk ∧
      (∀ n time cell, a.Scanned initial steps n time cell →
        (∀ i v, n ≤ i → (a.trials initial steps)[i]? = some v → ∀ o ∈ v.rule.outputs, ∀ strips,
          SamePast time cell strips
            (place strips (v.time + o.step) (v.cell + o.offset) o.signal)) ∧
        ∀ m, n ≤ m → ∃ before after, a.stripsAfter initial steps n = .ok before ∧
          a.stripsAfter initial steps m = .ok after ∧ SamePast time cell before after) ∧
      (Memory.holds initial.size = true → ∀ i v strips o,
        (a.trials initial steps)[i]? = some v → a.stripsAfter initial steps i = .ok strips →
        fires a.reach strips v.time v.cell v.rule = .ok true → o ∈ v.rule.outputs → o.step = 0 →
        ∀ j w l, (a.trials initial steps)[j]? = some w → w.time = v.time →
          l ∈ w.rule.condition.literals → (w.cell : Int) + l.position = v.cell →
          ∃ later seen, a.stripsAfter initial steps j = .ok later ∧
            shown a.reach later w l.position = .ok seen ∧
            (v.cell < w.cell ∨ w.cell = v.cell ∧ i < j → o.signal ∈ seen) ∧
            (w.cell < v.cell ∨ w.cell = v.cell ∧ j ≤ i → o.signal ∈ seen →
              Hold strips v.time v.cell o.signal)) := by
  refine ⟨fun lexicon after text listing h rule hrule o ho => isLocal_of_readInto h rule hrule o ho,
    fun text a hparse initial steps => ⟨simulate_eq_stripsAfter a initial steps, ?_, ?_⟩⟩
  · intro n time cell hscanned
    refine ⟨fun i v hi hv o ho strips => ?_, fun m hnm => ?_⟩
    · obtain ⟨-, -, hrule⟩ := mem_trials.1 (List.mem_of_getElem? hv)
      exact samePast_place (lands_beyond (isLocal_of_parse hparse v.rule hrule o ho)
        (hscanned.not_upTo hi hv)) strips o.signal
    · obtain ⟨before, hbefore⟩ := exists_stripsAfter a initial steps n
      obtain ⟨after, hafter⟩ := exists_stripsAfter a initial steps m
      exact ⟨before, after, hbefore, hafter,
        samePast_stripsAfter (isLocal_of_parse hparse) hscanned hnm hbefore hafter⟩
  · intro hroom i v strips o hv hstrips hfires ho hstep j w l hw htime hl hplace
    exact exists_seen_of_fires (isLocal_of_parse hparse) hroom hv hstrips hfires ho hstep hw htime
      hl hplace

/-- The rule `A: 0/0.B`. -/
def marks : Rule Signal := ⟨.literal ⟨⟨0⟩, 0, 0⟩, [⟨0, ⟨1⟩, 0⟩]⟩

/-- The rules `-1.B: 1/0.A` and `1.B: 1/0.A`, for the cell to the left or to the right. -/
def looks (position : Int) : Rule Signal := ⟨.literal ⟨⟨1⟩, position, 0⟩, [⟨0, ⟨0⟩, 1⟩]⟩

/-- The automaton of these three rules. -/
def looking : Automaton := ⟨.twoNames, [marks, looks (-1), looks 1]⟩

/-- A strip of three cells, of which the one in the middle holds `A`. -/
def middle : Strip := (Strip.empty 3).place 1 ⟨0⟩

/-- A cell that marks itself, a cell to the right of it that sees the mark, and one to the left of
it that does not.  When the cell has been scanned, six of nine trials are done. -/
theorem simulate_past_looking :
    (RuleText.readInto ∅ "A: 0/0.B\n-1.B: 1/0.A\n1.B: 1/0.A" =
        (looking.lexicon, .ok ⟨looking.rules, 1⟩) ∧
      ∀ rule ∈ looking.rules, ∀ o ∈ rule.outputs, o.step = 0 → o.offset = 0) ∧
    parse "A: 0/0.B\n-1.B: 1/0.A\n1.B: 1/0.A" = .ok looking ∧
    looking.simulate middle 1 = (looking.stripsAfter middle 1 9).map Diagram.mk ∧
    (looking.Scanned middle 1 6 0 1 ∧ ∃ before after,
      looking.stripsAfter middle 1 6 = .ok before ∧ looking.stripsAfter middle 1 9 = .ok after ∧
      SamePast 0 1 before after) ∧
    (Memory.holds middle.size = true ∧
      (looking.trials middle 1)[3]? = some ⟨0, 1, marks⟩ ∧
      looking.stripsAfter middle 1 3 = .ok (initialStrips middle 1) ∧
      fires looking.reach (initialStrips middle 1) 0 1 marks = .ok true ∧
      (looking.trials middle 1)[7]? = some ⟨0, 2, looks (-1)⟩ ∧
      (looking.trials middle 1)[2]? = some ⟨0, 0, looks 1⟩ ∧
      (∃ later seen, looking.stripsAfter middle 1 7 = .ok later ∧
        shown looking.reach later ⟨0, 2, looks (-1)⟩ (-1) = .ok seen ∧ ⟨1⟩ ∈ seen) ∧
      ∃ earlier seen, looking.stripsAfter middle 1 2 = .ok earlier ∧
        shown looking.reach earlier ⟨0, 0, looks 1⟩ 1 = .ok seen ∧
        (⟨1⟩ ∈ seen → Hold (initialStrips middle 1) 0 1 ⟨1⟩)) := by
  have hread : RuleText.readInto ∅ "A: 0/0.B\n-1.B: 1/0.A\n1.B: 1/0.A" =
      (looking.lexicon, .ok ⟨looking.rules, 1⟩) := by rfl
  have hparse : parse "A: 0/0.B\n-1.B: 1/0.A\n1.B: 1/0.A" = .ok looking := by rfl
  have hlate : (looking.trials middle 1)[6]? = some ⟨0, 2, marks⟩ := by rfl
  have hscanned : looking.Scanned middle 1 6 0 1 :=
    scanned_of_not_upTo hlate (by simp [Trial.UpTo])
  have hroom : Memory.holds middle.size = true := by decide
  have hmark : (looking.trials middle 1)[3]? = some ⟨0, 1, marks⟩ := by rfl
  have hstrips : looking.stripsAfter middle 1 3 = .ok (initialStrips middle 1) := by rfl
  have hfires : fires looking.reach (initialStrips middle 1) 0 1 marks = .ok true := by rfl
  have hright : (looking.trials middle 1)[7]? = some ⟨0, 2, looks (-1)⟩ := by rfl
  have hleft : (looking.trials middle 1)[2]? = some ⟨0, 0, looks 1⟩ := by rfl
  obtain ⟨hlocal, hruns⟩ := simulate_past
  obtain ⟨hdiagram, hmoments, hsees⟩ := hruns _ _ hparse middle 1
  have hmarks := hsees hroom 3 ⟨0, 1, marks⟩ _ ⟨0, ⟨1⟩, 0⟩ hmark hstrips hfires
    (List.mem_singleton_self _) rfl
  obtain ⟨later, seen, hlater, hseen, hnew, -⟩ := hmarks 7 ⟨0, 2, looks (-1)⟩ ⟨⟨1⟩, -1, 0⟩
    hright rfl (List.mem_singleton_self _) (by decide)
  obtain ⟨earlier, old, hearlier, hold, -, hbefore⟩ := hmarks 2 ⟨0, 0, looks 1⟩ ⟨⟨1⟩, 1, 0⟩
    hleft rfl (List.mem_singleton_self _) (by decide)
  exact ⟨⟨hread, hlocal _ _ _ _ hread⟩, hparse, hdiagram,
    ⟨hscanned, (hmoments 6 0 1 hscanned).2 9 (by decide)⟩, hroom, hmark, hstrips, hfires, hright,
    hleft, ⟨later, seen, hlater, hseen, hnew (Or.inl (by decide))⟩,
    ⟨earlier, old, hearlier, hold, hbefore (Or.inl (by decide))⟩⟩

end Automaton
end StripAutomata
