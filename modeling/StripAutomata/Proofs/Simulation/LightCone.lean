import Mathlib.Data.Int.ConditionallyCompleteOrder
import Mathlib.Order.Interval.Set.Basic
import Mathlib.Tactic.Linarith
import Mathlib.Tactic.Ring
import StripAutomata.Proofs.Simulation.Run

/-!
# How far a run carries information

Which cells of the initial strip have a say in whether a rule fires?  Those that the condition looks
at, if it is step zero, and those that have a say in the firing of the rules that placed something
where it looks.  Sets of cells, one for each visit, that are closed under this are cones
(`Automaton.IsCone`), and initial strips that agree on the cone of a visit make the rule fire alike
(`IsCone.fires_congr`).

There are two families of cones, and what is left to do for either is arithmetic with the reach of
the automaton.  In the one, a cone has no end to the left, but to the right it grows by the span of
the reach with each time step (`isCone_leftOf`): within a step information goes any distance to the
right, since what is placed in a cell is seen by all cells that are scanned later, but to the left
it gets no farther than one rule looks and places.  In the other, no output is of the same step, and
cones grow by the span in both directions (`isCone_around`).  `simulate_light_cone` says what this
means for the cells of a diagram.
-/

namespace StripAutomata

/-- How far apart the least and the greatest offset of a reach are. -/
def Reach.span (reach : Reach) : Int := reach.greatest - reach.least

/-- Whether two strips hold the same in the cells that a set of places has. -/
def Strip.AgreesOn (left right : Strip) (places : Set Int) : Prop :=
  ∀ cell : Nat, (cell : Int) ∈ places → left.cellOrEmpty cell = right.cellOrEmpty cell

lemma Strip.AgreesOn.mono {left right : Strip} {places fewer : Set Int}
    (h : left.AgreesOn right places) (hsubset : fewer ⊆ places) : left.AgreesOn right fewer :=
  fun cell hcell => h cell (hsubset hcell)

namespace Automaton

variable {a : Automaton} {left right : Strip} {u v : Visit} {cell : Nat}

/-! ## The reach of a visit -/

/-- Whether a cell is in the reach of the cell of a visit. -/
def InReach (a : Automaton) (v : Visit) (cell : Nat) : Prop :=
  v.cell + a.reach.least ≤ cell ∧ (cell : Int) ≤ v.cell + a.reach.greatest

lemma reach_least_nonpos (a : Automaton) : a.reach.least ≤ 0 :=
  (reach_least a).2 0 (List.mem_cons_self ..)

lemma reach_greatest_nonneg (a : Automaton) : 0 ≤ a.reach.greatest :=
  (reach_greatest a).2 0 (List.mem_cons_self ..)

lemma span_nonneg (a : Automaton) : 0 ≤ a.reach.span := by
  have hleast := reach_least_nonpos a
  have hgreatest := reach_greatest_nonneg a
  unfold Reach.span
  omega

lemma inReach_of_mem_offsets {offset : Int} (h : offset ∈ a.offsets)
    (hcell : (cell : Int) = v.cell + offset) : a.InReach v cell := by
  have hleast := (reach_least a).2 offset (List.mem_cons_of_mem 0 h)
  have hgreatest := (reach_greatest a).2 offset (List.mem_cons_of_mem 0 h)
  constructor
  · omega
  · omega

lemma Places.inReach {time : Nat} {s : Signal} (h : a.Places v time cell s) : a.InReach v cell := by
  obtain ⟨rule, hrule, o, ho, -, hcell, -⟩ := h
  have hoffset : o.offset ∈ a.offsets :=
    List.mem_flatMap.2 ⟨rule, List.mem_of_getElem? hrule,
      List.mem_append_right _ (List.mem_map_of_mem ho)⟩
  exact inReach_of_mem_offsets hoffset hcell.symm

/-- A rule looks at cells in its reach, and only what they hold matters for whether it can fire. -/
lemma canFire_congr_inReach {width : Nat} {p q : Nat → Signal → Prop}
    (h : ∀ cell < width, a.InReach v cell → ∀ s, p cell s ↔ q cell s) :
    a.CanFire width p v ↔ a.CanFire width q v := by
  refine exists_congr fun rule => and_congr_right fun hrule => ?_
  refine Formula.holds_congr fun l hl => exists_congr fun cell => ?_
  refine and_congr_right fun hlt => and_congr_right fun hcell => ?_
  have hoffset := mem_offsets_of_mem_literals (List.mem_of_getElem? hrule) hl
  exact h cell hlt (inReach_of_mem_offsets hoffset hcell) l.signal

/-! ## Cones -/

/-- Whether sets of places, one for each visit, have all cells of the initial strip that a visit
depends on. -/
structure IsCone (a : Automaton) (cone : Visit → Set Int) : Prop where
  seeds : ∀ v cell, v.time = 0 → a.InReach v cell → (cell : Int) ∈ cone v
  earlier : ∀ u v cell s, u.Before v → a.Places u v.time cell s → a.InReach v cell →
    cone u ⊆ cone v

variable {cone : Visit → Set Int}

/-- **A rule fires or not by what the initial strip holds in its cone.** -/
theorem IsCone.fires_congr (hcone : a.IsCone cone) (hsize : left.size = right.size)
    (h : left.AgreesOn right (cone v)) : a.Fires left v ↔ a.Fires right v := by
  -- What was placed before a visit was placed by visits whose cones are part of its cone.
  induction v using Visit.wellFounded_before.induction with
  | _ v ih =>
    rw [fires_iff, fires_iff, hsize]
    refine and_congr_right fun _ => canFire_congr_inReach fun cell _ hreach s => ?_
    refine or_congr (and_congr_right fun hzero => ?_) (exists_congr fun u => ?_)
    · rw [h cell (hcone.seeds v cell hzero hreach)]
    · refine and_congr_right fun hbefore => and_congr_left fun hplaces => ?_
      exact ih u hbefore (h.mono (hcone.earlier u v cell s hbefore hplaces hreach))

/-- A cell of a diagram holds what the cell of the initial strip and the cones of the rules that
place something there make it hold. -/
lemma IsCone.signalsAt_congr (hcone : a.IsCone cone) (hroom : Memory.holds left.size = true)
    (hsize : left.size = right.size) {steps time : Nat} {d e : Diagram}
    (hd : a.simulate left steps = .ok d) (he : a.simulate right steps = .ok e)
    (htime : time ≤ steps) (hcell : cell < left.size)
    (hseed : time = 0 → left.cellOrEmpty cell = right.cellOrEmpty cell)
    (hplaces : ∀ v s, a.Places v time cell s → left.AgreesOn right (cone v)) :
    d.signalsAt time cell = e.signalsAt time cell := by
  obtain ⟨d', hd', -, hleft⟩ := exists_simulate a hroom steps
  obtain ⟨e', he', -, hright⟩ := exists_simulate a (hsize ▸ hroom) steps
  obtain rfl : d' = d := Except.ok.inj (hd'.symm.trans hd)
  obtain rfl : e' = e := Except.ok.inj (he'.symm.trans he)
  refine SignalSet.ext fun s => ?_
  rw [hleft time htime cell hcell s, hright time htime cell (hsize ▸ hcell) s]
  refine or_congr (and_congr_right fun hzero => ?_) (exists_congr fun v => ?_)
  · rw [hseed hzero]
  · exact and_congr_right fun _ => and_congr_left fun hs =>
      hcone.fires_congr hsize (hplaces v s hs)

/-! ## Cones that are open to the left -/

/-- The places up to the right end of what a visit depends on. -/
def leftOf (a : Automaton) (v : Visit) : Set Int :=
  Set.Iic (v.cell + v.time * a.reach.span + a.reach.greatest)

lemma succ_mul_span_le (a : Automaton) {t t' : Nat} (h : t < t') :
    t * a.reach.span + a.reach.span ≤ t' * a.reach.span := by
  have hsucc : ((t : Int) + 1) * a.reach.span ≤ t' * a.reach.span :=
    mul_le_mul_of_nonneg_right (by omega) (span_nonneg a)
  linarith [add_mul (t : Int) 1 a.reach.span]

lemma isCone_leftOf (a : Automaton) : a.IsCone a.leftOf where
  seeds := by
    intro v cell hzero hreach
    have hright := hreach.2
    simp only [leftOf, hzero, Set.mem_Iic]
    omega
  earlier := by
    intro u v cell s hbefore hplaces hreach
    refine Set.Iic_subset_Iic.2 ?_
    rcases hbefore with hearlier | ⟨hsame, hcells⟩
    · -- The cell of `u` is to the right of that of `v` by no more than the span.
      have hfrom := hplaces.inReach.1
      have hto := hreach.2
      have hspan := succ_mul_span_le a hearlier
      unfold Reach.span at *
      linarith
    · -- In the same step a visit before another one is not to the right of it.
      have hle : u.cell ≤ v.cell := by omega
      rw [hsame]
      omega

/-- The cones of the rules that place something in a cell reach no farther to the right of it than
the span, once for each time step and once more. -/
lemma leftOf_subset {time : Nat} {s : Signal} (h : a.Places v time cell s) :
    a.leftOf v ⊆ Set.Iic ((cell : Int) + (time + 1) * a.reach.span) := by
  refine Set.Iic_subset_Iic.2 ?_
  have hfrom := h.inReach.1
  have hsteps : v.time * a.reach.span ≤ time * a.reach.span :=
    mul_le_mul_of_nonneg_right (Int.ofNat_le.2 h.time_le) (span_nonneg a)
  have hlast : ((time : Int) + 1) * a.reach.span =
      time * a.reach.span + (a.reach.greatest - a.reach.least) := by
    rw [add_mul, one_mul, Reach.span]
  omega

/-! ## Cones without outputs of the same step -/

/-- The places between the ends of what a visit depends on, if no output is of the same step. -/
def around (a : Automaton) (v : Visit) : Set Int :=
  Set.Icc (v.cell - v.time * a.reach.span + a.reach.least)
    (v.cell + v.time * a.reach.span + a.reach.greatest)

lemma Places.time_lt (h : ∀ o ∈ a.outputs, o.step ≠ 0) {time : Nat} {s : Signal}
    (hplaces : a.Places v time cell s) : v.time < time := by
  obtain ⟨rule, hrule, o, ho, htime, -⟩ := hplaces
  have hstep : o.step ≠ 0 := h o (List.mem_flatMap.2 ⟨rule, List.mem_of_getElem? hrule, ho⟩)
  omega

lemma isCone_around (h : ∀ o ∈ a.outputs, o.step ≠ 0) : a.IsCone a.around where
  seeds := by
    intro v cell hzero hreach
    obtain ⟨hleft, hright⟩ := hreach
    simp only [around, hzero, Set.mem_Icc]
    omega
  earlier := by
    intro u v cell s _ hplaces hreach
    have hspan := succ_mul_span_le a (hplaces.time_lt h)
    obtain ⟨hleft, hright⟩ := hreach
    obtain ⟨hleft', hright'⟩ := hplaces.inReach
    unfold Reach.span at hspan
    refine Set.Icc_subset_Icc ?_ ?_
    · unfold Reach.span
      linarith
    · unfold Reach.span
      linarith

/-- The cones of the rules that place something in a cell reach no farther to either side of it than
the span, once for each time step. -/
lemma around_subset (h : ∀ o ∈ a.outputs, o.step ≠ 0) {time : Nat} {s : Signal}
    (hplaces : a.Places v time cell s) :
    a.around v ⊆ Set.Icc ((cell : Int) - time * a.reach.span) (cell + time * a.reach.span) := by
  obtain ⟨hleft, hright⟩ := hplaces.inReach
  have hspan := succ_mul_span_le a (hplaces.time_lt h)
  have hwidth : a.reach.span = a.reach.greatest - a.reach.least := rfl
  refine Set.Icc_subset_Icc ?_ ?_
  · omega
  · omega

/-! ## Signals that run to the right -/

/-- The automaton of the rule `-1.A: 0/0.A`, which hands a signal on to the right at once. -/
def spreading : Automaton :=
  ⟨(∅ : Lexicon).insert "A", [⟨.literal ⟨⟨0⟩, -1, 0⟩, [⟨0, ⟨0⟩, 0⟩]⟩]⟩

lemma places_spreading {time : Nat} :
    spreading.Places ⟨time, cell, 0⟩ time cell ⟨0⟩ :=
  ⟨_, rfl, _, List.mem_singleton_self _, rfl, by simp, rfl⟩

lemma canFire_spreading {width : Nat} {contents : Nat → Signal → Prop} {time : Nat} :
    spreading.CanFire width contents ⟨time, cell, 0⟩ ↔
      ∃ before < width, (before : Int) = cell + -1 ∧ contents before ⟨0⟩ := by
  simp [CanFire, spreading, Formula.Holds]

/-- A strip with a signal in its first cell. -/
def seeded (width : Nat) : Strip := (Strip.empty width).place 0 ⟨0⟩

lemma size_seeded (width : Nat) : (seeded width).size = width := by
  rw [seeded, Strip.size_place, Strip.size_empty]

/-- Strips with and without a signal in the first cell hold the same in all others. -/
lemma agreesOn_seeded (width : Nat) : (seeded width).AgreesOn (.empty width) (Set.Ici 1) := by
  intro cell hcell
  have hne : 0 ≠ cell := by
    have hle : (1 : Int) ≤ cell := hcell
    omega
  rw [Strip.cellOrEmpty, seeded, Strip.cell?_place, if_neg hne, Strip.cellOrEmpty]

lemma mem_seeded {width : Nat} {s : Signal} (h : cell < width) :
    s ∈ (seeded width).cellOrEmpty cell ↔ cell = 0 ∧ s = ⟨0⟩ := by
  have hcell : cell < (Strip.empty width).size := by rwa [Strip.size_empty]
  rw [seeded, Strip.mem_cellOrEmpty_place hcell]
  have hnone := Simulation.not_mem_cellOrEmpty_empty width cell s
  rw [or_iff_right hnone, eq_comm (a := 0), eq_comm (b := s)]

/-- The signal is handed on to all cells in the first step. -/
lemma fires_spreading {width : Nat} (h : cell + 1 < width) :
    spreading.Fires (seeded width) ⟨0, cell + 1, 0⟩ := by
  induction cell with
  | zero =>
    rw [fires_iff, size_seeded, canFire_spreading]
    refine ⟨h, 0, by omega, by omega, Or.inl ⟨rfl, ?_⟩⟩
    exact (mem_seeded (by omega)).2 ⟨rfl, rfl⟩
  | succ cell ih =>
    -- The cell to the left holds the signal because the rule has fired there just before.
    rw [fires_iff, size_seeded, canFire_spreading]
    refine ⟨h, cell + 1, by omega, by omega, Or.inr ⟨⟨0, cell + 1, 0⟩, ?_, ?_, places_spreading⟩⟩
    · exact Or.inr ⟨rfl, Or.inl (Nat.lt_succ_self _)⟩
    · exact ih (by omega)

lemma not_fires_spreading {width : Nat} : ¬ spreading.Fires (.empty width) v := by
  induction v using Visit.wellFounded_before.induction with
  | _ v ih =>
    intro hfires
    obtain ⟨-, rule, hrule, hholds⟩ := fires_iff.1 hfires
    have hmem : rule ∈ spreading.rules := List.mem_of_getElem? hrule
    rw [List.mem_singleton.1 hmem] at hholds
    obtain ⟨before, -, -, ⟨-, hseed⟩ | ⟨u, hbefore, hu, -⟩⟩ := hholds
    · exact Simulation.not_mem_cellOrEmpty_empty width before _ hseed
    · exact ih u hbefore hu

/-- Whether there is a signal in the first cell shows in every cell at once. -/
lemma signalsAt_spreading (hroom : Memory.holds (cell + 1) = true) :
    ∃ d e, spreading.simulate (seeded (cell + 1)) 1 = .ok d ∧
      spreading.simulate (.empty (cell + 1)) 1 = .ok e ∧ d.signalsAt 0 cell ≠ e.signalsAt 0 cell := by
  have hseeded : Memory.holds (seeded (cell + 1)).size = true := by rwa [size_seeded]
  have hblank : Memory.holds (Strip.empty (cell + 1)).size = true := by rwa [Strip.size_empty]
  obtain ⟨d, hd, -, hleft⟩ := exists_simulate spreading hseeded 1
  obtain ⟨e, he, -, hright⟩ := exists_simulate spreading hblank 1
  rw [size_seeded] at hleft
  rw [Strip.size_empty] at hright
  have hheld : ⟨0⟩ ∈ d.signalsAt 0 cell := by
    rw [hleft 0 (by omega) cell (Nat.lt_succ_self cell)]
    -- The first cell holds the signal from the beginning; in every other one it is placed.
    rcases cell with _ | cell
    · exact Or.inl ⟨rfl, (mem_seeded (Nat.lt_succ_self 0)).2 ⟨rfl, rfl⟩⟩
    · exact Or.inr ⟨⟨0, cell + 1, 0⟩, Nat.one_pos, fires_spreading (Nat.lt_succ_self _),
        places_spreading⟩
  have hempty : ⟨0⟩ ∉ e.signalsAt 0 cell := by
    rw [hright 0 (by omega) cell (Nat.lt_succ_self cell)]
    rintro (⟨-, hseed⟩ | ⟨v, -, hfires, -⟩)
    · exact Simulation.not_mem_cellOrEmpty_empty _ cell _ hseed
    · exact not_fires_spreading hfires
  refine ⟨d, e, hd, he, fun hsame => ?_⟩
  rw [hsame] at hheld
  exact hempty hheld

/-! ## The cells of a diagram -/

/-- **The light cone of a cell.**  Of two runs of an automaton, from strips of one size, the
diagrams agree on a cell at a time step if the strips agree on all cells up to the span of the reach
to the right of it, once for each time step and once more.  If no output is of the same step, it is
enough that the strips agree on the cells that are no farther away than the span once for each time
step.  There is no strip that memory has no room for, so this leaves none out; of a longer one, the
number of a cell would not fit the signed number that offsets count from (`Neighborhood.origin`).

To the left there is no such bound for the first of these: there are rules with a span of one whose
runs, already at step zero, show in every cell whether there is a signal in the first one. -/
theorem simulate_light_cone :
    (∀ (a : Automaton) (left right : Strip) (steps : Nat), Memory.holds left.size = true →
      left.size = right.size →
      ∃ d e, a.simulate left steps = .ok d ∧ a.simulate right steps = .ok e ∧
        ∀ t ≤ steps, ∀ c < left.size,
          (left.AgreesOn right (Set.Iic ((c : Int) + (t + 1) * a.reach.span)) →
            d.signalsAt t c = e.signalsAt t c) ∧
          ((∀ o ∈ a.outputs, o.step ≠ 0) →
            left.AgreesOn right
              (Set.Icc ((c : Int) - t * a.reach.span) (c + t * a.reach.span)) →
            d.signalsAt t c = e.signalsAt t c)) ∧
    ∃ text a, parse text = .ok a ∧ a.reach.span = 1 ∧
      ∀ c, Memory.holds (c + 1) = true → ∃ left right : Strip, left.size = c + 1 ∧
        right.size = c + 1 ∧ left.AgreesOn right (Set.Ici 1) ∧
        ∃ d e, a.simulate left 1 = .ok d ∧ a.simulate right 1 = .ok e ∧
          d.signalsAt 0 c ≠ e.signalsAt 0 c := by
  refine ⟨fun a left right steps hroom hsize => ?_, ?_⟩
  · obtain ⟨d, hd, -⟩ := exists_simulate a hroom steps
    obtain ⟨e, he, -⟩ := exists_simulate a (hsize ▸ hroom) steps
    have hspan := span_nonneg a
    refine ⟨d, e, hd, he, fun t ht c hc => ⟨fun h => ?_, fun hsteps h => ?_⟩⟩
    · -- The cell is in its own cone, so at step zero the strips agree on it.
      refine (isCone_leftOf a).signalsAt_congr hroom hsize hd he ht hc (fun _ => h c ?_)
        fun v s hplaces => h.mono (leftOf_subset hplaces)
      have hright : 0 ≤ ((t : Int) + 1) * a.reach.span := mul_nonneg (by omega) hspan
      exact Set.mem_Iic.2 (by omega)
    · refine (isCone_around hsteps).signalsAt_congr hroom hsize hd he ht hc (fun _ => h c ?_)
        fun v s hplaces => h.mono (around_subset hsteps hplaces)
      have hside : 0 ≤ (t : Int) * a.reach.span := mul_nonneg (Int.natCast_nonneg t) hspan
      exact Set.mem_Icc.2 ⟨by omega, by omega⟩
  · refine ⟨"-1.A: 0/0.A", spreading, by rfl, by decide, fun c hroom => ?_⟩
    exact ⟨seeded (c + 1), .empty (c + 1), size_seeded _, Strip.size_empty _, agreesOn_seeded _,
      signalsAt_spreading hroom⟩

/-- The automaton of a rule that moves a signal to the left. -/
def leftward : Automaton := ⟨∅, [⟨.literal ⟨⟨0⟩, 1, 0⟩, [⟨0, ⟨0⟩, 1⟩]⟩]⟩

/-- What is in the last of five cells does not show in the second one after a step. -/
theorem simulate_light_cone_leftward :
    Memory.holds (seeded 5).size = true ∧ (seeded 5).size = ((seeded 5).place 4 ⟨0⟩).size ∧
    (seeded 5).AgreesOn ((seeded 5).place 4 ⟨0⟩)
      (Set.Iic (((1 : Nat) : Int) + ((1 : Nat) + 1) * leftward.reach.span)) ∧
    ∃ d e, leftward.simulate (seeded 5) 1 = .ok d ∧
      leftward.simulate ((seeded 5).place 4 ⟨0⟩) 1 = .ok e ∧ d.signalsAt 1 1 = e.signalsAt 1 1 := by
  have hroom : Memory.holds (seeded 5).size = true := by decide
  have hsize : (seeded 5).size = ((seeded 5).place 4 ⟨0⟩).size := (Strip.size_place _ _ _).symm
  have hagrees : (seeded 5).AgreesOn ((seeded 5).place 4 ⟨0⟩)
      (Set.Iic (((1 : Nat) : Int) + ((1 : Nat) + 1) * leftward.reach.span)) := by
    intro cell hcell
    have hspan : leftward.reach.span = 1 := by decide
    rw [Set.mem_Iic, hspan] at hcell
    have hne : 4 ≠ cell := by omega
    rw [Strip.cellOrEmpty, Strip.cellOrEmpty, Strip.cell?_place, if_neg hne]
  obtain ⟨d, e, hd, he, hcells⟩ := simulate_light_cone.1 leftward (seeded 5)
    ((seeded 5).place 4 ⟨0⟩) 1 hroom hsize
  exact ⟨hroom, hsize, hagrees, d, e, hd, he, (hcells 1 le_rfl 1 (by decide)).1 hagrees⟩

end Automaton
end StripAutomata
