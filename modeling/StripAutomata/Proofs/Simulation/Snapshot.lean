import StripAutomata.Proofs.Automaton.RoundTrip
import StripAutomata.Proofs.Simulation.Run

/-!
# Runs from left to right

When a rule is tried at a cell, the cells to the left of it are done for this time step: they hold
what they hold in the diagram in the end.  The cells to the right hold what was there before the
time step.  The cell itself holds that and what the rules before this one have placed in the same
step.  `Automaton.snapshot` is this view, given a diagram and which rules fired.

That the view is right rests on outputs of the same step staying at their cell.  The reader of rule
text sees to that, so for an automaton that was read the diagram of a run is described by the view
alone (`simulate_snapshot`): there is one way in which rules can have fired, each where its
condition holds of its snapshot, and the cells hold what was placed by them and nothing else.
-/

namespace StripAutomata.Automaton

/-! ## Snapshots -/

/-- What a cell holds when the rule of a visit is tried, for a diagram and the visits at which rules
fired. -/
def snapshot (a : Automaton) (initial : Strip) (d : Diagram) (fired : Visit → Prop) (v : Visit)
    (cell : Nat) (s : Signal) : Prop :=
  if cell < v.cell then s ∈ d.signalsAt v.time cell
  else
    (v.time = 0 ∧ s ∈ initial.cellOrEmpty cell) ∨
      (∃ u, u.time < v.time ∧ fired u ∧ a.Places u v.time cell s) ∨
      (cell = v.cell ∧ ∃ k < v.rule, fired ⟨v.time, v.cell, k⟩ ∧
        ∃ rule, a.rules[k]? = some rule ∧ ∃ o ∈ rule.outputs, o.step = 0 ∧ o.signal = s)

/-- Whether the visits of a run of some steps at which rules fired are those at which the condition
of the rule holds of the snapshot. -/
def IsFiring (a : Automaton) (initial : Strip) (steps : Nat) (d : Diagram) (fired : Visit → Prop) :
    Prop :=
  ∀ v, fired v ↔
    v.time < steps ∧ v.cell < initial.size ∧
      a.CanFire initial.size (a.snapshot initial d fired v) v

variable {a : Automaton} {initial : Strip} {steps : Nat} {d : Diagram}

/-- A snapshot depends only on the firings before the visit. -/
lemma snapshot_congr {fired other : Visit → Prop} {v : Visit}
    (h : ∀ u, u.Before v → (fired u ↔ other u)) (cell : Nat) (s : Signal) :
    a.snapshot initial d fired v cell s ↔ a.snapshot initial d other v cell s := by
  have hearlier : ∀ u : Visit, u.time < v.time → (fired u ↔ other u) := fun u hu => h u (Or.inl hu)
  have hhere : ∀ k < v.rule, (fired ⟨v.time, v.cell, k⟩ ↔ other ⟨v.time, v.cell, k⟩) :=
    fun k hk => h _ (Or.inr ⟨rfl, Or.inr ⟨rfl, hk⟩⟩)
  unfold snapshot
  by_cases hleft : cell < v.cell
  · rw [if_pos hleft, if_pos hleft]
  · rw [if_neg hleft, if_neg hleft]
    refine or_congr_right (or_congr ?_ (and_congr_right fun _ => ?_))
    · refine exists_congr fun u => and_congr_right fun hu => ?_
      rw [hearlier u hu]
    · refine exists_congr fun k => and_congr_right fun hk => ?_
      rw [hhere k hk]

/-- A diagram leaves one way only in which rules can have fired. -/
theorem isFiring_unique {fired other : Visit → Prop} (h : a.IsFiring initial steps d fired)
    (hother : a.IsFiring initial steps d other) : other = fired := by
  funext v
  refine propext ?_
  -- What fires at a visit is decided by the visits before it.
  induction v using Visit.wellFounded_before.induction with
  | _ v ih =>
    rw [h v, hother v]
    refine and_congr_right fun _ => and_congr_right fun _ => ?_
    exact canFire_congr fun cell _ s => snapshot_congr ih cell s

/-! ## Same-step outputs that stay at their cell -/

/-- Where outputs of the same step stay at their cell, a rule places nothing else in its step. -/
lemma places_same_step (hlocal : ∀ r ∈ a.rules, ∀ o ∈ r.outputs, o.IsLocal) {v : Visit}
    {cell : Nat} {s : Signal} :
    a.Places v v.time cell s ↔
      cell = v.cell ∧ ∃ rule, a.rules[v.rule]? = some rule ∧
        ∃ o ∈ rule.outputs, o.step = 0 ∧ o.signal = s := by
  constructor
  · rintro ⟨rule, hrule, o, ho, htime, hcell, hs⟩
    have hstep : o.step = 0 := by omega
    have hoffset : o.offset = 0 := hlocal rule (List.mem_of_getElem? hrule) o ho hstep
    exact ⟨by omega, rule, hrule, o, ho, hstep, hs⟩
  · rintro ⟨rfl, rule, hrule, o, ho, hstep, hs⟩
    have hoffset : o.offset = 0 := hlocal rule (List.mem_of_getElem? hrule) o ho hstep
    exact ⟨rule, hrule, o, ho, by omega, by omega, hs⟩

lemma snapshot_iff_heldBefore (hlocal : ∀ r ∈ a.rules, ∀ o ∈ r.outputs, o.IsLocal)
    (hd : ∀ time ≤ steps, ∀ cell < initial.size, ∀ s,
      s ∈ d.signalsAt time cell ↔ (time = 0 ∧ s ∈ initial.cellOrEmpty cell) ∨
        ∃ v, v.time < steps ∧ a.Fires initial v ∧ a.Places v time cell s)
    {v : Visit} (htime : v.time < steps) {cell : Nat} (hcell : cell < initial.size) (s : Signal) :
    a.snapshot initial d (fun u => u.time < steps ∧ a.Fires initial u) v cell s ↔
      a.HeldBefore initial v v.time cell s := by
  unfold snapshot HeldBefore
  by_cases hleft : cell < v.cell
  · -- To the left the cell is done: what the diagram holds there was placed before this visit.
    rw [if_pos hleft, hd v.time htime.le cell hcell s]
    refine or_congr_right (exists_congr fun u => ?_)
    constructor
    · rintro ⟨-, hfires, hplaces⟩
      refine ⟨?_, hfires, hplaces⟩
      rcases hplaces.time_le.lt_or_eq with hearlier | hsame
      · exact Or.inl hearlier
      · rw [← hsame] at hplaces
        obtain ⟨rfl, -⟩ := (places_same_step hlocal).1 hplaces
        exact Or.inr ⟨hsame, Or.inl hleft⟩
    · rintro ⟨hbefore, hfires, hplaces⟩
      exact ⟨hplaces.time_le.trans_lt htime, hfires, hplaces⟩
  · -- Here and to the right the diagram does not count, but what was placed in earlier steps does.
    rw [if_neg hleft]
    refine or_congr_right ⟨?_, ?_⟩
    · rintro (⟨u, hearlier, ⟨-, hfires⟩, hplaces⟩ | ⟨rfl, k, hk, ⟨-, hfires⟩, hrule⟩)
      · exact ⟨u, Or.inl hearlier, hfires, hplaces⟩
      · exact ⟨⟨v.time, v.cell, k⟩, Or.inr ⟨rfl, Or.inr ⟨rfl, hk⟩⟩, hfires,
          (places_same_step hlocal (v := ⟨v.time, v.cell, k⟩)).2 ⟨rfl, hrule⟩⟩
    · rintro ⟨u, hbefore, hfires, hplaces⟩
      rcases hbefore with hearlier | ⟨hsame, hbefore⟩
      · exact Or.inl ⟨u, hearlier, ⟨hearlier.trans htime, hfires⟩, hplaces⟩
      · rw [← hsame] at hplaces
        obtain ⟨rfl, hrule⟩ := (places_same_step hlocal).1 hplaces
        -- What was placed to the left in this step is not seen here.
        obtain ⟨hcells, hk⟩ := hbefore.resolve_left hleft
        refine Or.inr ⟨hcells, u.rule, hk, ⟨htime, ?_⟩, hrule⟩
        rw [← hsame, ← hcells]
        exact hfires

lemma isFiring_fires (hlocal : ∀ r ∈ a.rules, ∀ o ∈ r.outputs, o.IsLocal)
    (hd : ∀ time ≤ steps, ∀ cell < initial.size, ∀ s,
      s ∈ d.signalsAt time cell ↔ (time = 0 ∧ s ∈ initial.cellOrEmpty cell) ∨
        ∃ v, v.time < steps ∧ a.Fires initial v ∧ a.Places v time cell s) :
    a.IsFiring initial steps d fun v => v.time < steps ∧ a.Fires initial v := by
  intro v
  refine and_congr_right fun htime => ?_
  rw [fires_iff]
  refine and_congr_right fun _ => canFire_congr fun cell hcell s => ?_
  exact (snapshot_iff_heldBefore hlocal hd htime hcell s).symm

/-- **Runs go from left to right.**  For an automaton that was read, a run of some steps gives a
diagram of one strip more, all of the size of the initial one.  There is one way in which rules
fired: each where its condition holds of its snapshot.  And a cell of the diagram holds what the
initial strip holds there and what the outputs of the rules that fired place there, and nothing
else.  That the initial strip is one that memory has room for is true of every strip there is. -/
theorem simulate_snapshot {text : String} (hparse : parse text = .ok a)
    (hroom : Memory.holds initial.size = true) (steps : Nat) :
    ∃ d, a.simulate initial steps = .ok d ∧ d.size = steps + 1 ∧
      (∀ strip ∈ d.strips, strip.size = initial.size) ∧
      ∃ fired, a.IsFiring initial steps d fired ∧
        (∀ other, a.IsFiring initial steps d other → other = fired) ∧
        ∀ time ≤ steps, ∀ cell < initial.size, ∀ s,
          s ∈ d.signalsAt time cell ↔ (time = 0 ∧ s ∈ initial.cellOrEmpty cell) ∨
            ∃ v, fired v ∧ a.Places v time cell s := by
  have hlocal : ∀ r ∈ a.rules, ∀ o ∈ r.outputs, o.IsLocal := fun r hr o ho =>
    ((regular_of_parse hparse r hr).outputs o ho).2
  obtain ⟨d, hd, hshape, hcontents⟩ := exists_simulate a hroom steps
  have hfiring := isFiring_fires hlocal hcontents
  have hunique : ∀ other, a.IsFiring initial steps d other →
      other = fun v => v.time < steps ∧ a.Fires initial v := by
    intro other hother
    exact isFiring_unique hfiring hother
  refine ⟨d, hd, hshape.length, fun strip hstrip => hshape.size_of_mem hstrip, _, hfiring, hunique,
    fun time htime cell hcell s => ?_⟩
  rw [hcontents time htime cell hcell s]
  simp only [and_assoc]

/-- The automaton of the rule `A: 0/0.B 1/1.A`. -/
def moving : Automaton :=
  ⟨.twoNames, [⟨.literal ⟨⟨0⟩, 0, 0⟩, [⟨0, ⟨1⟩, 0⟩, ⟨1, ⟨0⟩, 1⟩]⟩]⟩

/-- A strip of three cells, of which the first one holds `A`. -/
def threeCells : Strip := (Strip.empty 3).place 0 ⟨0⟩

/-- Two steps of an automaton that moves a signal to the right and marks the cells on the way. -/
theorem simulate_snapshot_moving :
    parse "A: 0/0.B 1/1.A" = .ok moving ∧ Memory.holds threeCells.size = true ∧
    ∃ d, moving.simulate threeCells 2 = .ok d ∧ d.size = 3 ∧
      (∀ strip ∈ d.strips, strip.size = threeCells.size) ∧
      ∃ fired, moving.IsFiring threeCells 2 d fired ∧
        (∀ other, moving.IsFiring threeCells 2 d other → other = fired) ∧
        ∀ time ≤ 2, ∀ cell < threeCells.size, ∀ s,
          s ∈ d.signalsAt time cell ↔ (time = 0 ∧ s ∈ threeCells.cellOrEmpty cell) ∨
            ∃ v, fired v ∧ moving.Places v time cell s := by
  have hparse : parse "A: 0/0.B 1/1.A" = .ok moving := by rfl
  have hroom : Memory.holds threeCells.size = true := by decide
  exact ⟨hparse, hroom, simulate_snapshot hparse hroom 2⟩

end StripAutomata.Automaton
