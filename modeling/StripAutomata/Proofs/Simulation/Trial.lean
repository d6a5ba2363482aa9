import Mathlib.Data.List.Flatten
import StripAutomata.Proofs.Simulation.Horizon

/-!
# Runs as one loop

A run goes through the time steps, at each of them through the cells, and at each cell through the
rules.  What it does in the innermost loop is a `Trial`, and the three loops are one loop over the
list of all trials (`simulate_eq_trials`).  In this list the time steps come one after the other,
and at a time step the cells from left to right (`pairwise_trials`).

A moment of a run is then a number of trials that are done, and `Automaton.stripsAfter` has the
strips at that moment.  There are strips at every moment (`exists_stripsAfter`), and what the trials
between two moments bring about one by one, they bring about together (`stripsAfter_rel`).
-/

namespace StripAutomata

/-- The trying of a rule at a time step and a cell. -/
structure Trial where
  time : Nat
  cell : Nat
  rule : Rule Signal

/-- Whether a trial is at a cell, or at one that is scanned before it. -/
def Trial.UpTo (v : Trial) (time cell : Nat) : Prop :=
  v.time < time ∨ v.time = time ∧ v.cell ≤ cell

/-- What a trial makes of the strips. -/
def Simulation.attempt (reach : Reach) (strips : Array Strip) (v : Trial) :
    Except OutsideWindow (Array Strip) :=
  tryRule reach v.time v.cell strips v.rule

namespace Automaton

open Simulation

/-- The trials of a run of some steps from an initial strip, in order. -/
def trials (a : Automaton) (initial : Strip) (steps : Nat) : List Trial :=
  (List.range steps).flatMap fun time => (List.range initial.size).flatMap fun cell =>
    a.rules.map (Trial.mk time cell)

variable {a b : Automaton} {initial other : Strip} {steps i j : Nat} {u v : Trial}
  {strips : Array Strip}

lemma mem_trials :
    v ∈ a.trials initial steps ↔ v.time < steps ∧ v.cell < initial.size ∧ v.rule ∈ a.rules := by
  simp only [trials, List.mem_flatMap, List.mem_range, List.mem_map]
  constructor
  · rintro ⟨time, htime, cell, hcell, rule, hrule, rfl⟩
    exact ⟨htime, hcell, hrule⟩
  · rintro ⟨htime, hcell, hrule⟩
    exact ⟨v.time, htime, v.cell, hcell, v.rule, hrule, rfl⟩

/-- Time steps come one after the other, and at each of them the cells from left to right. -/
lemma pairwise_trials (a : Automaton) (initial : Strip) (steps : Nat) :
    (a.trials initial steps).Pairwise fun u v => u.UpTo v.time v.cell := by
  have hcells : ∀ time, ((List.range initial.size).flatMap fun cell =>
      a.rules.map (Trial.mk time cell)).Pairwise fun u v => u.UpTo v.time v.cell := by
    intro time
    refine List.pairwise_flatMap.2 ⟨fun cell _ => ?_, List.pairwise_lt_range.imp ?_⟩
    · exact List.pairwise_map.2 (List.pairwise_of_forall fun _ _ => Or.inr ⟨rfl, le_rfl⟩)
    · intro cell later hlt u hu v hv
      obtain ⟨r, -, rfl⟩ := List.mem_map.1 hu
      obtain ⟨q, -, rfl⟩ := List.mem_map.1 hv
      exact Or.inr ⟨rfl, hlt.le⟩
  -- Trials of one time step are ordered by their cells, and the time steps come in order.
  refine List.pairwise_flatMap.2 ⟨fun time _ => hcells time, List.pairwise_lt_range.imp ?_⟩
  intro time later hlt u hu v hv
  obtain ⟨c, -, hu⟩ := List.mem_flatMap.1 hu
  obtain ⟨d, -, hv⟩ := List.mem_flatMap.1 hv
  obtain ⟨r, -, rfl⟩ := List.mem_map.1 hu
  obtain ⟨q, -, rfl⟩ := List.mem_map.1 hv
  exact Or.inl hlt

lemma upTo_of_lt (hu : (a.trials initial steps)[i]? = some u)
    (hv : (a.trials initial steps)[j]? = some v) (h : i < j) : u.UpTo v.time v.cell := by
  obtain ⟨hi, rfl⟩ := List.getElem?_eq_some_iff.1 hu
  obtain ⟨hj, rfl⟩ := List.getElem?_eq_some_iff.1 hv
  exact List.pairwise_iff_getElem.1 (pairwise_trials a initial steps) i j hi hj h

lemma lt_of_cell_lt (hu : (a.trials initial steps)[i]? = some u)
    (hv : (a.trials initial steps)[j]? = some v) (htime : u.time = v.time)
    (hcell : u.cell < v.cell) : i < j := by
  rcases lt_trichotomy i j with hlt | rfl | hgt
  · exact hlt
  · rw [hu, Option.some.injEq] at hv
    rw [hv] at hcell
    exact absurd hcell (lt_irrefl _)
  · have hupTo := upTo_of_lt hv hu hgt
    unfold Trial.UpTo at hupTo
    omega

lemma trials_sublist (hrules : a.rules.Sublist b.rules) (hsize : initial.size = other.size)
    (steps : Nat) : (a.trials initial steps).Sublist (b.trials other steps) := by
  rw [trials, trials, hsize]
  exact List.Sublist.flatMap_right _ fun time _ =>
    List.Sublist.flatMap_right _ fun cell _ => hrules.map (Trial.mk time cell)

/-- The loops over time steps, cells and rules are one loop over the trials. -/
lemma foldlM_trials (a : Automaton) (initial : Strip) (steps : Nat) (strips : Array Strip) :
    (a.trials initial steps).foldlM (attempt a.reach) strips =
      (List.range steps).foldlM (scanStep a.reach a.rules initial.size) strips := by
  have hcell : ∀ time cell strips, (a.rules.map (Trial.mk time cell)).foldlM (attempt a.reach)
      strips = scanCell a.reach a.rules time strips cell :=
    fun time cell strips => List.foldlM_map
  have hstep : ∀ time strips, ((List.range initial.size).flatMap fun cell =>
      a.rules.map (Trial.mk time cell)).foldlM (attempt a.reach) strips =
        scanStep a.reach a.rules initial.size strips time := by
    intro time strips
    simp only [foldlM_flatMap, hcell]
    rfl
  -- Each loop of loops is one loop, from the rules at a cell outward.
  simp only [trials, foldlM_flatMap, hstep]

/-- **A run is one loop** over its trials. -/
theorem simulate_eq_trials (a : Automaton) (initial : Strip) (steps : Nat) :
    a.simulate initial steps =
      ((a.trials initial steps).foldlM (attempt a.reach) (initialStrips initial steps)).map
        Diagram.mk := by
  rw [simulate, foldlM_trials]
  rcases (List.range steps).foldlM (scanStep a.reach a.rules initial.size)
    (initialStrips initial steps) with error | strips <;> rfl

/-! ## Moments of a run -/

/-- The strips of a run when some first trials are done. -/
def stripsAfter (a : Automaton) (initial : Strip) (steps n : Nat) :
    Except OutsideWindow (Array Strip) :=
  ((a.trials initial steps).take n).foldlM (attempt a.reach) (initialStrips initial steps)

lemma attempt_total (hv : v ∈ a.trials initial steps) (strips : Array Strip) :
    ∃ after, attempt a.reach strips v = .ok after :=
  tryRule_total (mem_trials.1 hv).2.2 v.time v.cell strips

lemma exists_stripsAfter (a : Automaton) (initial : Strip) (steps n : Nat) :
    ∃ strips, a.stripsAfter initial steps n = .ok strips :=
  foldlM_total (fun _ hv strips => attempt_total (List.mem_of_mem_take hv) strips) _

/-- When all trials are done, the strips are those of the diagram. -/
lemma simulate_eq_stripsAfter (a : Automaton) (initial : Strip) (steps : Nat) :
    a.simulate initial steps =
      (a.stripsAfter initial steps (a.trials initial steps).length).map Diagram.mk := by
  rw [simulate_eq_trials, stripsAfter, List.take_length]

lemma stripsAfter_succ (hv : (a.trials initial steps)[i]? = some v)
    (h : a.stripsAfter initial steps i = .ok strips) :
    a.stripsAfter initial steps (i + 1) = attempt a.reach strips v := by
  rw [stripsAfter] at h
  rw [stripsAfter, List.take_add_one, hv, List.foldlM_append, h]
  show [v].foldlM (attempt a.reach) strips = attempt a.reach strips v
  rw [List.foldlM_cons]
  rcases attempt a.reach strips v with error | after <;> rfl

/-- What the trials between two moments bring about one by one, they bring about together. -/
lemma stripsAfter_rel {R : Array Strip → Array Strip → Prop} (hrefl : ∀ strips, R strips strips)
    (htrans : ∀ {first second third}, R first second → R second third → R first third)
    {n m : Nat} (hnm : n ≤ m)
    (step : ∀ i v, n ≤ i → (a.trials initial steps)[i]? = some v →
      ∀ {before after}, attempt a.reach before v = .ok after → R before after)
    {later : Array Strip} (h : a.stripsAfter initial steps n = .ok strips)
    (hlater : a.stripsAfter initial steps m = .ok later) : R strips later := by
  have hsplit : (a.trials initial steps).take m =
      (a.trials initial steps).take n ++ ((a.trials initial steps).take m).drop n := by
    have htake : ((a.trials initial steps).take m).take n = (a.trials initial steps).take n := by
      rw [List.take_take, min_eq_left hnm]
    rw [← htake, List.take_append_drop]
  rw [stripsAfter] at h
  rw [stripsAfter, hsplit, List.foldlM_append, h] at hlater
  refine foldlM_rel hrefl htrans (fun v hv before after hafter => ?_) hlater
  -- A trial between the moments stands at some place behind the first of them.
  obtain ⟨i, hi⟩ := List.mem_iff_getElem?.1 hv
  rw [List.getElem?_drop, List.getElem?_take] at hi
  split at hi
  · exact step (n + i) v (Nat.le_add_right n i) hi hafter
  · simp at hi

end Automaton
end StripAutomata
