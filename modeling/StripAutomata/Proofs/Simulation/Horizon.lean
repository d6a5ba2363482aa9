import StripAutomata.Proofs.Simulation.Excerpt
import StripAutomata.Proofs.Simulation.Totality

/-!
# The horizon of a run

A run of `n` steps drops what is placed after step `n`, where a longer run has strips to take it.
This makes no difference to the steps before `n`: the strips of the shorter run are at any time the
first `n + 1` strips of the longer one (`foldlM_scanStep_take`).  What the longer run does after its
first `n` steps leaves the strips before step `n` alone and only adds to the others (`Extends`), and
if no output is of the same step, it leaves the strip of step `n` alone, too.

From these two facts the diagrams are compared in `simulate_horizon`.
-/

namespace StripAutomata

namespace Simulation

variable {strips : Array Strip} {time cell k t : Nat} {s : Signal}

/-! ## Strips before a time step -/

lemma getElem?_take (strips : Array Strip) (k t : Nat) :
    (strips.take k)[t]? = if t < k then strips[t]? else none := by
  rw [Array.take_eq_extract, getElem?_extract, Nat.zero_add]

/-- **Strips past a horizon do not matter** for what is computed up to there: the loop over the time
steps before it does the same to the strips up to it, with or without the others. -/
lemma foldlM_scanStep_take (reach : Reach) (rules : List (Rule Signal)) (width n : Nat)
    (strips : Array Strip) :
    (List.range n).foldlM (scanStep reach rules width) (strips.take (n + 1)) =
      ((List.range n).foldlM (scanStep reach rules width) strips).map (·.take (n + 1)) := by
  have hexcerpt := foldlM_scanStep_extract reach rules width 0 (n + 1) n (by omega) strips
  have htimes : (List.range n).map (0 + ·) = List.range n := by simp
  rw [htimes] at hexcerpt
  exact hexcerpt

lemma initialStrips_take (initial : Strip) {n m : Nat} (h : n ≤ m) :
    (initialStrips initial m).take (n + 1) = initialStrips initial n := by
  refine Array.ext_getElem? fun t => ?_
  rw [getElem?_take]
  cases t with
  | zero => rw [if_pos (Nat.succ_pos n), getElem?_initialStrips_zero, getElem?_initialStrips_zero]
  | succ t =>
    rw [getElem?_initialStrips_succ, getElem?_initialStrips_succ]
    by_cases ht : t < n
    · rw [if_pos (by omega), if_pos (by omega), if_pos ht]
    · rw [if_neg (by omega), if_neg ht]

/-! ## Strips that are only added to -/

/-- Whether strips come from others by adding signals from a time step on. -/
structure Extends (k : Nat) (before after : Array Strip) : Prop where
  size : after.size = before.size
  rows : ∀ t < k, after[t]? = before[t]?
  hold : ∀ t cell s, Hold before t cell s → Hold after t cell s

lemma Extends.refl (k : Nat) (strips : Array Strip) : Extends k strips strips :=
  ⟨rfl, fun _ _ => rfl, fun _ _ _ h => h⟩

lemma Extends.trans {first second third : Array Strip} (h : Extends k first second)
    (h' : Extends k second third) : Extends k first third where
  size := h'.size.trans h.size
  rows := fun t ht => (h'.rows t ht).trans (h.rows t ht)
  hold := fun t cell s hs => h'.hold t cell s (h.hold t cell s hs)

lemma Hold.place {x : Signal} (h : Hold strips t cell x) (time : Nat) (target : Int) (s : Signal) :
    Hold (place strips time target s) t cell x := by
  cases target with
  | negSucc index => exact h
  | ofNat index =>
    unfold Hold Simulation.place at *
    rw [Array.getElem?_modify]
    by_cases htime : time = t
    · rw [if_pos htime]
      rcases hstrip : strips[t]? with _ | strip
      · rwa [hstrip] at h
      · rw [hstrip, Option.getD_some] at h
        rw [Option.map_some, Option.getD_some, Strip.mem_cellOrEmpty_place (Strip.lt_size_of_mem h)]
        exact Or.inl h
    · rwa [if_neg htime]

lemma extends_place (hk : k ≤ time) (target : Int) (s : Signal) :
    Extends k strips (place strips time target s) := by
  refine ⟨?_, fun t ht => getElem?_place_of_ne (by omega) target s,
    fun t cell x hx => hx.place time target s⟩
  cases target with
  | negSucc index => rfl
  | ofNat index => exact Array.size_modify

lemma extends_placeAll {outputs : List (Output Signal)} (hk : ∀ o ∈ outputs, k ≤ time + o.step)
    (cell : Nat) : Extends k strips (placeAll time cell strips outputs) := by
  induction outputs generalizing strips with
  | nil => exact Extends.refl k strips
  | cons o outputs ih =>
    obtain ⟨hfirst, hrest⟩ := List.forall_mem_cons.1 hk
    exact (extends_place hfirst (cell + o.offset) o.signal).trans (ih hrest)

lemma extends_foldlM_scanStep {reach : Reach} {rules : List (Rule Signal)} {width : Nat}
    {times : List Nat} {after : Array Strip}
    (hk : ∀ time ∈ times, ∀ rule ∈ rules, ∀ o ∈ rule.outputs, k ≤ time + o.step)
    (h : times.foldlM (scanStep reach rules width) strips = .ok after) : Extends k strips after :=
  foldlM_scanStep_rel (Extends.refl k) Extends.trans
    (fun time htime rule hrule cell _ => extends_placeAll (hk time htime rule hrule) cell) h

lemma mem_signalsAt_iff_hold :
    s ∈ (Diagram.mk strips).signalsAt t cell ↔ Hold strips t cell s := by
  unfold Diagram.signalsAt Diagram.strip? Hold
  rcases strips[t]? with _ | strip
  · have hnone : s ∉ (default : Strip).cellOrEmpty cell := not_mem_cellOrEmpty_empty 0 cell s
    exact ⟨fun h => absurd h (SignalSet.not_mem_empty s), fun h => absurd h hnone⟩
  · rfl

end Simulation

/-! ## Runs of different length -/

namespace Automaton

open Simulation

/-- A run of some steps, and a longer one that goes on from there: the strips that the longer one
has after these steps, and those that it has in the end. -/
lemma exists_simulate_further (a : Automaton) (initial : Strip) (n k : Nat) :
    ∃ between last,
      (List.range n).foldlM (scanStep a.reach a.rules initial.size)
        (initialStrips initial (n + k)) = .ok between ∧
      ((List.range k).map (n + ·)).foldlM (scanStep a.reach a.rules initial.size) between =
        .ok last ∧
      a.simulate initial n = .ok ⟨between.take (n + 1)⟩ ∧
      a.simulate initial (n + k) = .ok ⟨last⟩ := by
  obtain ⟨between, hbetween⟩ := foldlM_total (fun time (_ : time ∈ List.range n) strips =>
    scanStep_total a initial.size time strips) (initialStrips initial (n + k))
  obtain ⟨last, hlast⟩ := foldlM_total (fun time (_ : time ∈ (List.range k).map (n + ·)) strips =>
    scanStep_total a initial.size time strips) between
  refine ⟨between, last, hbetween, hlast, ?_, ?_⟩
  · have hshort := foldlM_scanStep_take a.reach a.rules initial.size n
      (initialStrips initial (n + k))
    -- The strips past the horizon of the shorter run do not matter for it.
    rw [initialStrips_take initial (Nat.le_add_right n k), hbetween] at hshort
    rw [simulate, hshort]
    rfl
  · rw [simulate, List.range_add, List.foldlM_append, hbetween]
    show (List.foldlM (scanStep a.reach a.rules initial.size) between _ >>= _) = _
    rw [hlast]
    rfl

/-- The diagrams of a run and of a longer one, which goes on from where the shorter one ends. -/
lemma exists_simulate_longer (a : Automaton) (initial : Strip) (n k : Nat) :
    ∃ between last, a.simulate initial n = .ok ⟨between.take (n + 1)⟩ ∧
      a.simulate initial (n + k) = .ok ⟨last⟩ ∧
      Extends 0 (initialStrips initial (n + k)) between ∧ Extends n between last ∧
      ((∀ o ∈ a.outputs, o.step ≠ 0) → Extends (n + 1) between last) := by
  obtain ⟨between, last, hbetween, hlast, hshort, hlong⟩ := exists_simulate_further a initial n k
  have hlater : ∀ time ∈ (List.range k).map (n + ·), n ≤ time :=
    List.forall_mem_map.2 fun i _ => Nat.le_add_right n i
  refine ⟨between, last, hshort, hlong, ?_, ?_, fun houtputs => ?_⟩
  · exact extends_foldlM_scanStep (fun time _ rule _ o _ => Nat.zero_le (time + o.step)) hbetween
  · refine extends_foldlM_scanStep (fun time htime rule _ o _ => ?_) hlast
    exact (hlater time htime).trans (Nat.le_add_right time o.step)
  · refine extends_foldlM_scanStep (fun time htime rule hrule o ho => ?_) hlast
    -- An output of a later step lands behind the last step of the shorter run.
    have hstep : o.step ≠ 0 := houtputs o (List.mem_flatMap.2 ⟨rule, hrule, ho⟩)
    have hle : n ≤ time := hlater time htime
    omega

/-- **The horizon of a run does not show before it.**  Of a run of `n` steps and a run of `m` steps,
`n ≤ m`, from the same strip, the diagrams have the same strips before step `n`.  At step `n` every
cell of the shorter diagram holds only what the cell of the longer one holds; and the strips are the
same there, too, if the runs are of the same length, or if no output is of the same step. -/
theorem simulate_horizon (a : Automaton) (initial : Strip) {n m : Nat} (h : n ≤ m) :
    ∃ d e, a.simulate initial n = .ok d ∧ a.simulate initial m = .ok e ∧
      d.size = n + 1 ∧ e.size = m + 1 ∧
      (∀ t < n, d.strip? t = e.strip? t) ∧
      (∀ cell s, s ∈ d.signalsAt n cell → s ∈ e.signalsAt n cell) ∧
      ((n = m ∨ ∀ o ∈ a.outputs, o.step ≠ 0) → d.strip? n = e.strip? n) := by
  obtain ⟨k, rfl⟩ := Nat.exists_eq_add_of_le h
  obtain ⟨between, last, hshort, hlong, hbefore, hafter, hnone⟩ :=
    exists_simulate_longer a initial n k
  have hsize : between.size = n + k + 1 := by
    rw [hbefore.size, (hasShape_initialStrips initial (n + k)).length]
  have hrow : ∀ t ≤ n, (between.take (n + 1))[t]? = between[t]? := by
    intro t ht
    rw [getElem?_take, if_pos (Nat.lt_succ_of_le ht)]
  refine ⟨_, _, hshort, hlong, ?_, ?_, fun t ht => ?_, fun cell s hs => ?_, fun hsame => ?_⟩
  · rw [Diagram.size, Array.take_eq_extract, Array.size_extract, hsize]
    omega
  · rw [Diagram.size, hafter.size, hsize]
  · exact (hrow t ht.le).trans (hafter.rows t ht).symm
  · rw [mem_signalsAt_iff_hold, Hold, hrow n le_rfl] at hs
    exact mem_signalsAt_iff_hold.2 (hafter.hold n cell s hs)
  · rcases hsame with hlength | houtputs
    · rw [← hlength, hshort] at hlong
      rw [Except.ok.inj hlong]
    · exact (hrow n le_rfl).trans ((hnone houtputs).rows n (Nat.lt_succ_self n)).symm

/-- The automaton of a rule that moves a signal to the right and leaves another one there two steps
later. -/
def trailing : Automaton :=
  ⟨∅, [⟨.literal ⟨⟨0⟩, 0, 0⟩, [⟨1, ⟨0⟩, 1⟩, ⟨0, ⟨1⟩, 2⟩]⟩]⟩

/-- One step and three steps of an automaton whose outputs land in later steps only. -/
theorem simulate_horizon_trailing :
    1 ≤ 3 ∧ (∀ o ∈ trailing.outputs, o.step ≠ 0) ∧
    ∃ d e, trailing.simulate ((Strip.empty 2).place 0 ⟨0⟩) 1 = .ok d ∧
      trailing.simulate ((Strip.empty 2).place 0 ⟨0⟩) 3 = .ok e ∧ d.size = 2 ∧ e.size = 4 ∧
      (∀ t < 1, d.strip? t = e.strip? t) ∧
      (∀ cell s, s ∈ d.signalsAt 1 cell → s ∈ e.signalsAt 1 cell) ∧ d.strip? 1 = e.strip? 1 := by
  have hle : 1 ≤ 3 := by decide
  have hsteps : ∀ o ∈ trailing.outputs, o.step ≠ 0 := by decide
  obtain ⟨d, e, hd, he, hsize, hsize', hstrips, hcells, hsame⟩ :=
    simulate_horizon trailing ((Strip.empty 2).place 0 ⟨0⟩) hle
  exact ⟨hle, hsteps, d, e, hd, he, hsize, hsize', hstrips, hcells, hsame (Or.inr hsteps)⟩

end Automaton
end StripAutomata
