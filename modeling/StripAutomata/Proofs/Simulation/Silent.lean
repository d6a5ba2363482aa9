import Mathlib.Order.Monotone.Basic
import StripAutomata.Chart.Basic
import StripAutomata.Proofs.Simulation.Run

/-!
# Rules that place nothing

A rule without outputs may fire, but nothing comes of it, so an automaton computes the same diagram
without such rules (`Automaton.simulate_acting`).  What is left to see is that the other rules are
visited in the same order: the places that they have after the silent ones are gone go up with the
places that they had before (`exists_index_filter`), and so a visit of the one run stands for a
visit of the other.

A diagram is what its cells hold (`Diagram.toList_strips`), and so is its chart.
-/

namespace StripAutomata

/-! ## Diagrams of a known shape -/

/-- A strip is what its cells hold. -/
lemma Strip.toList_cells (strip : Strip) :
    strip.cells.toList = (List.range strip.size).map strip.cellOrEmpty := by
  refine List.ext_getElem (by simp [size]) fun cell hcell _ => ?_
  have hlt : cell < strip.cells.size := by simpa using hcell
  simp [cellOrEmpty, cell?, hlt]

/-- The strips of a diagram are what its cells hold. -/
lemma Diagram.toList_strips {d : Diagram} {steps width : Nat}
    (h : Simulation.HasShape d.strips steps width) :
    d.strips.toList = (List.range (steps + 1)).map fun time =>
      ⟨((List.range width).map (d.signalsAt time)).toArray⟩ := by
  refine List.ext_getElem (by simp [h.length]) fun time htime _ => ?_
  have hlt : time < d.strips.size := by simpa using htime
  obtain ⟨strip, hstrip, hwidth⟩ := h.width time (by rw [h.length] at hlt; omega)
  have hcells : d.signalsAt time = strip.cellOrEmpty := by
    funext cell
    rw [signalsAt, strip?, hstrip]
  rw [Array.getElem?_eq_getElem hlt, Option.some.injEq] at hstrip
  rw [List.getElem_map, List.getElem_range, hcells, ← hwidth, ← strip.toList_cells,
    Array.toArray_toList, Array.getElem_toList, hstrip]

/-- Diagrams of one shape are equal if their cells hold the same. -/
lemma Diagram.ext_of_hasShape {d e : Diagram} {steps width : Nat}
    (hd : Simulation.HasShape d.strips steps width) (he : Simulation.HasShape e.strips steps width)
    (h : ∀ time ≤ steps, ∀ cell < width, d.signalsAt time cell = e.signalsAt time cell) : d = e := by
  have hstrips : d.strips.toList = e.strips.toList := by
    rw [toList_strips hd, toList_strips he]
    refine List.map_congr_left fun time htime =>
      congrArg (fun cells : List SignalSet => Strip.mk cells.toArray) ?_
    refine List.map_congr_left fun cell hcell => ?_
    exact h time (Nat.lt_succ_iff.1 (List.mem_range.1 htime)) cell (List.mem_range.1 hcell)
  cases d
  exact congrArg mk (Array.toList_inj.1 hstrips)

/-- The chart of a diagram has the names of what its cells hold. -/
lemma Diagram.chart_of_hasShape {d : Diagram} {steps width : Nat}
    (h : Simulation.HasShape d.strips steps width) (lexicon : Lexicon) :
    d.chart lexicon = ⟨width, (List.range (steps + 1)).map fun time =>
      (List.range width).map fun cell => (d.signalsAt time cell).names lexicon⟩ := by
  have hwidth : d.width = width := by
    obtain ⟨strip, hstrip, hsize⟩ := h.width 0 (Nat.zero_le steps)
    rw [Diagram.width, strip?, hstrip]
    exact hsize
  rw [chart, hwidth, toList_strips h]
  simp [Function.comp_def]

/-! ## Taking silent rules out -/

/-- The entries that are left of a list stand in the order in which they stood there. -/
lemma exists_index_filter {α : Type} (p : α → Bool) (l : List α) :
    ∃ f : Nat → Nat, StrictMono f ∧ (∀ i, (l.filter p)[i]? = l[f i]?) ∧
      ∀ k x, l[k]? = some x → p x = true → ∃ i, f i = k := by
  induction l with
  | nil => exact ⟨id, strictMono_id, fun i => rfl, fun k x h => by cases h⟩
  | cons a l ih =>
    obtain ⟨f, hmono, hentries, hleft⟩ := ih
    by_cases ha : p a = true
    · -- The entry stays at the front, and those behind it stand one place farther on.
      refine ⟨fun i => i.casesOn 0 fun i => f i + 1, strictMono_nat_of_lt_succ fun i => ?_,
        fun i => ?_, fun k x hx hp => ?_⟩
      · cases i with
        | zero => exact Nat.succ_pos _
        | succ i => exact Nat.succ_lt_succ (hmono (Nat.lt_succ_self i))
      · cases i with
        | zero => rw [List.filter_cons_of_pos ha]; rfl
        | succ i => rw [List.filter_cons_of_pos ha]; exact hentries i
      · cases k with
        | zero => exact ⟨0, rfl⟩
        | succ k =>
          obtain ⟨i, rfl⟩ := hleft k x hx hp
          exact ⟨i + 1, rfl⟩
    · -- The entry is left out, so every place is that of the rest and one more.
      refine ⟨fun i => f i + 1, fun i j hij => Nat.succ_lt_succ (hmono hij), fun i => ?_,
        fun k x hx hp => ?_⟩
      · rw [List.filter_cons_of_neg ha]
        exact hentries i
      · cases k with
        | zero => cases hx; exact absurd hp ha
        | succ k =>
          obtain ⟨i, rfl⟩ := hleft k x hx hp
          exact ⟨i, rfl⟩

/-- The visit of the same time step and cell at which the rule stands whose place is given for this
one. -/
def Visit.reindex (f : Nat → Nat) (v : Visit) : Visit := ⟨v.time, v.cell, f v.rule⟩

lemma Visit.before_reindex {f : Nat → Nat} (hf : StrictMono f) {u v : Visit} :
    (u.reindex f).Before (v.reindex f) ↔ u.Before v := by
  simp only [Before, reindex, hf.lt_iff_lt]

namespace Automaton

/-- The automaton without the rules that place nothing. -/
def acting (a : Automaton) : Automaton := { a with rules := a.rules.filter Rule.acts }

variable {a : Automaton} {initial : Strip} {v : Visit} {time cell : Nat} {s : Signal}
  {f : Nat → Nat}

lemma places_reindex (hentries : ∀ i, a.acting.rules[i]? = a.rules[f i]?) :
    a.Places (v.reindex f) time cell s ↔ a.acting.Places v time cell s := by
  rw [Places, Places, hentries]
  rfl

lemma exists_places_reindex (hentries : ∀ i, a.acting.rules[i]? = a.rules[f i]?)
    (hleft : ∀ k r, a.rules[k]? = some r → r.acts = true → ∃ i, f i = k) {p q : Visit → Prop}
    (h : ∀ u, p u ↔ q (u.reindex f)) :
    (∃ u, p u ∧ a.acting.Places u time cell s) ↔ ∃ w, q w ∧ a.Places w time cell s := by
  constructor
  · rintro ⟨u, hu, hplaces⟩
    exact ⟨u.reindex f, (h u).1 hu, (places_reindex hentries).2 hplaces⟩
  · rintro ⟨w, hw, hplaces⟩
    obtain ⟨rule, hrule, o, ho, -⟩ := id hplaces
    have hacts : rule.acts = true := by simp [Rule.acts, List.ne_nil_of_mem ho]
    obtain ⟨i, hi⟩ := hleft _ _ hrule hacts
    have hw' : Visit.reindex f ⟨w.time, w.cell, i⟩ = w := by rw [Visit.reindex, hi]
    rw [← hw'] at hw hplaces
    exact ⟨_, (h _).2 hw, (places_reindex hentries).1 hplaces⟩

/-- **A rule fires without the silent rules if it fires among them.** -/
theorem fires_acting (hmono : StrictMono f) (hentries : ∀ i, a.acting.rules[i]? = a.rules[f i]?)
    (hleft : ∀ k r, a.rules[k]? = some r → r.acts = true → ∃ i, f i = k) :
    a.acting.Fires initial v ↔ a.Fires initial (v.reindex f) := by
  induction v using Visit.wellFounded_before.induction with
  | _ v ih =>
    have hcan : ∀ contents : Nat → Signal → Prop, a.acting.CanFire initial.size contents v ↔
        a.CanFire initial.size contents (v.reindex f) := by
      intro contents
      rw [CanFire, CanFire, hentries]
      rfl
    rw [fires_iff, fires_iff, hcan]
    -- Only rules with outputs have placed something, and these are left.
    refine and_congr_right fun _ => canFire_congr fun cell _ s => or_congr_right ?_
    simp only [← and_assoc]
    refine exists_places_reindex hentries hleft fun u => ?_
    rw [Visit.before_reindex hmono]
    exact and_congr_right fun hbefore => ih u hbefore

/-- **Rules that place nothing may be left out.**  The diagrams of a run are the same. -/
theorem simulate_acting (a : Automaton) (hroom : Memory.holds initial.size = true) (steps : Nat) :
    a.acting.simulate initial steps = a.simulate initial steps := by
  obtain ⟨f, hmono, hentries, hleft⟩ := exists_index_filter Rule.acts a.rules
  obtain ⟨d, hd, hshape, hcells⟩ := exists_simulate a.acting hroom steps
  obtain ⟨e, he, hshape', hcells'⟩ := exists_simulate a hroom steps
  rw [hd, he]
  refine congrArg _ (Diagram.ext_of_hasShape hshape hshape' fun time htime cell hcell => ?_)
  refine SignalSet.ext fun s => ?_
  rw [hcells time htime cell hcell s, hcells' time htime cell hcell s]
  simp only [← and_assoc]
  refine or_congr_right (exists_places_reindex hentries hleft fun u => ?_)
  exact and_congr_right fun _ => fires_acting hmono hentries hleft

end Automaton
end StripAutomata
