import Mathlib.Tactic.Common
import StripAutomata.Chart.Basic

/-!
# The names in a chart

A chart has a name for every signal in the cells of a diagram, and nothing else of the lexicon goes
into it.  So what holds of the signals in the cells holds of all that a chart is made from
(`Diagram.forall_mem_signalsAt_iff`), and lexicons that agree on those signals make the same chart
(`Diagram.chartBy_congr`).
-/

namespace StripAutomata.Diagram

variable {d : Diagram}

/-- The signals in the cells of a diagram are those in the cells of its strips. -/
lemma forall_mem_signalsAt_iff {p : Signal → Prop} :
    (∀ time cell, ∀ s ∈ d.signalsAt time cell, p s) ↔
      ∀ strip ∈ d.strips.toList, ∀ set ∈ strip.cells.toList, ∀ s ∈ set.toList, p s := by
  constructor
  · intro h strip hstrip set hset s hs
    obtain ⟨time, htime⟩ := List.mem_iff_getElem?.1 hstrip
    obtain ⟨cell, hcell⟩ := List.mem_iff_getElem?.1 hset
    rw [Array.getElem?_toList] at htime hcell
    refine h time cell s ?_
    simp only [signalsAt, strip?, htime, Strip.cellOrEmpty, Strip.cell?, hcell, Option.getD_some]
    exact hs
  · intro h time cell s hs
    -- A strip or a cell that is not there holds nothing.
    unfold signalsAt at hs
    split at hs
    next strip hstrip =>
      unfold Strip.cellOrEmpty at hs
      cases hcell : strip.cell? cell with
      | none =>
        rw [hcell] at hs
        exact absurd hs (SignalSet.not_mem_empty s)
      | some set =>
        rw [hcell] at hs
        exact h strip (Array.mem_toList_iff.2 (Array.mem_of_getElem? hstrip)) set
          (Array.mem_toList_iff.2 (Array.mem_of_getElem? hcell)) s hs
    next => exact absurd hs (SignalSet.not_mem_empty s)

/-- The chart of a diagram in which signals are called by a naming. -/
def chartBy (naming : Signal → String) (d : Diagram) : Chart where
  width := d.width
  steps := d.strips.toList.map fun strip => strip.cells.toList.map fun set =>
    sortNames (set.toList.map naming)

lemma chart_eq_chartBy (lexicon : Lexicon) (d : Diagram) :
    d.chart lexicon = d.chartBy lexicon.nameOf :=
  rfl

/-- Only how the signals in the cells are called matters to a chart. -/
lemma chartBy_congr {naming other : Signal → String}
    (h : ∀ time cell, ∀ s ∈ d.signalsAt time cell, naming s = other s) :
    d.chartBy naming = d.chartBy other := by
  rw [forall_mem_signalsAt_iff] at h
  refine congrArg (Chart.mk d.width) (List.map_congr_left fun strip hstrip => ?_)
  refine List.map_congr_left fun set hset => congrArg sortNames (List.map_congr_left fun s hs => ?_)
  exact h strip hstrip set hset s hs

end StripAutomata.Diagram
