import StripAutomata.Proofs.Automaton.Calls
import StripAutomata.Proofs.Chart.Names
import StripAutomata.Proofs.Decoding

/-!
# A chart keeps all of its diagram

A chart has names in place of handles, sorted by the names and not by the handles.  Nothing is lost
with that where every signal has a name: the names of a cell are strictly ascending
(`SignalSet.pairwise_names`), and looked up again, in whatever order, they are the handles of that
cell (`SignalSet.set?_names`).  Strips and diagrams follow entry by entry
(`Diagram.diagram?_chart`).

The rows of a chart are as long as its width when all strips are of one size, which those of a run
are (`Diagram.length_of_mem_steps`).
-/

namespace StripAutomata

/-! ## Looking names up again -/

namespace Lexicon

/-- The set of the signals that names stand for, if the lexicon knows the names. -/
def set? (lexicon : Lexicon) (names : List String) : Option SignalSet :=
  (names.mapM lexicon.signal?).map SignalSet.ofList

/-- The strip of the signals that the names in its cells stand for. -/
def strip? (lexicon : Lexicon) (row : List (List String)) : Option Strip :=
  (row.mapM lexicon.set?).map fun cells => ⟨cells.toArray⟩

/-- The diagram of the signals that the names in the cells of its strips stand for. -/
def diagram? (lexicon : Lexicon) (steps : List (List (List String))) : Option Diagram :=
  (steps.mapM lexicon.strip?).map fun strips => ⟨strips.toArray⟩

end Lexicon

/-! ## The names in a cell -/

namespace SignalSet

variable {lexicon : Lexicon} {set : SignalSet}

lemma names_perm (lexicon : Lexicon) (set : SignalSet) :
    (set.names lexicon).Perm (set.toList.map lexicon.nameOf) :=
  List.mergeSort_perm _ _

/-- Names are sorted by code points, and none of them stands twice in a cell. -/
lemma pairwise_names (h : ∀ s ∈ set, lexicon.Knows s) :
    (set.names lexicon).Pairwise (· < ·) := by
  have hsorted : (set.names lexicon).Pairwise (· ≤ ·) := List.pairwise_mergeSort' (· ≤ ·) _
  have hnodup : (set.names lexicon).Nodup :=
    (names_perm lexicon set).nodup_iff.2 (nodup_map_nameOf h)
  exact (hsorted.and hnodup).imp fun ⟨hle, hne⟩ => Std.lt_of_le_of_ne hle hne

/-- The names in a cell stand for the handles in it. -/
lemma set?_names (h : ∀ s ∈ set, lexicon.Knows s) :
    lexicon.set? (set.names lexicon) = some set := by
  have hperm := names_perm lexicon set
  have hknown : ∀ name ∈ set.names lexicon, lexicon.signal? name = some (lexicon.handle name) := by
    intro name hname
    obtain ⟨s, hs, rfl⟩ := List.mem_map.1 (hperm.mem_iff.1 hname)
    exact Lexicon.signal?_eq_handle (Lexicon.nameOf_mem (h s hs))
  have hsignals : (set.names lexicon).mapM lexicon.signal? =
      some ((set.names lexicon).map lexicon.handle) := by
    have hall : ((set.names lexicon).map id).mapM lexicon.signal? =
        some ((set.names lexicon).map lexicon.handle) := Decoding.mapM_map_encode hknown
    rwa [List.map_id] at hall
  -- Sorting changes the order in which the handles are found, but the set does not depend on it.
  have hback : (set.toList.map lexicon.nameOf).map lexicon.handle = set.toList := by
    rw [List.map_map]
    exact (List.map_congr_left fun s hs => Lexicon.handle_nameOf (h s hs)).trans (List.map_id _)
  rw [Lexicon.set?, hsignals, Option.map_some]
  refine congrArg some (ext fun s => ?_)
  rw [mem_ofList, (hperm.map lexicon.handle).mem_iff, hback, mem_def]

end SignalSet

/-! ## The names in a chart -/

namespace Diagram

variable {lexicon : Lexicon} {d : Diagram}

lemma knows_of_mem_cells (h : ∀ time cell, ∀ s ∈ d.signalsAt time cell, lexicon.Knows s)
    {strip : Strip} (hstrip : strip ∈ d.strips.toList) {set : SignalSet}
    (hset : set ∈ strip.cells.toList) : ∀ s ∈ set, lexicon.Knows s :=
  forall_mem_signalsAt_iff.1 h strip hstrip set hset

lemma pairwise_of_mem_steps (h : ∀ time cell, ∀ s ∈ d.signalsAt time cell, lexicon.Knows s)
    {row : List (List String)} (hrow : row ∈ (d.chart lexicon).steps) {names : List String}
    (hnames : names ∈ row) : names.Pairwise (· < ·) := by
  obtain ⟨strip, hstrip, rfl⟩ := List.mem_map.1 hrow
  obtain ⟨set, hset, rfl⟩ := List.mem_map.1 hnames
  exact SignalSet.pairwise_names (knows_of_mem_cells h hstrip hset)

/-- The names of a chart stand for its diagram. -/
lemma diagram?_chart (h : ∀ time cell, ∀ s ∈ d.signalsAt time cell, lexicon.Knows s) :
    lexicon.diagram? (d.chart lexicon).steps = some d := by
  have hstrips : (d.chart lexicon).steps.mapM lexicon.strip? = some d.strips.toList := by
    refine Decoding.mapM_map_self fun strip hstrip => ?_
    have hsets : (strip.cells.toList.map (SignalSet.names lexicon)).mapM lexicon.set? =
        some strip.cells.toList :=
      Decoding.mapM_map_self fun set hset =>
        SignalSet.set?_names (knows_of_mem_cells h hstrip hset)
    rw [Lexicon.strip?, hsets, Option.map_some, Array.toArray_toList]
  rw [Lexicon.diagram?, hstrips, Option.map_some, Array.toArray_toList]

lemma length_of_mem_steps {steps width : Nat} (h : Simulation.HasShape d.strips steps width)
    {row : List (List String)} (hrow : row ∈ (d.chart lexicon).steps) :
    row.length = (d.chart lexicon).width := by
  rw [chart_of_hasShape h] at hrow ⊢
  obtain ⟨time, -, rfl⟩ := List.mem_map.1 hrow
  rw [List.length_map, List.length_range]

/-- **A chart keeps all of its diagram.**  Where every signal in the cells has a name, the names of
each cell are strictly ascending by code points, looking all of them up again gives the diagram that
the chart was made from, and so no other such diagram has the same names at its steps.  If the
diagram is that of a run, all rows of its chart are as long as its width. -/
theorem chart_lossless (lexicon : Lexicon) (d : Diagram) :
    ((∀ time cell, ∀ s ∈ d.signalsAt time cell, lexicon.Knows s) →
      (∀ row ∈ (d.chart lexicon).steps, ∀ names ∈ row, names.Pairwise (· < ·)) ∧
      lexicon.diagram? (d.chart lexicon).steps = some d ∧
      ∀ e : Diagram, (∀ time cell, ∀ s ∈ e.signalsAt time cell, lexicon.Knows s) →
        (e.chart lexicon).steps = (d.chart lexicon).steps → e = d) ∧
    ∀ (a : Automaton) (initial : Strip) (steps : Nat), a.simulate initial steps = .ok d →
      ∀ row ∈ (d.chart lexicon).steps, row.length = (d.chart lexicon).width := by
  refine ⟨fun hd => ⟨fun row hrow names hnames => ?_, diagram?_chart hd, fun e he hsame => ?_⟩,
    fun a initial steps hrun row hrow => ?_⟩
  · exact pairwise_of_mem_steps hd hrow hnames
  · -- The same names stand for one diagram, of which both are charts.
    have hback := diagram?_chart he
    rw [hsame, diagram?_chart hd] at hback
    exact (Option.some.inj hback).symm
  · exact length_of_mem_steps (Automaton.hasShape_of_simulate hrun) hrow

/-- The rule `B: 0/0.A 1/1.B`, whose text mentions the names against their order, so that handles
and names are sorted differently. -/
def crossing : Automaton :=
  ⟨⟨["B", "A"], by decide⟩, [⟨.literal ⟨⟨0⟩, 0, 0⟩, [⟨0, ⟨1⟩, 0⟩, ⟨1, ⟨0⟩, 1⟩]⟩]⟩

/-- A step of `crossing` on two cells. -/
def crossed : Diagram :=
  ⟨#[⟨#[.ofList [⟨0⟩, ⟨1⟩], ∅]⟩, ⟨#[∅, .ofList [⟨0⟩]]⟩]⟩

/-- The names are sorted where the handles are not, and each of them stands for its handle. -/
theorem chart_lossless_crossed :
    crossing.simulate ⟨#[.ofList [⟨0⟩], ∅]⟩ 1 = .ok crossed ∧
    (∀ time cell, ∀ s ∈ crossed.signalsAt time cell, crossing.lexicon.Knows s) ∧
    crossed.chart crossing.lexicon = ⟨2, [[["A", "B"], []], [[], ["B"]]]⟩ ∧
    crossing.lexicon.diagram? [[["A", "B"], []], [[], ["B"]]] = some crossed ∧
    ∀ row ∈ (crossed.chart crossing.lexicon).steps, row.length = 2 := by
  have hrun : crossing.simulate ⟨#[.ofList [⟨0⟩], ∅]⟩ 1 = .ok crossed := by rfl
  have hchart : crossed.chart crossing.lexicon = ⟨2, [[["A", "B"], []], [[], ["B"]]]⟩ := by
    have hboth : sortNames ["B", "A"] = ["A", "B"] :=
      (sortNames_eq_of_perm (.swap "A" "B" [])).trans (List.mergeSort_of_pairwise (by decide))
    show Chart.mk 2 [[sortNames ["B", "A"], sortNames []], [sortNames [], sortNames ["B"]]] = _
    rw [hboth]
    simp [sortNames]
  have hknown : ∀ time cell, ∀ s ∈ crossed.signalsAt time cell, crossing.lexicon.Knows s :=
    forall_mem_signalsAt_iff.2 (by decide)
  obtain ⟨hnames, hrows⟩ := chart_lossless crossing.lexicon crossed
  obtain ⟨-, hback, -⟩ := hnames hknown
  have hlength := hrows crossing _ 1 hrun
  rw [hchart] at hback hlength
  exact ⟨hrun, hknown, hchart, hback, hchart ▸ hlength⟩

end Diagram
end StripAutomata
