import Mathlib.Data.Finset.Sort
import StripAutomata.Chart.Json
import StripAutomata.Diagram.Json
import StripAutomata.Proofs.Json.Decode
import StripAutomata.Proofs.Settings.RoundTrip
import StripAutomata.Proofs.Simulation.Silent

/-!
# Strips, diagrams and charts are read again

What is written as JSON is read again from either of its texts (`serialized_reads_back`), provided
that handles have 32 bits and sizes 64.

A strip is written with the handles of each cell ascending, but the handles of a cell may be read in
any order and number.  A value that is read as a strip is one that lists rows of handles
(`Strip.Lists`), and the cells of the strip have the handles of the rows, ascending and each of them
once (`Strip.ofJson?_eq_some_iff`).  That a strip that was written is read again is the case of rows
that are ascending already.
-/

namespace StripAutomata

/-! ## Cells -/

lemma Signal.ofJson?_eq_some_iff (v : Json) (s : Signal) :
    Signal.ofJson? v = some s ↔ ∃ n : Nat, v = .ofNat n ∧ n < Signal.bound ∧ s = ⟨n⟩ := by
  simp only [Signal.ofJson?, Option.map_eq_some_iff, Json.nat?_eq_some_iff, and_assoc,
    eq_comm (b := s)]

namespace SignalSet

variable {v : Json} {set : SignalSet} {row : List Nat}

/-- The handles of a set, ascending. -/
def handles (set : SignalSet) : List Nat := set.toList.map (·.index)

/-- The set of the handles of a row, in whatever order and number they stand there. -/
def ofHandles (row : List Nat) : SignalSet := ofList (row.map Signal.mk)

lemma mem_handles_iff {n : Nat} : n ∈ set.handles ↔ ⟨n⟩ ∈ set := by
  refine List.mem_map.trans ⟨?_, fun h => ⟨⟨n⟩, h, rfl⟩⟩
  rintro ⟨s, hs, rfl⟩
  exact hs

lemma mem_ofHandles_iff {s : Signal} : s ∈ ofHandles row ↔ s.index ∈ row := by
  refine mem_ofList.trans (List.mem_map.trans ⟨?_, fun h => ⟨s.index, h, rfl⟩⟩)
  rintro ⟨n, hn, rfl⟩
  exact hn

lemma ofHandles_handles (set : SignalSet) : ofHandles set.handles = set :=
  ext fun _ => mem_ofHandles_iff.trans mem_handles_iff

/-- The handles of a row come to stand ascending, each of them once. -/
lemma handles_ofHandles (row : List Nat) : (ofHandles row).handles = row.toFinset.sort (· ≤ ·) := by
  have hascending : (ofHandles row).handles.Pairwise (· < ·) :=
    List.pairwise_map.2 (ofHandles row).ascending
  have hsame : row.toFinset = (ofHandles row).handles.toFinset := by
    ext n
    rw [List.mem_toFinset, List.mem_toFinset, mem_handles_iff, mem_ofHandles_iff]
  rw [hsame]
  exact ((List.toFinset_sort (· ≤ ·) hascending.nodup).2 (hascending.imp Nat.le_of_lt)).symm

lemma toJson_eq (set : SignalSet) : set.toJson = .array (set.handles.map Json.ofNat) := by
  rw [toJson, handles, List.map_map]
  rfl

/-- A set is read from any list of its handles. -/
lemma ofJson?_eq_some_iff (v : Json) (set : SignalSet) : ofJson? v = some set ↔
    ∃ row : List Nat, v = .array (row.map Json.ofNat) ∧ (∀ n ∈ row, n < Signal.bound) ∧
      set = ofHandles row := by
  rw [ofJson?, Option.map_eq_some_iff]
  simp only [Json.list?_eq_some_iff Signal.ofJson?_eq_some_iff]
  constructor
  · rintro ⟨-, ⟨row, hv, hrow, rfl⟩, rfl⟩
    exact ⟨row, hv, hrow, rfl⟩
  · rintro ⟨row, hv, hrow, rfl⟩
    exact ⟨_, ⟨row, hv, hrow, rfl⟩, rfl⟩

end SignalSet

/-! ## Strips -/

namespace Strip

variable {v : Json} {strip : Strip} {rows : List (List Nat)}

/-- The handles in each cell of a strip, ascending. -/
def handles (strip : Strip) : List (List Nat) := strip.cells.toList.map SignalSet.handles

/-- Whether the handles of a strip have 32 bits. -/
def Fits (strip : Strip) : Prop := ∀ row ∈ strip.handles, ∀ n ∈ row, n < Signal.bound

/-- Whether a value is a record with rows of handles of 32 bits for its cells. -/
def Lists (v : Json) (rows : List (List Nat)) : Prop :=
  Json.IsRecordOf "cells" (.array (rows.map fun row => .array (row.map Json.ofNat))) v ∧
    ∀ row ∈ rows, ∀ n ∈ row, n < Signal.bound

/-- The strip of the handles in rows. -/
def ofRows (rows : List (List Nat)) : Strip := ⟨(rows.map SignalSet.ofHandles).toArray⟩

lemma handles_injective : Function.Injective handles := by
  intro strip other h
  have hcells : strip.cells.toList = other.cells.toList :=
    (Function.LeftInverse.injective SignalSet.ofHandles_handles).list_map h
  cases strip
  exact congrArg mk (Array.toList_inj.1 hcells)

/-- The handles of a row come to stand in its cell ascending, each of them once. -/
lemma handles_ofRows (rows : List (List Nat)) :
    (ofRows rows).handles = rows.map fun row => row.toFinset.sort (· ≤ ·) := by
  rw [ofRows, handles, List.toList_toArray, List.map_map]
  exact List.map_congr_left fun row _ => SignalSet.handles_ofHandles row

lemma ofRows_handles (strip : Strip) : ofRows strip.handles = strip := by
  have hcells : strip.handles.map SignalSet.ofHandles = strip.cells.toList := by
    rw [handles, List.map_map]
    exact (List.map_congr_left fun set _ => SignalSet.ofHandles_handles set).trans (List.map_id _)
  rw [ofRows, hcells, Array.toArray_toList]

/-- A strip is read from any rows of its handles. -/
lemma ofJson?_eq_some_iff :
    ofJson? v = some strip ↔ ∃ rows, Lists v rows ∧ strip = ofRows rows := by
  unfold ofJson?
  simp only [Option.bind_eq_bind, Option.bind_eq_some_iff]
  constructor
  · rintro ⟨values, hvalues, h⟩
    split at h
    next cells =>
      obtain ⟨sets, hsets, hstrip⟩ := Option.bind_eq_some_iff.1 h
      obtain ⟨rows, rfl, hfits, rfl⟩ :=
        (Json.list?_eq_some_iff SignalSet.ofJson?_eq_some_iff).1 hsets
      exact ⟨rows, ⟨Json.record?_eq_some_singleton_iff.1 hvalues, hfits⟩,
        (Option.some.inj hstrip).symm⟩
    next => cases h
  · rintro ⟨rows, ⟨hrecord, hfits⟩, rfl⟩
    have hsets := (Json.list?_eq_some_iff SignalSet.ofJson?_eq_some_iff).2 ⟨rows, rfl, hfits, rfl⟩
    exact ⟨_, Json.record?_eq_some_singleton_iff.2 hrecord,
      Option.bind_eq_some_iff.2 ⟨_, hsets, rfl⟩⟩

lemma Lists.fits_ofRows (h : Lists v rows) : (ofRows rows).Fits := by
  intro sorted hsorted n hn
  rw [handles_ofRows] at hsorted
  obtain ⟨row, hrow, rfl⟩ := List.mem_map.1 hsorted
  exact h.2 row hrow n (List.mem_toFinset.1 ((Finset.mem_sort _).1 hn))

lemma toJson_eq (strip : Strip) : strip.toJson =
    .ofMembers [("cells", .array (strip.handles.map fun row => .array (row.map Json.ofNat)))] := by
  rw [toJson, handles, List.map_map]
  simp only [Function.comp_def, ← SignalSet.toJson_eq]

lemma Fits.lists_toJson (h : strip.Fits) : Lists strip.toJson strip.handles := by
  refine ⟨Json.record?_eq_some_singleton_iff.1 ?_, h⟩
  rw [toJson_eq]
  exact Json.record?_ofMembers _ (List.nodup_singleton "cells")

lemma Fits.ofJson?_toJson (h : strip.Fits) : ofJson? strip.toJson = some strip :=
  ofJson?_eq_some_iff.2 ⟨_, h.lists_toJson, (ofRows_handles strip).symm⟩

lemma Fits.isKept (h : strip.Fits) : strip.toJson.IsKept := by
  rw [toJson_eq]
  refine ⟨Json.isKept_array_map fun row hrow => Json.isKept_array_map fun n hn => ?_, trivial⟩
  exact Nat.lt_of_lt_of_le (h row hrow n hn) (by decide)

/-- Strips are equal if their cells hold the same. -/
lemma eq_iff_forall_mem {other : Strip} : strip = other ↔ strip.size = other.size ∧
    ∀ cell s, s ∈ strip.cellOrEmpty cell ↔ s ∈ other.cellOrEmpty cell := by
  constructor
  · rintro rfl
    exact ⟨rfl, fun _ _ => Iff.rfl⟩
  · rintro ⟨hsize, hcells⟩
    have hsets : strip.cellOrEmpty = other.cellOrEmpty :=
      funext fun cell => SignalSet.ext (hcells cell)
    have hlists : strip.cells.toList = other.cells.toList := by
      rw [toList_cells, toList_cells, hsize, hsets]
    cases strip
    exact congrArg mk (Array.toList_inj.1 hlists)

end Strip

/-! ## Diagrams and charts -/

namespace Diagram

variable {d : Diagram}

/-- Whether the handles of a diagram have 32 bits. -/
def Fits (d : Diagram) : Prop := ∀ strip ∈ d.strips.toList, strip.Fits

lemma Fits.isKept (h : d.Fits) : d.toJson.IsKept :=
  ⟨Json.isKept_array_map fun strip hstrip => (h strip hstrip).isKept, trivial⟩

lemma Fits.ofJson?_toJson (h : d.Fits) : ofJson? d.toJson = some d := by
  have hrecord : Json.record? ["configurations"] d.toJson =
      some [some (.array (d.strips.toList.map Strip.toJson))] :=
    Json.record?_ofMembers _ (List.nodup_singleton "configurations")
  have hstrips := Json.list?_array_map fun strip hstrip => (h strip hstrip).ofJson?_toJson
  rw [ofJson?, hrecord, Option.bind_eq_bind, Option.bind_some]
  simp only [hstrips]
  rfl

end Diagram

namespace Chart

variable {c : Chart}

/-- Whether the width of a chart has 64 bits. -/
def Fits (c : Chart) : Prop := c.width < Numeral.sizeBound

lemma Fits.isKept (h : c.Fits) : c.toJson.IsKept := by
  refine ⟨h, ?_, trivial⟩
  exact Json.isKept_array_map fun row _ => Json.isKept_array_map fun names _ =>
    Json.isKept_array_map fun name _ => trivial

lemma Fits.ofJson?_toJson (h : c.Fits) : ofJson? c.toJson = some c := by
  have hrecord : Json.record? ["width", "steps"] c.toJson =
      some [some (.ofNat c.width), some (.array (c.steps.map stepToJson))] :=
    Json.record?_ofMembers _ (by decide : ["width", "steps"].Nodup)
  have hsteps : Json.list? (Json.list? (Json.list? Json.text?)) (.array (c.steps.map stepToJson)) =
      some c.steps :=
    Json.list?_array_map fun row _ => Json.list?_array_map fun names _ =>
      Json.list?_array_map fun name _ => rfl
  have hwidth : Json.size? (.ofNat c.width) = some c.width := Json.nat?_eq_some_iff.2 ⟨rfl, h⟩
  rw [ofJson?, hrecord, Option.bind_eq_bind, Option.bind_some]
  simp only [hwidth, hsteps]
  rfl

end Chart

/-! ## All of them -/

/-- The texts that are read as a strip are those that list rows of handles. -/
lemma Strip.load?_eq_some_iff {text : String} {strip : Strip} :
    Json.load? ofJson? text = some strip ↔ ∃ v rows, Json.parse? text = some v ∧ Lists v rows ∧
      strip.handles = rows.map fun row => row.toFinset.sort (· ≤ ·) := by
  simp only [Json.load?, Option.bind_eq_some_iff, ofJson?_eq_some_iff]
  constructor
  · rintro ⟨v, hv, rows, hrows, rfl⟩
    exact ⟨v, rows, hv, hrows, handles_ofRows rows⟩
  · rintro ⟨v, rows, hv, hrows, hhandles⟩
    exact ⟨v, hv, rows, hrows, handles_injective (hhandles.trans (handles_ofRows rows).symm)⟩

/-- A strip that was read from a text has handles of 32 bits. -/
lemma Strip.fits_of_load? {text : String} {strip : Strip}
    (h : Json.load? ofJson? text = some strip) : strip.Fits := by
  obtain ⟨v, -, hv⟩ := Option.bind_eq_some_iff.1 h
  obtain ⟨rows, hrows, rfl⟩ := ofJson?_eq_some_iff.1 hv
  exact hrows.fits_ofRows

/-- **What is written as JSON is read again**, without blanks or laid out: strips and diagrams with
handles of 32 bits, charts with any names and settings with or without a start signal, with sizes of
64 bits.  Texts of other origin are read as strips just if they list rows of handles, and then each
cell has the handles of its row, ascending and each of them once.  So a strip that was read stays
the same when it is written and read again, and there is one strip only for what cells hold. -/
theorem serialized_reads_back :
    (∀ strip : Strip, strip.Fits →
      ∀ text ∈ strip.toJson.texts, Json.load? Strip.ofJson? text = some strip) ∧
    (∀ d : Diagram, d.Fits → ∀ text ∈ d.toJson.texts, Json.load? Diagram.ofJson? text = some d) ∧
    (∀ c : Chart, c.Fits → ∀ text ∈ c.toJson.texts, Json.load? Chart.ofJson? text = some c) ∧
    (∀ s : Settings, s.Fits →
      ∀ text ∈ s.toJson.texts, Json.load? Settings.ofJson? text = some s) ∧
    (∀ text strip, Json.load? Strip.ofJson? text = some strip ↔
      ∃ v rows, Json.parse? text = some v ∧ Strip.Lists v rows ∧
        strip.handles = rows.map fun row => row.toFinset.sort (· ≤ ·)) ∧
    (∀ text strip, Json.load? Strip.ofJson? text = some strip →
      ∀ again ∈ strip.toJson.texts, Json.load? Strip.ofJson? again = some strip) ∧
    ∀ strip other : Strip, strip = other ↔ strip.size = other.size ∧
      ∀ cell s, s ∈ strip.cellOrEmpty cell ↔ s ∈ other.cellOrEmpty cell := by
  have hstrip (strip : Strip) (h : strip.Fits) (text : String) (htext : text ∈ strip.toJson.texts) :
      Json.load? Strip.ofJson? text = some strip :=
    Json.load?_of_mem_texts h.isKept h.ofJson?_toJson htext
  refine ⟨hstrip, fun d h text htext => ?_, fun c h text htext => ?_, fun s h text htext => ?_,
    fun text strip => Strip.load?_eq_some_iff, fun text strip hload => ?_,
    fun strip other => Strip.eq_iff_forall_mem⟩
  · exact Json.load?_of_mem_texts h.isKept h.ofJson?_toJson htext
  · exact Json.load?_of_mem_texts h.isKept h.ofJson?_toJson htext
  · exact Json.load?_of_mem_texts h.isKept (Settings.ofJson?_toJson h) htext
  · exact hstrip strip (Strip.fits_of_load? hload)

/-- A strip of three cells, the last one with the greatest handle. -/
def threeRows : Strip := .ofRows [[3, 7], [], [4294967295]]

/-- A chart of names that are not written as they are, and one that is empty. -/
def oddNames : Chart := ⟨18446744073709551615, [[["\u0001\"", "\\é\n"], []], [[""]], []]⟩

/-- Handles out of order and repeated ones are read, and what was read is written in order. -/
theorem serialized_reads_back_threeRows :
    threeRows.Fits ∧ (Diagram.mk #[threeRows]).Fits ∧ oddNames.Fits ∧
    (∀ text ∈ (Diagram.mk #[threeRows]).toJson.texts,
      Json.load? Diagram.ofJson? text = some ⟨#[threeRows]⟩) ∧
    (∀ text ∈ oddNames.toJson.texts, Json.load? Chart.ofJson? text = some oddNames) ∧
    (∀ text ∈ (Settings.mk 18446744073709551615 0 none).toJson.texts,
      Json.load? Settings.ofJson? text = some ⟨18446744073709551615, 0, none⟩) ∧
    Json.load? Strip.ofJson? "\x7b\"cells\": [[7, 3, 7], [], [4294967295]]\x7d" = some threeRows ∧
    threeRows.toJson.compactText = "\x7b\"cells\":[[3,7],[],[4294967295]]\x7d" ∧
    Json.load? Strip.ofJson? threeRows.toJson.compactText = some threeRows := by
  have hstrip : threeRows.Fits := by
    unfold Strip.Fits
    decide
  have hdiagram : (Diagram.mk #[threeRows]).Fits := fun strip h => by
    obtain rfl := List.mem_singleton.1 h
    exact hstrip
  have hchart : oddNames.Fits := (by decide : 18446744073709551615 < Numeral.sizeBound)
  have hload : Json.load? Strip.ofJson? "\x7b\"cells\": [[7, 3, 7], [], [4294967295]]\x7d" =
      some threeRows := by decide +kernel
  obtain ⟨-, hdiagrams, hcharts, hsettings, -, hagain, -⟩ := serialized_reads_back
  exact ⟨hstrip, hdiagram, hchart, hdiagrams _ hdiagram, hcharts _ hchart,
    hsettings _ ⟨by decide, by decide⟩, hload, by decide +kernel,
    hagain _ _ hload _ (List.mem_cons_self ..)⟩

end StripAutomata
