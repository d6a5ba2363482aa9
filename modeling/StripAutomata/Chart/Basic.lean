import StripAutomata.Diagram.Basic
import StripAutomata.Lexicon

/-!
# Charts

A chart is a diagram with names in place of handles, for readers that do not have the lexicon.  The
names in a cell are sorted by code points.  A handle without a name shows as a question mark, once
for every such handle.
-/

namespace StripAutomata

/-- A diagram with the names of the signals: for each step and cell the sorted names. -/
structure Chart where
  width : Nat
  steps : List (List (List String))
  deriving DecidableEq, Repr

/-- Names sorted by code points. -/
def sortNames (names : List String) : List String :=
  names.mergeSort fun a b => decide (a ≤ b)

/-- The sorted names of the signals of a set. -/
def SignalSet.names (lexicon : Lexicon) (set : SignalSet) : List String :=
  sortNames (set.toList.map lexicon.nameOf)

/-- The chart of a diagram, with the names of a lexicon. -/
def Diagram.chart (lexicon : Lexicon) (d : Diagram) : Chart where
  width := d.width
  steps := d.strips.toList.map fun strip => strip.cells.toList.map (SignalSet.names lexicon)

end StripAutomata
