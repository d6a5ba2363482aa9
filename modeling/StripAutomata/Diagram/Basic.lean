import StripAutomata.Strip.Basic

/-!
# Diagrams

A space-time diagram is the sequence of the strips of a run, one for each time step, the first one
at step zero.  The strips of a run are all of one size, which is the width of the diagram; in a
diagram from elsewhere they may differ, and the first one counts.
-/

namespace StripAutomata

/-- The strips of a run, in the order of time. -/
structure Diagram where
  strips : Array Strip
  deriving DecidableEq

namespace Diagram

/-- The number of time steps, the initial one among them. -/
def size (d : Diagram) : Nat := d.strips.size

/-- The strip at a time step. -/
def strip? (d : Diagram) (time : Nat) : Option Strip := d.strips[time]?

/-- The number of cells of the first strip. -/
def width (d : Diagram) : Nat :=
  match d.strip? 0 with
  | some strip => strip.size
  | none => 0

/-- The signals in a cell at a time step; there are none where there is no such cell. -/
def signalsAt (d : Diagram) (time cell : Nat) : SignalSet :=
  match d.strip? time with
  | some strip => strip.cellOrEmpty cell
  | none => ∅

end Diagram
end StripAutomata
