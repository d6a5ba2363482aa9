import StripAutomata.Automaton.Run

/-!
# Room in memory

A strip is a row of cells in memory, and a diagram is a row of strips.  Each entry of either takes
24 bytes, and no row can take more bytes than a number of 63 bits can count.  So there is a largest
row, whatever machine it is; whoever asks for a longer one gets no answer.

The operations that begin with such a row stand here once more, with that limit.  Where they answer,
they answer as `Strip.empty`, `Automaton.simulate` and `Automaton.run` do.
-/

namespace StripAutomata

namespace Memory

/-- The number of entries of the largest row. -/
def largestRow : Nat := 0x7FFFFFFFFFFFFFFF / 24

/-- Whether there can be room for a row of some entries. -/
def holds (entries : Nat) : Bool := entries ≤ largestRow

end Memory

/-- A strip of cells that hold nothing, if there can be room for it. -/
def Strip.empty? (size : Nat) : Option Strip :=
  if Memory.holds size then some (empty size) else none

namespace Automaton

/-- The diagram of a run of some steps from an initial strip, if there can be room for its strips.
They are as many as the steps and one more. -/
def simulate? (a : Automaton) (initial : Strip) (steps : Nat) :
    Option (Except OutsideWindow Diagram) :=
  if Memory.holds (steps + 1) then some (a.simulate initial steps) else none

/-- Simulates the run that settings describe, if there can be room for it.  Settings that are
refused need none. -/
def run? (a : Automaton) (s : Settings) : Option (Automaton × Except Failure Diagram) :=
  if s.validate.isOk && !(Memory.holds s.cells && Memory.holds (s.steps + 1)) then none
  else some (a.run s)

end Automaton
end StripAutomata
