import StripAutomata.Automaton.Basic
import StripAutomata.Formula.Eval
import StripAutomata.Diagram.Basic

/-!
# Simulation

A run begins with an initial strip and as many empty strips of the same size as there are steps to
compute.  Step by step, from the first strip to the one before the last, the cells are scanned
from left to right, and at each cell the rules are tried in their order.  A rule that fires
places the signals of its outputs at once, so that what it places in the strip that is being
scanned is there for the rules and the cells that are still to come.

What is placed beside the strip or after the last step is lost.  A condition may only look at
offsets within the reach of the automaton; `Automaton.simulate` passes on the refusal of any
other.
-/

namespace StripAutomata

namespace Simulation

/-- Adds a signal to a cell of the strip of a time step, or changes nothing where there is no such
strip or no such cell. -/
def place (strips : Array Strip) (time : Nat) (cell : Int) (s : Signal) : Array Strip :=
  match cell with
  | .ofNat index => strips.modify time (·.place index s)
  | .negSucc _ => strips

/-- Places the signals of outputs, relative to a time step and a cell. -/
def placeAll (time cell : Nat) (strips : Array Strip) (outputs : List (Output Signal)) :
    Array Strip :=
  outputs.foldl (fun strips o => place strips (time + o.step) (cell + o.offset) o.signal) strips

/-- Whether a rule fires at a time step and a cell. -/
def fires (reach : Reach) (strips : Array Strip) (time cell : Nat) (rule : Rule Signal) :
    Except OutsideWindow Bool :=
  let strip := strips[time]?.getD default
  rule.condition.eval (strip.neighborhood cell reach.least reach.greatest)

/-- Tries a rule at a time step and a cell. -/
def tryRule (reach : Reach) (time cell : Nat) (strips : Array Strip) (rule : Rule Signal) :
    Except OutsideWindow (Array Strip) := do
  if ← fires reach strips time cell rule then return placeAll time cell strips rule.outputs
  else return strips

/-- A rule that is tried is refused if its condition is; else it places all its outputs or none. -/
theorem tryRule_eq (reach : Reach) (time cell : Nat) (strips : Array Strip) (rule : Rule Signal) :
    tryRule reach time cell strips rule =
      (fires reach strips time cell rule).map fun b =>
        if b then placeAll time cell strips rule.outputs else strips := by
  unfold tryRule
  rcases fires reach strips time cell rule with error | b
  · rfl
  · cases b <;> rfl

/-- Tries the rules at a cell. -/
def scanCell (reach : Reach) (rules : List (Rule Signal)) (time : Nat) (strips : Array Strip)
    (cell : Nat) : Except OutsideWindow (Array Strip) :=
  rules.foldlM (tryRule reach time cell) strips

/-- Scans the cells of a time step. -/
def scanStep (reach : Reach) (rules : List (Rule Signal)) (width : Nat) (strips : Array Strip)
    (time : Nat) : Except OutsideWindow (Array Strip) :=
  (List.range width).foldlM (scanCell reach rules time) strips

/-- The strips before anything is computed. -/
def initialStrips (initial : Strip) (steps : Nat) : Array Strip :=
  #[initial] ++ Array.replicate steps (Strip.empty initial.size)

end Simulation

/-- The diagram of a run of some steps from an initial strip. -/
def Automaton.simulate (a : Automaton) (initial : Strip) (steps : Nat) :
    Except OutsideWindow Diagram := do
  let strips ← (List.range steps).foldlM
    (Simulation.scanStep a.reach a.rules initial.size)
    (Simulation.initialStrips initial steps)
  return ⟨strips⟩

end StripAutomata
