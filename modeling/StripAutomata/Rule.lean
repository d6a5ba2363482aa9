import StripAutomata.Formula.Render
import StripAutomata.Signal.Set

/-!
# Rules

A rule has a condition and outputs.  When the condition holds at a cell, each output places its
signal a number of steps later and a number of cells away.  An output of the same step (`step` is
zero) is meant for the cell itself.

Like formulas, rules leave open what a signal is: `Rule.map` goes from names to handles and back.
The written form is `condition: outputs` with outputs `step/offset.name`, both numbers always
written.
-/

namespace StripAutomata

/-- The placing of a signal, relative to the cell and the step at which a rule fires. -/
structure Output (σ : Type) where
  offset : Int
  signal : σ
  step : Nat
  deriving DecidableEq, Repr

namespace Output

variable {σ τ : Type}

/-- The output of another kind of signal. -/
def map (f : σ → τ) (o : Output σ) : Output τ := ⟨o.offset, f o.signal, o.step⟩

/-- Whether the output lands in the step at which the rule fires. -/
def isSameStep (o : Output σ) : Bool := o.step == 0

/-- The written form of an output. -/
def render (o : Output String) : String := s!"{o.step}/{o.offset}.{o.signal}"

end Output

/-- A condition and what is placed where it holds. -/
structure Rule (σ : Type) where
  condition : Formula σ
  outputs : List (Output σ)
  deriving DecidableEq

namespace Rule

variable {σ τ : Type}

/-- The rule about another kind of signal. -/
def map (f : σ → τ) (r : Rule σ) : Rule τ :=
  ⟨r.condition.map f, r.outputs.map (Output.map f)⟩

/-- The signals that a rule reads or places. -/
def signals (r : Rule σ) : List σ :=
  r.condition.literals.map (·.signal) ++ r.outputs.map (·.signal)

/-- The offsets from the focal cell at which a rule reads or places signals. -/
def offsets (r : Rule σ) : List Int :=
  r.condition.literals.map (·.position) ++ r.outputs.map (·.offset)

/-- The written form of a rule. -/
def render (r : Rule String) : String :=
  r.condition.render ++ ": " ++ " ".intercalate (r.outputs.map Output.render)

end Rule
end StripAutomata
