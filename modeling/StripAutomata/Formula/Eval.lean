import StripAutomata.Formula.Basic
import StripAutomata.Strip.Neighborhood

/-!
# Evaluating formulas

A formula is evaluated in a neighborhood.  Operands are taken from left to right and only as far
as the answer needs them, so an offset outside the window is refused exactly when evaluation gets
to it.
-/

namespace StripAutomata.Formula

mutual

/-- Whether a formula holds in a neighborhood. -/
def eval (hood : Neighborhood) : Formula Signal → Except OutsideWindow Bool
  | always => .ok true
  | literal l => do return (← hood.get l.position).contains l.signal
  | negation c => do return !(← c.eval hood)
  | conjunction cs => evalAll hood cs
  | disjunction cs => evalAny hood cs

/-- Whether every formula of a list holds; the first that does not ends the search. -/
def evalAll (hood : Neighborhood) : List (Formula Signal) → Except OutsideWindow Bool
  | [] => .ok true
  | c :: cs => do if ← c.eval hood then evalAll hood cs else return false

/-- Whether some formula of a list holds; the first that does ends the search. -/
def evalAny (hood : Neighborhood) : List (Formula Signal) → Except OutsideWindow Bool
  | [] => .ok false
  | c :: cs => do if ← c.eval hood then return true else evalAny hood cs

end

end StripAutomata.Formula
