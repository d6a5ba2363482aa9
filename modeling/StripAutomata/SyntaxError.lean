/-!
# Errors in rule text

Reading stops at the first thing that is wrong.  The error names the line, counted from one, the
part of the line that is at fault, and the cause.
-/

namespace StripAutomata

/-- What can be wrong with rule text. -/
inductive SyntaxCause where
  | signWithoutOperand
  | nestedTooDeeply
  | unbalancedClosing
  | mismatchedClosing
  | unclosedGroup
  | emptyConjunction
  | malformedConditionItem
  | offsetOutOfRange
  | malformedOutputItem
  | stepOutOfRange
  | sameStepElsewhere
  | outputsWithoutCondition
  deriving DecidableEq, Repr

/-- The wording of a cause. -/
def SyntaxCause.message : SyntaxCause → String
  | signWithoutOperand => "sign without operand"
  | nestedTooDeeply => "groups nested too deeply"
  | unbalancedClosing => "unbalanced closing bracket"
  | mismatchedClosing => "mismatched closing bracket"
  | unclosedGroup => "unclosed group"
  | emptyConjunction => "empty conjunction group"
  | malformedConditionItem => "malformed condition item"
  | offsetOutOfRange => "offset out of range"
  | malformedOutputItem => "malformed output item"
  | stepOutOfRange => "step out of range"
  | sameStepElsewhere => "same-step outputs may only target their own cell"
  | outputsWithoutCondition => "outputs without an enclosing condition"

/-- What is wrong, and the part of the line that it is wrong with. -/
structure Fault where
  token : String
  cause : SyntaxCause
  deriving DecidableEq, Repr

/-- What is wrong, and the line that it is wrong on. -/
structure SyntaxError where
  line : Nat
  fault : Fault
  deriving DecidableEq, Repr

/-- The wording of the error. -/
def SyntaxError.message (e : SyntaxError) : String :=
  s!"syntax error on line {e.line} at `{e.fault.token}`: {e.fault.cause.message}"

end StripAutomata
