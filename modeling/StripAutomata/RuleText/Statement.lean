import StripAutomata.Text.Blank

/-!
# The lines of rule text

What follows the first `#` of a line is a comment.  A line that is blank without its comment says
nothing.  Any other line is a statement: it has an indent, the number of blanks that it begins
with, and a colon divides it into a condition and outputs.  Without a colon, all of it is outputs.
-/

namespace StripAutomata.RuleText

/-- A line of rule text that says something. -/
structure Statement where
  line : Nat
  indent : Nat
  condition : Option (List Char)
  outputs : List Char
  deriving DecidableEq, Repr

namespace Statement

/-- A line without its comment. -/
def withoutComment (cs : List Char) : List Char :=
  cs.takeWhile (· != '#')

/-- The number of blanks that a text begins with. -/
def indentOf (cs : List Char) : Nat :=
  (cs.takeWhile Text.isBlank).length

/-- What stands before the first colon of a text, if it has a colon, and what stands after it. -/
def splitColon (cs : List Char) : Option (List Char) × List Char :=
  match cs.dropWhile (· != ':') with
  | [] => (none, cs)
  | _ :: rest => (some (cs.takeWhile (· != ':')), rest)

/-- The statement on a line, unless the line is blank. -/
def ofLine? (number : Nat) (raw : List Char) : Option Statement :=
  let cs := withoutComment raw
  if cs.all Text.isBlank then none
  else
    let (condition, outputs) := splitColon cs
    some ⟨number, indentOf cs, condition, outputs⟩

/-- Whether the statement has outputs. -/
def hasOutputs (s : Statement) : Bool := !s.outputs.all Text.isBlank

end Statement

/-- The statements on the lines of a list, the first of which has the number `number`. -/
def statements (number : Nat) : List (List Char) → List Statement
  | [] => []
  | raw :: rest =>
    match Statement.ofLine? number raw with
    | none => statements (number + 1) rest
    | some s => s :: statements (number + 1) rest

end StripAutomata.RuleText
