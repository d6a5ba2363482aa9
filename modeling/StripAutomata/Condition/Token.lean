import StripAutomata.Text.Blank

/-!
# The units of a written condition

A condition is written in words and brackets.  Blanks and brackets separate words and a bracket
always stands for itself, so the units of a text are its pieces under `isWordPart` without the
blanks.
-/

namespace StripAutomata.Condition

/-- The two kinds of brackets: round for conjunctions, square for disjunctions. -/
inductive Bracket where
  | round
  | square
  deriving DecidableEq, Repr

namespace Bracket

/-- The bracket that opens a group. -/
def opening : Bracket → Char
  | round => '('
  | square => '['

/-- The bracket that closes a group. -/
def closing : Bracket → Char
  | round => ')'
  | square => ']'

end Bracket

/-- A unit of a written condition. -/
inductive Token where
  | opening (bracket : Bracket)
  | closing (bracket : Bracket)
  | word (text : String)
  deriving DecidableEq, Repr

/-- Whether a character goes on with a word: it is neither a blank nor a bracket. -/
def isWordPart (c : Char) : Bool :=
  !(Text.isBlank c || c == '(' || c == ')' || c == '[' || c == ']')

namespace Token

/-- The bracket unit of a character, if the character is a bracket. -/
def ofBracket? : Char → Option Token
  | '(' => some (opening .round)
  | '[' => some (opening .square)
  | ')' => some (closing .round)
  | ']' => some (closing .square)
  | _ => none

/-- The unit that a piece of text is, unless it is a blank. -/
def ofPiece? : Text.Piece → Option Token
  | .run cs => some (word (String.ofList cs))
  | .mark c => ofBracket? c

/-- The units of a text. -/
def scan (cs : List Char) : List Token :=
  (Text.pieces isWordPart cs).filterMap ofPiece?

/-- The text of a unit. -/
def characters : Token → List Char
  | opening b => [b.opening]
  | closing b => [b.closing]
  | word w => w.toList

end Token
end StripAutomata.Condition
