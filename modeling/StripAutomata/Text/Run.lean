/-!
# Runs of characters

Text is cut into pieces by a test on characters: the longest stretches of characters that pass
the test are kept together, and each character that fails it stands alone.  Words between blanks
and the units of a condition are both read off such a cutting.

`pieces` makes the cutting, and `runs` keeps the stretches only.
-/

namespace StripAutomata.Text

/-- A stretch of characters that belong together, or one character between stretches. -/
inductive Piece where
  | run (characters : List Char)
  | mark (character : Char)
  deriving DecidableEq, Repr

namespace Piece

/-- The stretch that a piece holds, if it is one. -/
def run? : Piece → Option (List Char)
  | run cs => some cs
  | mark _ => none

end Piece

/-- Cuts text into the longest stretches of characters that pass `keep` and the single
characters that do not. -/
def pieces (keep : Char → Bool) : List Char → List Piece
  | [] => []
  | c :: cs =>
    if keep c then
      match pieces keep cs with
      | .run r :: rest => .run (c :: r) :: rest
      | rest => .run [c] :: rest
    else
      .mark c :: pieces keep cs

/-- The longest stretches of characters that pass `keep`. -/
def runs (keep : Char → Bool) (cs : List Char) : List (List Char) :=
  (pieces keep cs).filterMap Piece.run?

end StripAutomata.Text
