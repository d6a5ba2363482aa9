import StripAutomata.Numeral
import StripAutomata.SyntaxError
import StripAutomata.Text.WordChar

/-!
# Item words

The words of a rule put numbers before a name, each ended by a mark of its own: a slash after a
time or step, a point after a position or offset.  This module takes such a word apart and reads
its numbers.

A number is a run of decimal digits of any script, with or without a sign.  Only ASCII digits have
a value, so a number in other digits has the right shape and is out of range.
-/

namespace StripAutomata.Item

/-! ## Taking words apart -/

/-- Splits a sign off the beginning of a text. -/
def splitSign : List Char → List Char × List Char
  | '+' :: cs => (['+'], cs)
  | '-' :: cs => (['-'], cs)
  | cs => ([], cs)

/-- Splits off the decimal digits at the beginning of a text and the mark after them. -/
def splitDigits? (mark : Char) (cs : List Char) : Option (List Char × List Char) :=
  match cs.takeWhile Text.isDecimalDigit, cs.dropWhile Text.isDecimalDigit with
  | [], _ => none
  | _, [] => none
  | digits, c :: rest => if c = mark then some (digits, rest) else none

/-- Splits off a number without a sign and the mark after it; where the text does not begin so,
there is no number and all of the text is left. -/
def splitCount (mark : Char) (cs : List Char) : Option (List Char) × List Char :=
  match splitDigits? mark cs with
  | some (digits, rest) => (some digits, rest)
  | none => (none, cs)

/-- Splits off a number with an optional sign and the mark after it; where the text does not begin
so, there is no number and all of the text is left. -/
def splitOffset (mark : Char) (cs : List Char) : Option (List Char) × List Char :=
  match splitDigits? mark (splitSign cs).2 with
  | some (digits, rest) => (some ((splitSign cs).1 ++ digits), rest)
  | none => (none, cs)

/-- Whether a text is a name. -/
def isName : List Char → Bool
  | [] => false
  | c :: cs => Text.isNameStart c && cs.all Text.isWordChar

/-! ## Reading their numbers -/

/-- The value of an offset that may have been left out, in which case it is zero. -/
def offsetOrZero : Option (List Char) → Except SyntaxCause Int
  | none => .ok 0
  | some cs =>
    match Numeral.offset? cs with
    | some n => .ok n
    | none => .error .offsetOutOfRange

/-- The value of a step that may have been left out, in which case it is one. -/
def stepOrOne : Option (List Char) → Except SyntaxCause Nat
  | none => .ok 1
  | some cs =>
    match Numeral.digits? Numeral.stepBound cs with
    | some n => .ok n
    | none => .error .stepOutOfRange

end StripAutomata.Item
