/-!
# Numerals

Whole numbers are written in decimal with ASCII digits.  A number without a sign may still be
written with a leading plus and with leading zeros; an offset may carry either sign.  Every number
has a bound, and a spelling can be refused for three reasons, listed in `NumeralFault`.

* `Numeral.unsigned` reads a number below a bound;
* `Numeral.offset?` reads an offset of 32 bits.

Digits are read from the left, and the first offence decides: a character that is no digit before
the bound is passed, or the digit with which the value passes the bound.
-/

namespace StripAutomata

/-- Why a spelling is no number of the kind that is asked for. -/
inductive NumeralFault where
  | empty
  | invalidDigit
  | tooLarge
  deriving DecidableEq, Repr

/-- The wording of a refused spelling. -/
def NumeralFault.message : NumeralFault → String
  | empty => "cannot parse integer from empty string"
  | invalidDigit => "invalid digit found in string"
  | tooLarge => "number too large to fit in target type"

namespace Numeral

/-- The value of an ASCII digit. -/
def digitValue? (c : Char) : Option Nat :=
  if c.isDigit then some (c.toNat - '0'.toNat) else none

/-- Reads digits after a number that has the value `value` so far, staying below `bound`. -/
def extend (bound value : Nat) : List Char → Except NumeralFault Nat
  | [] => .ok value
  | c :: cs =>
    match digitValue? c with
    | none => .error .invalidDigit
    | some d =>
      if value * 10 + d < bound then extend bound (value * 10 + d) cs else .error .tooLarge

/-- Reads a number below `bound`, which a plus may precede. -/
def unsigned (bound : Nat) : List Char → Except NumeralFault Nat
  | [] => .error .empty
  | ['+'] => .error .invalidDigit
  | '+' :: cs => extend bound 0 cs
  | cs => extend bound 0 cs

/-- Steps are numbers of 32 bits. -/
def stepBound : Nat := 0x100000000

/-- Sizes are numbers of 64 bits. -/
def sizeBound : Nat := 0x10000000000000000

/-- Reads digits below `bound`; no digit at all is no number. -/
def digits? (bound : Nat) (cs : List Char) : Option Nat :=
  if cs.isEmpty then none else (extend bound 0 cs).toOption

/-- Offsets are numbers of 32 bits with a sign, so this many of them are not negative. -/
def offsetBound : Nat := 0x80000000

/-- Reads an offset, which has an optional sign.  Below zero there is room for one more. -/
def offset? : List Char → Option Int
  | '-' :: cs => (digits? (offsetBound + 1) cs).map fun n => -(n : Int)
  | '+' :: cs => (digits? offsetBound cs).map Int.ofNat
  | cs => (digits? offsetBound cs).map Int.ofNat

end Numeral
end StripAutomata
