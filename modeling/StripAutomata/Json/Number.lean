/-!
# Numbers of JSON

A number is kept as an integer if it is written as one and is below `JsonNumber.bound`, since `1`
and `1.0` are accepted in different places; `-0` is the negative integer without magnitude.  Any
other number is a decimal number `± significand · 10 ^ scale`, and only so many of its digits are
kept as stay below that bound:

* digits before the point that are not kept still count for the scale;
* from the first digit behind the point on that cannot be kept, the digits count for nothing.

`JsonNumber.isFinite` says which of these numbers have a finite value as floating-point numbers of
64 bits.
-/

namespace StripAutomata

/-- A number as far as it is kept. -/
inductive JsonNumber where
  | integer (negative : Bool) (magnitude : Nat)
  | decimal (negative : Bool) (significand : Nat) (scale : Int)
  deriving DecidableEq, Repr

namespace JsonNumber

/-- What the digits that are kept stay below: 64 bits hold them. -/
def bound : Nat := 0x10000000000000000

/-! ## Digits -/

/-- The value of a digit. -/
def digitValue (c : Char) : Nat := c.toNat - '0'.toNat

/-- The value of a row of digits. -/
def value (digits : List Char) : Nat :=
  digits.foldl (fun n c => 10 * n + digitValue c) 0

/-- Puts digits behind a number as long as it stays below the bound.  The answer is the number and
how many digits are left over. -/
def keep (n : Nat) : List Char → Nat × Nat
  | [] => (n, 0)
  | c :: cs =>
    let longer := 10 * n + digitValue c
    if longer < bound then keep longer cs else (n, cs.length + 1)

/-- The number whose digits are all before the point. -/
def ofWhole (negative : Bool) (whole : List Char) : JsonNumber :=
  match keep 0 whole with
  | (n, 0) => integer negative n
  | (n, left) => decimal negative n left

/-- The number with digits before and behind the point, and with an exponent. -/
def ofParts (negative : Bool) (whole fraction : List Char) (exponent : Int) : JsonNumber :=
  let (n, left) := keep 0 whole
  let (n, cut) := keep n fraction
  decimal negative n (exponent + left - (fraction.length - cut : Nat))

/-! ## Size -/

/-- The nearest number with at most 53 binary digits before its zeros; of two nearest ones, it is
the one that is even in the last of these digits. -/
def round53 (n : Nat) : Nat :=
  let unit := Nat.pow 2 (Nat.log2 n - 52)
  let digits := n / unit
  let rest := n % unit
  if 2 * rest > unit ∨ (2 * rest = unit ∧ digits % 2 = 1) then (digits + 1) * unit
  else digits * unit

/-- The first number that is too large to be rounded to a floating-point number of 64 bits: half a
unit above the largest one. -/
def overflow : Nat := Nat.pow 2 1024 - Nat.pow 2 970

/-- Whether `significand · 10 ^ scale` is finite as a product of two floating-point numbers.  The
power of ten must be one itself, unless there is nothing to multiply. -/
def fits (significand : Nat) : Int → Bool
  | .negSucc _ => true
  | .ofNat k =>
    if significand = 0 then true
    else if k ≤ 308 then round53 significand * round53 (Nat.pow 10 k) < overflow
    else false

/-- Whether a number has a finite value as a floating-point number of 64 bits. -/
def isFinite : JsonNumber → Bool
  | integer _ magnitude => fits magnitude 0
  | decimal _ significand scale => fits significand scale

end JsonNumber
end StripAutomata
