import StripAutomata.Json.Basic

/-!
# Writing JSON

A value is written compactly, without any blank, or laid out: each item and each member on a line
of its own, two blanks deeper than its array or object, with a blank after the colon.  An array
or object without content stays on one line in both.

In a string only the quote, the backslash and the control characters are escaped.  A string
without text is written as half a character, which is what it was read from.
-/

namespace StripAutomata.Json

/-- The hexadecimal digit of a number below sixteen. -/
def hexDigit (n : Nat) : Char := n.digitChar

/-- A character inside a string. -/
def escape (c : Char) : List Char :=
  if c = '"' then ['\\', '"']
  else if c = '\\' then ['\\', '\\']
  else if c = '\x08' then ['\\', 'b']
  else if c = '\t' then ['\\', 't']
  else if c = '\n' then ['\\', 'n']
  else if c = '\x0c' then ['\\', 'f']
  else if c = '\r' then ['\\', 'r']
  else if c.toNat < 0x20 then
    ['\\', 'u', '0', '0', hexDigit (c.toNat / 16), hexDigit (c.toNat % 16)]
  else [c]

/-- A string with its quotes. -/
def quote : Option String → List Char
  | some s => '"' :: s.toList.flatMap escape ++ ['"']
  | none => ['"', '\\', 'u', 'd', '8', '0', '0', '"']

/-- A minus for a negative number. -/
def sign (negative : Bool) : List Char := if negative then ['-'] else []

/-- A number. -/
def numeral : JsonNumber → List Char
  | .integer negative magnitude => sign negative ++ Nat.toDigits 10 magnitude
  | .decimal negative significand scale =>
    sign negative ++ Nat.toDigits 10 significand ++ 'e' :: sign (decide (scale < 0)) ++
      Nat.toDigits 10 scale.natAbs

/-- A value that holds no other values. -/
def scalar : Json → List Char
  | bool true => ['t', 'r', 'u', 'e']
  | bool false => ['f', 'a', 'l', 's', 'e']
  | number n => numeral n
  | string text => quote text
  | _ => ['n', 'u', 'l', 'l']

/-! ## Compact -/

mutual

/-- A value without blanks. -/
def compact : Json → List Char
  | array items => '[' :: compactItems items ++ [']']
  | object members => '\x7b' :: compactMembers members ++ ['\x7d']
  | v => v.scalar

/-- The items of an array without blanks, with commas between them. -/
def compactItems : List Json → List Char
  | [] => []
  | [v] => v.compact
  | v :: vs => v.compact ++ ',' :: compactItems vs

/-- The members of an object without blanks, with commas between them. -/
def compactMembers : List (Option String × Json) → List Char
  | [] => []
  | [(key, v)] => quote key ++ ':' :: v.compact
  | (key, v) :: ms => quote key ++ ':' :: v.compact ++ ',' :: compactMembers ms

end

/-! ## Laid out -/

/-- The beginning of a line at some depth. -/
def newLine (depth : Nat) : List Char := '\n' :: List.replicate (2 * depth) ' '

mutual

/-- A value laid out at some depth. -/
def pretty (depth : Nat) : Json → List Char
  | array [] => ['[', ']']
  | array items => '[' :: prettyItems (depth + 1) items ++ newLine depth ++ [']']
  | object [] => ['\x7b', '\x7d']
  | object members => '\x7b' :: prettyMembers (depth + 1) members ++ newLine depth ++ ['\x7d']
  | v => v.scalar

/-- The items of an array, each on a line of its own. -/
def prettyItems (depth : Nat) : List Json → List Char
  | [] => []
  | [v] => newLine depth ++ v.pretty depth
  | v :: vs => newLine depth ++ v.pretty depth ++ ',' :: prettyItems depth vs

/-- The members of an object, each on a line of its own. -/
def prettyMembers (depth : Nat) : List (Option String × Json) → List Char
  | [] => []
  | [(key, v)] => newLine depth ++ quote key ++ ':' :: ' ' :: v.pretty depth
  | (key, v) :: ms =>
    newLine depth ++ quote key ++ ':' :: ' ' :: v.pretty depth ++ ',' :: prettyMembers depth ms

end

/-- The compact text of a value. -/
def compactText (v : Json) : String := String.ofList v.compact

/-- The laid-out text of a value. -/
def prettyText (v : Json) : String := String.ofList (v.pretty 0)

end StripAutomata.Json
