import StripAutomata.Json.Basic

/-!
# The lexemes of JSON

A JSON text is a row of marks, strings and atoms, with blanks between them.  A string is kept as
it stands between its quotes, escapes included; an atom is a longest stretch of other characters,
be it a number, a word or neither.  `Lexeme.scan` cuts a text up; it fails only on a string
without an end.

The second half reads the lexemes: `Lexeme.number?` and `Lexeme.text?` say what an atom and the
inside of a string stand for.
-/

namespace StripAutomata.Json

/-- A unit of a JSON text. -/
inductive Lexeme where
  | mark (c : Char)
  | atom (characters : List Char)
  | string (inside : List Char)
  deriving DecidableEq, Repr

namespace Lexeme

/-! ## Cutting up a text -/

/-- Whether a character separates lexemes and says nothing else. -/
def isGap (c : Char) : Bool := c == ' ' || c == '\t' || c == '\n' || c == '\r'

/-- Whether a character is a lexeme of its own: a bracket, a brace, a comma or a colon. -/
def isMark (c : Char) : Bool :=
  c == '[' || c == ']' || c == '\x7b' || c == '\x7d' || c == ',' || c == ':'

/-- Where in a text the scan is.  What has been seen of an atom or a string is kept with the last
character first. -/
inductive Mode where
  | between
  | inAtom (seen : List Char)
  | inString (seen : List Char) (escaped : Bool)

namespace Mode

/-- The lexeme that ends where a blank, a mark, a quote or the end of the text follows. -/
def ended : Mode → List Lexeme
  | inAtom seen => [.atom seen.reverse]
  | _ => []

/-- What an atom has become with one more character. -/
def atomWith : Mode → Char → Mode
  | inAtom seen, c => inAtom (c :: seen)
  | _, c => inAtom [c]

end Mode

/-- Cuts up a text from some place on. -/
def scanFrom : Mode → List Char → Option (List Lexeme)
  | .inString _ _, [] => none
  | mode, [] => some mode.ended
  | .inString seen true, c :: cs => scanFrom (.inString (c :: seen) false) cs
  | .inString seen false, c :: cs =>
    if c = '"' then (scanFrom .between cs).map (.string seen.reverse :: ·)
    else scanFrom (.inString (c :: seen) (c == '\\')) cs
  | mode, c :: cs =>
    if c = '"' then (scanFrom (.inString [] false) cs).map (mode.ended ++ ·)
    else if isGap c then (scanFrom .between cs).map (mode.ended ++ ·)
    else if isMark c then (scanFrom .between cs).map (mode.ended ++ .mark c :: ·)
    else scanFrom (mode.atomWith c) cs

/-- The lexemes of a text. -/
def scan (cs : List Char) : Option (List Lexeme) := scanFrom .between cs

/-! ## Numbers -/

/-- Splits off the digits at the beginning of a text, of which there must be one. -/
def splitDigits? (cs : List Char) : Option (List Char × List Char) :=
  match cs.takeWhile Char.isDigit with
  | [] => none
  | digits => some (digits, cs.dropWhile Char.isDigit)

/-- The fraction at the beginning of a text: its digits, none where there is no point. -/
def splitFraction? : List Char → Option (List Char × List Char)
  | '.' :: cs => splitDigits? cs
  | cs => some ([], cs)

/-- The exponent that a text is, and zero for no text. -/
def exponent? : List Char → Option Int
  | [] => some 0
  | e :: cs =>
    if e = 'e' ∨ e = 'E' then
      let (negative, cs) : Bool × List Char :=
        match cs with
        | '-' :: cs => (true, cs)
        | '+' :: cs => (false, cs)
        | cs => (false, cs)
      match splitDigits? cs with
      | some (digits, []) =>
        let n := JsonNumber.value digits
        some (if negative then -(n : Int) else n)
      | _ => none
    else none

/-- The number that follows its sign. -/
def unsigned? (negative : Bool) (cs : List Char) : Option JsonNumber := do
  let (whole, cs) ← splitDigits? cs
  if whole.head? = some '0' ∧ whole.length ≠ 1 then none
  else if cs.isEmpty then return .ofWhole negative whole
  else do
    let (fraction, cs) ← splitFraction? cs
    return .ofParts negative whole fraction (← exponent? cs)

/-- The number that an atom stands for. -/
def number? : List Char → Option JsonNumber
  | '-' :: cs => unsigned? true cs
  | cs => unsigned? false cs

/-! ## Strings -/

/-- A character of a string, or a code of 16 bits from an escape, of which two may make one
character. -/
inductive Unit16 where
  | character (c : Char)
  | code (n : Nat)
  deriving DecidableEq, Repr

/-- The value of a hexadecimal digit. -/
def hexValue? (c : Char) : Option Nat :=
  if c.isDigit then some (c.toNat - '0'.toNat)
  else if 'a' ≤ c ∧ c ≤ 'f' then some (c.toNat - 'a'.toNat + 10)
  else if 'A' ≤ c ∧ c ≤ 'F' then some (c.toNat - 'A'.toNat + 10)
  else none

/-- The value of four hexadecimal digits. -/
def hexValue4? (a b c d : Char) : Option Nat := do
  let high := (← hexValue? a) * 16 + (← hexValue? b)
  let low := (← hexValue? c) * 16 + (← hexValue? d)
  return high * 256 + low

/-- The character of an escape of one letter. -/
def escaped? : Char → Option Char
  | '"' => some '"'
  | '\\' => some '\\'
  | '/' => some '/'
  | 'b' => some '\x08'
  | 'f' => some '\x0c'
  | 'n' => some '\n'
  | 'r' => some '\r'
  | 't' => some '\t'
  | _ => none

/-- The units of the inside of a string; control characters must be escaped. -/
def units? : List Char → Option (List Unit16)
  | [] => some []
  | '\\' :: 'u' :: a :: b :: c :: d :: rest => do
    let code ← hexValue4? a b c d
    return .code code :: (← units? rest)
  | '\\' :: e :: rest => do
    let c ← escaped? e
    return .character c :: (← units? rest)
  | c :: rest =>
    if c = '\\' ∨ c.toNat < 0x20 then none
    else do return .character c :: (← units? rest)

/-- Whether a code is the first half of a character. -/
def isLeading (n : Nat) : Bool := 0xD800 ≤ n && n < 0xDC00

/-- Whether a code is the second half of a character. -/
def isTrailing (n : Nat) : Bool := 0xDC00 ≤ n && n < 0xE000

/-- The characters of units; each half of a character must meet the other. -/
def join? : List Unit16 → Option (List Char)
  | [] => some []
  | .character c :: rest => (join? rest).map (c :: ·)
  | .code n :: .code m :: rest =>
    if isLeading n && isTrailing m then
      (join? rest).map (Char.ofNat (0x10000 + (n - 0xD800) * 0x400 + (m - 0xDC00)) :: ·)
    else if isLeading n || isTrailing n then none
    else (join? (.code m :: rest)).map (Char.ofNat n :: ·)
  | .code n :: rest =>
    if isLeading n || isTrailing n then none else (join? rest).map (Char.ofNat n :: ·)

/-- The text that the inside of a string stands for; it is `none` inside where halves of characters
are left over, and `none` altogether where the string is malformed. -/
def text? (inside : List Char) : Option (Option String) :=
  (units? inside).map fun units => (join? units).map String.ofList

end Lexeme
end StripAutomata.Json
