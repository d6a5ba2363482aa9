import StripAutomata.Text.Run

/-!
# Blanks

A blank is a character with the Unicode property `White_Space`.  Blanks separate words, indent
lines and are trimmed from the ends of text.  The property has few members and is stable, so
`isBlank` lists them by code point.
-/

namespace StripAutomata.Text

/-- Whether a character is a blank: it has the Unicode property `White_Space`. -/
def isBlank (c : Char) : Bool :=
  let n := c.toNat
  (0x9 ≤ n && n ≤ 0xD) || n == 0x20 || n == 0x85 || n == 0xA0 || n == 0x1680 ||
    (0x2000 ≤ n && n ≤ 0x200A) || n == 0x2028 || n == 0x2029 || n == 0x202F || n == 0x205F ||
    n == 0x3000

/-- Drops the blanks at the end of a text. -/
def trimEnd (cs : List Char) : List Char :=
  (cs.reverse.dropWhile isBlank).reverse

/-- Drops the blanks at both ends of a text. -/
def trim (cs : List Char) : List Char :=
  trimEnd (cs.dropWhile isBlank)

/-- The words of a text: its longest stretches without a blank. -/
def words (cs : List Char) : List (List Char) :=
  runs (fun c => !isBlank c) cs

end StripAutomata.Text
