import StripAutomata.Condition.Basic
import StripAutomata.Item

/-!
# The words of a condition

A word is a literal, `[time/][position.][sign]name`, or a sign of its own.  The shape of the word
is looked at first; only then are the numbers read, the time before the position, and a number
that is no offset is out of range.
-/

namespace StripAutomata.Condition

/-- Whether a word is a sign of its own, and if so, whether it negates. -/
def sign? (word : String) : Option Bool :=
  if word = "-" then some true else if word = "+" then some false else none

/-- Reads a word as a literal and says whether its sign is a minus. -/
def readLiteral (word : String) : Except SyntaxCause (Literal String × Bool) :=
  let (time, afterTime) := Item.splitOffset '/' word.toList
  let (position, afterPosition) := Item.splitOffset '.' afterTime
  let (sign, name) := Item.splitSign afterPosition
  if Item.isName name then do
    let t ← Item.offsetOrZero time
    let p ← Item.offsetOrZero position
    return (⟨String.ofList name, p, t⟩, sign == ['-'])
  else .error .malformedConditionItem

end StripAutomata.Condition
