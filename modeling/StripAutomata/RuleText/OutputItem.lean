import StripAutomata.Item
import StripAutomata.Reading
import StripAutomata.Rule
import StripAutomata.Text.Blank

/-!
# The words of outputs

A word of an outputs part is `[step/][offset.]name`.  The step has no sign and is one when it is
left out; the offset is zero when it is left out.  The shape of the word is looked at first, then
the step is read, then the offset; last, an output of the same step must stay at its cell.
-/

namespace StripAutomata.RuleText

/-- Reads a word as an output. -/
def readOutput (word : List Char) : Except SyntaxCause (Output String) :=
  let (step, afterStep) := Item.splitCount '/' word
  let (offset, name) := Item.splitOffset '.' afterStep
  if Item.isName name then do
    let t ← Item.stepOrOne step
    let n ← Item.offsetOrZero offset
    if t = 0 ∧ n ≠ 0 then .error .sameStepElsewhere
    else return ⟨n, String.ofList name, t⟩
  else .error .malformedOutputItem

/-- Reads the words of an outputs part, as far as they are outputs. -/
def readWords : List (List Char) → Reading Fault (List (Output String))
  | [] => .done []
  | word :: rest =>
    match readOutput word with
    | .error cause => .fail ⟨String.ofList word, cause⟩
    | .ok output => do
      Reading.mention output.signal ()
      (output :: ·) <$> readWords rest

/-- Reads an outputs part. -/
def readOutputs (cs : List Char) : Reading Fault (List (Output String)) :=
  readWords (Text.words cs)

end StripAutomata.RuleText
