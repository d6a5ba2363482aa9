import StripAutomata.Json.Decode
import StripAutomata.Json.Reader
import StripAutomata.Settings.Basic

/-!
# Settings as JSON

Settings are written as a record with the keys `cells`, `steps` and `start_signal`, the last one
`null` where there is no start signal.  What is missing keeps its default, so that a missing start
signal and one that is `null` differ.

Settings that are stored in a file are read more strictly (`Settings.ofStored?`): they must be an
object, and also the members that are passed over must have texts for strings, finite numbers and
no more nesting than `storedDepth`.
-/

namespace StripAutomata.Settings

/-- The keys of settings. -/
def keys : List String := ["cells", "steps", "start_signal"]

/-- The settings as JSON. -/
def toJson (s : Settings) : Json :=
  .ofMembers [("cells", .ofNat s.cells), ("steps", .ofNat s.steps),
    ("start_signal", (s.start.map Json.ofString).getD .null)]

/-- Reads settings from JSON. -/
def ofJson? (v : Json) : Option Settings := do
  let [cells, steps, start] ← Json.record? keys v | none
  return {
    cells := ← Json.orElse? default.cells Json.size? cells
    steps := ← Json.orElse? default.steps Json.size? steps
    start := ← Json.orElse? default.start (Json.orNull? Json.text?) start }

/-- How many arrays and objects may stand inside one another in stored settings. -/
def storedDepth : Nat := 127

/-- Reads settings from a stored text. -/
def ofStored? (text : String) : Option Settings := do
  let v ← Json.parse? text
  match v with
  | .object _ => if v.isSound ∧ v.depth ≤ storedDepth then ofJson? v else none
  | _ => none

end StripAutomata.Settings
