import StripAutomata.Chart.Basic
import StripAutomata.Json.Decode

/-!
# Charts as JSON

A chart is written as a record with its width and, under the key `steps`, the names in each cell of
each step.
-/

namespace StripAutomata.Chart

/-- The names of a cell as JSON. -/
def cellToJson (names : List String) : Json := .array (names.map Json.ofString)

/-- The cells of a step as JSON. -/
def stepToJson (cells : List (List String)) : Json := .array (cells.map cellToJson)

/-- The chart as JSON. -/
def toJson (c : Chart) : Json :=
  .ofMembers [("width", .ofNat c.width), ("steps", .array (c.steps.map stepToJson))]

/-- Reads a chart from JSON. -/
def ofJson? (v : Json) : Option Chart := do
  let [some width, some steps] ← Json.record? ["width", "steps"] v | none
  return ⟨← Json.size? width, ← Json.list? (Json.list? (Json.list? Json.text?)) steps⟩

end StripAutomata.Chart
