import StripAutomata.Diagram.Basic
import StripAutomata.Strip.Json

/-!
# Diagrams as JSON

A diagram is written as a record with its strips, in the order of time, under the key
`configurations`.
-/

namespace StripAutomata.Diagram

/-- The diagram as JSON. -/
def toJson (d : Diagram) : Json :=
  .ofMembers [("configurations", .array (d.strips.toList.map Strip.toJson))]

/-- Reads a diagram from JSON. -/
def ofJson? (v : Json) : Option Diagram := do
  let [some strips] ← Json.record? ["configurations"] v | none
  return ⟨(← Json.list? Strip.ofJson? strips).toArray⟩

end StripAutomata.Diagram
