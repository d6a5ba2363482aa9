import StripAutomata.Json.Decode
import StripAutomata.Strip.Basic

/-!
# Strips as JSON

A strip is written as a record with the key `cells`: for each cell the array of its handles,
ascending.  Reading takes the handles of a cell in any order and number.
-/

namespace StripAutomata

/-- The handles of a set, ascending. -/
def SignalSet.toJson (set : SignalSet) : Json :=
  .array (set.toList.map fun s => .ofNat s.index)

/-- A signal, by its handle. -/
def Signal.ofJson? (v : Json) : Option Signal :=
  (Json.nat? Signal.bound v).map Signal.mk

/-- A set of signals, by their handles. -/
def SignalSet.ofJson? (v : Json) : Option SignalSet :=
  (Json.list? Signal.ofJson? v).map SignalSet.ofList

namespace Strip

/-- The strip as JSON. -/
def toJson (strip : Strip) : Json :=
  .ofMembers [("cells", .array (strip.cells.toList.map SignalSet.toJson))]

/-- Reads a strip from JSON. -/
def ofJson? (v : Json) : Option Strip := do
  let [some cells] ← Json.record? ["cells"] v | none
  return ⟨(← Json.list? SignalSet.ofJson? cells).toArray⟩

end Strip
end StripAutomata
