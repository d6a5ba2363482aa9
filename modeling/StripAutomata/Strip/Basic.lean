import StripAutomata.Signal.Set

/-!
# Strips

A strip is the state of all cells at one time step: a fixed number of cells in a row, each with
the set of signals that are active in it.  A cell that does not exist holds nothing; putting a
signal there fails with `NoSuchCell` when it is asked for by a caller (`Strip.insert`) and is lost
when it is done in passing (`Strip.place`).
-/

namespace StripAutomata

/-- The refusal of a cell that a strip does not have. -/
structure NoSuchCell where
  index : Nat
  size : Nat
  deriving DecidableEq, Repr

/-- The wording of the refusal. -/
def NoSuchCell.message (e : NoSuchCell) : String :=
  s!"cell index {e.index} out of range for configuration of {e.size} cells"

/-- The cells of a row at one time step, from left to right. -/
structure Strip where
  cells : Array SignalSet
  deriving DecidableEq

namespace Strip

/-- A strip of cells that hold nothing. -/
def empty (size : Nat) : Strip := ⟨Array.replicate size ∅⟩

instance : Inhabited Strip := ⟨empty 0⟩

/-- The number of cells. -/
def size (strip : Strip) : Nat := strip.cells.size

@[simp] theorem size_empty (size : Nat) : (empty size).size = size := by
  simp [empty, Strip.size]

/-- The signals of a cell, if there is such a cell. -/
def cell? (strip : Strip) (index : Nat) : Option SignalSet := strip.cells[index]?

/-- The signals of a cell; there are none where there is no cell. -/
def cellOrEmpty (strip : Strip) (index : Nat) : SignalSet := (strip.cell? index).getD ∅

/-- Whether a cell holds a signal. -/
def contains (strip : Strip) (index : Nat) (s : Signal) : Bool :=
  (strip.cellOrEmpty index).contains s

/-- Adds a signal to a cell, or changes nothing where there is no cell. -/
def place (strip : Strip) (index : Nat) (s : Signal) : Strip :=
  ⟨strip.cells.modify index (·.insert s)⟩

/-- Adds a signal to a cell that must exist, and says whether it is new there. -/
def insert (strip : Strip) (index : Nat) (s : Signal) : Except NoSuchCell (Bool × Strip) :=
  if index < strip.size then .ok (!strip.contains index s, strip.place index s)
  else .error ⟨index, strip.size⟩

/-- The cells that hold anything, from left to right. -/
def active (strip : Strip) : List Nat :=
  (List.range strip.size).filter fun index => !(strip.cellOrEmpty index).isEmpty

/-! ## What placing a signal does -/

@[simp] theorem size_place (strip : Strip) (index : Nat) (s : Signal) :
    (strip.place index s).size = strip.size := by
  simp [place, size]

theorem cell?_place (strip : Strip) (index i : Nat) (s : Signal) :
    (strip.place index s).cell? i =
      if index = i then (strip.cell? i).map (·.insert s) else strip.cell? i := by
  simp [place, cell?, Array.getElem?_modify]

end Strip
end StripAutomata
