import StripAutomata.Strip.Basic

/-!
# Neighborhoods

A neighborhood is what a condition sees of a strip: a window of offsets around a focal cell.
Within the window, an offset that leads off the strip shows an empty cell; outside the window, it
is refused with `OutsideWindow`, whatever the strip holds.

The focal cell is given by a number of 64 bits.  Offsets count from it as a signed number, so
that a focal cell in the upper half of the range lies to the left of the strip.
-/

namespace StripAutomata

/-- The refusal of an offset that the window does not cover. -/
structure OutsideWindow where
  offset : Int
  least : Int
  greatest : Int
  deriving DecidableEq, Repr

/-- The wording of the refusal. -/
def OutsideWindow.message (e : OutsideWindow) : String :=
  s!"neighborhood offset {e.offset} outside window [{e.least}, {e.greatest}]"

/-- The cells of a strip around a focal cell, as far as a window of offsets reaches. -/
structure Neighborhood where
  strip : Strip
  focal : Nat
  least : Int
  greatest : Int

/-- The view of a strip around a focal cell. -/
def Strip.neighborhood (strip : Strip) (focal : Nat) (least greatest : Int) : Neighborhood :=
  ⟨strip, focal, least, greatest⟩

namespace Neighborhood

/-- The focal cell as a signed number of 64 bits. -/
def origin (hood : Neighborhood) : Int :=
  if hood.focal < 0x8000000000000000 then hood.focal
  else (hood.focal : Int) - 0x10000000000000000

/-- The signals at a place of the number line, of which the cells are the beginning from zero. -/
def signalsAt (hood : Neighborhood) : Int → SignalSet
  | .ofNat index => hood.strip.cellOrEmpty index
  | .negSucc _ => ∅

/-- The signals at an offset from the focal cell. -/
def get (hood : Neighborhood) (offset : Int) : Except OutsideWindow SignalSet :=
  if hood.least ≤ offset ∧ offset ≤ hood.greatest then
    .ok (hood.signalsAt (hood.origin + offset))
  else
    .error ⟨offset, hood.least, hood.greatest⟩

end Neighborhood
end StripAutomata
