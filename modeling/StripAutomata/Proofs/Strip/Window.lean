import StripAutomata.Memory
import StripAutomata.Proofs.Formula.Truth
import StripAutomata.Proofs.Item.Numbers

/-!
# What a window shows

Offsets count from the focal cell, and the cells are a beginning of the number line.  So an offset
leads to a place of the line, and the window shows what is held there: the signals of the cell of
that number, or nothing where there is no such cell (`Strip.HoldsAt`).

The focal cell is a number of 64 bits, and the place is counted from it as from a signed number
(`Neighborhood.origin`).  A focal cell in the upper half of the range is then left of the strip, and
an offset to its right may lead past the last number and on to zero: `Neighborhood.target` is the
place that is looked at.  No strip in memory reaches into the upper half, so passing the last number
is the only way in which a window can show something else than what is held at the focal cell plus
the offset.  `get_exact` says so, and `get_past_last` is such a window.
-/

namespace StripAutomata

/-- Whether a set is what a strip holds at a place of the number line: the signals of the cell
there, or no signal where there is no cell. -/
def Strip.HoldsAt (strip : Strip) (place : Int) (set : SignalSet) : Prop :=
  (∃ index : Nat, (index : Int) = place ∧ strip.cell? index = some set) ∨
    (∀ index : Nat, (index : Int) = place → strip.cell? index = none) ∧ set = ∅

namespace Neighborhood

/-- The place that an offset from a focal cell leads to, where zero follows on the last number of 64
bits. -/
def target (focal : Nat) (offset : Int) : Int :=
  if focal + offset < Numeral.sizeBound then focal + offset
  else focal + offset - Numeral.sizeBound

variable {strip : Strip} {hood : Neighborhood} {focal : Nat} {least greatest offset place : Int}
  {set : SignalSet}

/-! ## What is held at a place -/

/-- At every place one set is held. -/
lemma signalsAt_eq_iff : hood.signalsAt place = set ↔ hood.strip.HoldsAt place set := by
  cases place with
  | ofNat index =>
    have hplace : ∀ other : Nat, (other : Int) = Int.ofNat index ↔ other = index := fun _ =>
      Int.ofNat_inj
    simp only [signalsAt, Strip.cellOrEmpty, Strip.HoldsAt, hplace, exists_eq_left, forall_eq]
    cases hood.strip.cell? index <;> simp [eq_comm]
  | negSucc n =>
    have hplace : ∀ other : Nat, (other : Int) ≠ Int.negSucc n := fun _ h => Int.noConfusion h
    simp [signalsAt, Strip.HoldsAt, hplace, eq_comm]

/-- Beside the strip nothing is held. -/
lemma signalsAt_beside (h : place < 0 ∨ hood.strip.size ≤ place) : hood.signalsAt place = ∅ := by
  refine signalsAt_eq_iff.2 (Or.inr ⟨fun index hindex => ?_, rfl⟩)
  have hsize : hood.strip.cells.size ≤ index := by
    have : (hood.strip.size : Int) ≤ index := by omega
    exact_mod_cast this
  exact Array.getElem?_eq_none hsize

/-! ## Where an offset leads to -/

/-- Around the focal cell the signed place and the target hold the same: they are different only
where the signed place is left of the strip and the target is right of it. -/
lemma signalsAt_target (hroom : Memory.holds hood.strip.size = true)
    (hfocal : hood.focal < Numeral.sizeBound) (hoffset : Item.IsOffset offset) :
    hood.signalsAt (hood.origin + offset) = hood.signalsAt (target hood.focal offset) := by
  have hsize : hood.strip.size ≤ Memory.largestRow := of_decide_eq_true hroom
  simp only [Memory.largestRow] at hsize
  obtain ⟨hleast, hgreatest⟩ := hoffset
  unfold origin target
  unfold Numeral.sizeBound at *
  split_ifs with hlower hfits hfits
  · rfl
  · omega
  · rw [signalsAt_beside (Or.inl (by omega)), signalsAt_beside (Or.inr (by omega))]
  · congr 1
    omega

lemma not_covers_iff : ¬ hood.Covers offset ↔ offset < hood.least ∨ hood.greatest < offset := by
  rw [Covers, not_and_or, Int.not_le, Int.not_le]

/-- An offset is refused where the window does not cover it, and nowhere else. -/
lemma get_eq_error_iff {e : OutsideWindow} :
    hood.get offset = .error e ↔
      ¬ hood.Covers offset ∧ e = ⟨offset, hood.least, hood.greatest⟩ := by
  by_cases hcovers : hood.Covers offset
  · rw [get_of_covers hcovers]
    exact ⟨nofun, fun h => absurd hcovers h.1⟩
  · rw [get_of_not_covers hcovers, Except.error.injEq, and_iff_right hcovers, eq_comm]

/-- Where the window covers it, an offset shows what is held at its target. -/
lemma get_eq_ok_iff (hroom : Memory.holds hood.strip.size = true)
    (hfocal : hood.focal < Numeral.sizeBound) (hoffset : Item.IsOffset offset) :
    hood.get offset = .ok set ↔
      hood.Covers offset ∧ hood.strip.HoldsAt (target hood.focal offset) set := by
  by_cases hcovers : hood.Covers offset
  · rw [get_of_covers hcovers, Except.ok.injEq, signalsAt_target hroom hfocal hoffset,
      signalsAt_eq_iff, and_iff_right hcovers]
  · rw [get_of_not_covers hcovers]
    exact ⟨nofun, fun h => absurd h.1 hcovers⟩

/-! ## Past the last number -/

/-- Whether an offset leads past the last number and on to a cell with signals. -/
def PassesLast (hood : Neighborhood) (offset : Int) : Prop :=
  ∃ (index : Nat) (held : SignalSet), (hood.focal + offset : Int) = Numeral.sizeBound + index ∧
    hood.strip.cell? index = some held ∧ held ≠ ∅

lemma passesLast_iff :
    hood.PassesLast offset ↔ (Numeral.sizeBound : Int) ≤ hood.focal + offset ∧
      hood.signalsAt (hood.focal + offset - Numeral.sizeBound) ≠ ∅ := by
  constructor
  · rintro ⟨index, held, hindex, hcell, hheld⟩
    have hplace : (hood.focal + offset - Numeral.sizeBound : Int) = index := by omega
    refine ⟨by omega, fun hempty => hheld ?_⟩
    rw [← hempty, hplace, eq_comm, signalsAt_eq_iff]
    exact Or.inl ⟨index, rfl, hcell⟩
  · rintro ⟨hpast, hsignals⟩
    rcases signalsAt_eq_iff.1 (rfl : hood.signalsAt _ = _) with ⟨index, hindex, hcell⟩ | ⟨-, hempty⟩
    · exact ⟨index, _, by omega, hcell, hsignals⟩
    · exact absurd hempty hsignals

/-- At its target an offset finds what is held at the focal cell plus the offset, unless it leads
past the last number. -/
lemma signalsAt_target_eq_iff (hroom : Memory.holds hood.strip.size = true) :
    hood.signalsAt (target hood.focal offset) = hood.signalsAt (hood.focal + offset) ↔
      ¬ hood.PassesLast offset := by
  have hsize : hood.strip.size ≤ Memory.largestRow := of_decide_eq_true hroom
  rw [passesLast_iff, target]
  split_ifs with hfits
  · exact iff_of_true rfl fun hpast => absurd hpast.1 (by omega)
  · have hright : hood.signalsAt (hood.focal + offset) = ∅ := by
      refine signalsAt_beside (Or.inr ?_)
      simp only [Memory.largestRow, Numeral.sizeBound] at hsize hfits
      omega
    rw [hright, not_and_not_right]
    exact ⟨fun h _ => h, fun h => h (by omega)⟩

/-- A window shows what is held at the focal cell plus the offset, unless the offset leads past the
last number. -/
lemma forall_get_eq_ok_iff (hroom : Memory.holds hood.strip.size = true)
    (hfocal : hood.focal < Numeral.sizeBound) (hoffset : Item.IsOffset offset) :
    (∀ set, hood.get offset = .ok set ↔
        hood.Covers offset ∧ hood.strip.HoldsAt (hood.focal + offset) set) ↔
      ¬ (hood.Covers offset ∧ hood.PassesLast offset) := by
  rw [not_and, ← signalsAt_target_eq_iff hroom]
  constructor
  · intro h hcovers
    have hshown : hood.get offset = .ok (hood.signalsAt (target hood.focal offset)) :=
      (get_eq_ok_iff hroom hfocal hoffset).2 ⟨hcovers, signalsAt_eq_iff.1 rfl⟩
    exact (signalsAt_eq_iff.2 ((h _).1 hshown).2).symm
  · intro h set
    rw [get_eq_ok_iff hroom hfocal hoffset]
    refine and_congr_right fun hcovers => ?_
    rw [← signalsAt_eq_iff, ← signalsAt_eq_iff, h hcovers]

end Neighborhood

/-! ## The window is exact -/

namespace Strip

open Neighborhood in
/-- **What a window shows.**  Around any focal cell of 64 bits, whether there is such a cell or not,
an offset is refused if and only if the window does not cover it, and the refusal names the offset
and the window.  Else what is shown is what the strip holds at the target of the offset.  That is
what it holds at the focal cell plus the offset, for all offsets but those that lead past the last
number and on to a cell with signals. -/
theorem get_exact (strip : Strip) (focal : Nat) (least greatest offset : Int)
    (hroom : Memory.holds strip.size = true) (hfocal : focal < Numeral.sizeBound)
    (hoffset : Item.IsOffset offset) :
    (∀ e, (strip.neighborhood focal least greatest).get offset = .error e ↔
      (offset < least ∨ greatest < offset) ∧ e = ⟨offset, least, greatest⟩) ∧
    (∀ set, (strip.neighborhood focal least greatest).get offset = .ok set ↔
      (least ≤ offset ∧ offset ≤ greatest) ∧ strip.HoldsAt (target focal offset) set) ∧
    ((∀ set, (strip.neighborhood focal least greatest).get offset = .ok set ↔
        (least ≤ offset ∧ offset ≤ greatest) ∧ strip.HoldsAt (focal + offset) set) ↔
      ¬ ((least ≤ offset ∧ offset ≤ greatest) ∧
        (strip.neighborhood focal least greatest).PassesLast offset)) := by
  refine ⟨fun e => ?_, fun set => get_eq_ok_iff hroom hfocal hoffset,
    forall_get_eq_ok_iff hroom hfocal hoffset⟩
  rw [get_eq_error_iff, not_covers_iff]
  rfl

/-- A strip of two cells that hold a signal each. -/
def marked : Strip := ((empty 2).place 0 ⟨0⟩).place 1 ⟨1⟩

/-- Around the second of two cells, the offset to the left shows the first one and is at its own
place, and an offset further to the left than the window is refused. -/
theorem get_exact_marked :
    (Memory.holds marked.size = true ∧ 1 < Numeral.sizeBound ∧ Item.IsOffset (-1) ∧
      Item.IsOffset (-2)) ∧
    (∃ set, (marked.neighborhood 1 (-1) 0).get (-1) = .ok set ∧ ⟨0⟩ ∈ set ∧
      marked.HoldsAt ((1 : Nat) + -1) set) ∧
    (marked.neighborhood 1 (-1) 0).get (-2) = .error ⟨-2, -1, 0⟩ := by
  have hroom : Memory.holds marked.size = true := by decide
  have hfocal : 1 < Numeral.sizeBound := by decide
  have hleft : Item.IsOffset (-1) := by unfold Item.IsOffset; omega
  have hfar : Item.IsOffset (-2) := by unfold Item.IsOffset; omega
  obtain ⟨-, hshown, -⟩ := get_exact marked 1 (-1) 0 (-1) hroom hfocal hleft
  obtain ⟨hrefused, -, -⟩ := get_exact marked 1 (-1) 0 (-2) hroom hfocal hfar
  refine ⟨⟨hroom, hfocal, hleft, hfar⟩, ⟨_, rfl, by decide, ?_⟩, (hrefused _).2 ⟨by omega, rfl⟩⟩
  exact ((hshown _).1 rfl).2

/-- The view around the last number of 64 bits. -/
def pastLast : Neighborhood := marked.neighborhood (Numeral.sizeBound - 1) 0 1

/-- Around the last number of 64 bits, the offset to the right leads to no cell and still shows the
first one. -/
theorem get_past_last :
    (Memory.holds marked.size = true ∧ pastLast.focal < Numeral.sizeBound ∧ Item.IsOffset 1 ∧
      pastLast.Covers 1) ∧
    marked.HoldsAt (pastLast.focal + 1) ∅ ∧
    (∃ set, pastLast.get 1 = .ok set ∧ ⟨0⟩ ∈ set) ∧
    ¬ ∀ set, pastLast.get 1 = .ok set ↔
      pastLast.Covers 1 ∧ marked.HoldsAt (pastLast.focal + 1) set := by
  have hroom : Memory.holds marked.size = true := by decide
  have hfocal : pastLast.focal < Numeral.sizeBound := by decide
  have hoffset : Item.IsOffset 1 := by unfold Item.IsOffset; omega
  have hcovers : pastLast.Covers 1 := by decide
  have hbeside : pastLast.signalsAt (pastLast.focal + 1) = ∅ :=
    Neighborhood.signalsAt_beside (Or.inr (by decide))
  have hpasses : pastLast.PassesLast 1 := ⟨0, _, by decide, rfl, by decide⟩
  refine ⟨⟨hroom, hfocal, hoffset, hcovers⟩, Neighborhood.signalsAt_eq_iff.1 hbeside,
    ⟨_, rfl, by decide⟩, fun h => ?_⟩
  exact (Neighborhood.forall_get_eq_ok_iff hroom hfocal hoffset).1 h ⟨hcovers, hpasses⟩

end Strip
end StripAutomata
