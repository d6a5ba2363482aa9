/-!
# Signals

A signal is known to the rules and to the strip by a handle: its place in the order in which the
names of an automaton were first seen.  Handles are compared and ordered by that place, and are
shown as `#` and the place.  Which name a handle stands for is the business of a lexicon.
-/

namespace StripAutomata

/-- A signal, by its place in the order of first mention. -/
structure Signal where
  index : Nat
  deriving DecidableEq, Repr

namespace Signal

/-- The number of handles that there are: a place is a number of 32 bits. -/
def bound : Nat := 0x100000000

instance : LT Signal where
  lt a b := a.index < b.index

instance (a b : Signal) : Decidable (a < b) :=
  inferInstanceAs (Decidable (a.index < b.index))

theorem lt_trans {a b c : Signal} : a < b → b < c → a < c :=
  fun hab hbc => Nat.lt_trans hab hbc

theorem lt_irrefl (a : Signal) : ¬ a < a := Nat.lt_irrefl a.index

/-- Of two signals that are different, one comes first. -/
theorem lt_or_lt_of_ne {a b : Signal} (h : a ≠ b) : a < b ∨ b < a := by
  have hne : a.index ≠ b.index := fun e => h (by cases a; cases b; exact congrArg Signal.mk e)
  exact Nat.lt_or_gt_of_ne hne

/-- The handle as it is shown. -/
def text (s : Signal) : String := s!"#{s.index}"

end Signal
end StripAutomata
