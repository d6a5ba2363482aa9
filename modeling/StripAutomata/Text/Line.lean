/-!
# Lines

A line feed ends a line, and one carriage return right before it belongs to the ending.  What
follows the last line feed is a line of its own unless it is empty; a carriage return there, or
anywhere else in a line, is an ordinary character.
-/

namespace StripAutomata.Text

/-- The lines of a text, without their endings. -/
def lines : List Char → List (List Char)
  | [] => []
  | c :: cs =>
    if c = '\n' then [] :: lines cs
    else if c = '\r' ∧ cs.head? = some '\n' then
      -- The ending is opened by this character and closed by the next one.
      lines cs
    else
      match lines cs with
      | [] => [[c]]
      | l :: ls => (c :: l) :: ls

/-- A text has no lines only when it is empty. -/
theorem lines_eq_nil_iff {cs : List Char} : lines cs = [] ↔ cs = [] := by
  induction cs with
  | nil => simp [lines]
  | cons c cs ih =>
    simp only [lines, reduceCtorEq, iff_false]
    split
    · simp
    · split
      next h =>
        rw [ih]
        rintro rfl
        simp at h
      next => split <;> simp

end StripAutomata.Text
