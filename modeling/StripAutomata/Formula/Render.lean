import StripAutomata.Formula.Basic

/-!
# The written form of formulas

A formula over names is written so that it can be read again.  A literal is
`[time/][position.][-]name`, where a zero offset is left out; a conjunction stands in round
brackets and a disjunction in square ones, operands separated by single spaces.  The negation of a
literal puts its sign before the name, any other negation puts it before the operand.

The formula `always` is written as nothing at all, and its negation as the empty disjunction `[]`.
-/

namespace StripAutomata

/-- The written form of a literal, or of its negation. -/
def Literal.render (negative : Bool) (l : Literal String) : String :=
  (if l.time = 0 then "" else s!"{l.time}/") ++
    (if l.position = 0 then "" else s!"{l.position}.") ++
    (if negative then "-" else "") ++ l.signal

namespace Formula

mutual

/-- The written form of a formula. -/
def render : Formula String → String
  | always => ""
  | literal l => l.render false
  | negation always => "[]"
  | negation (literal l) => l.render true
  | negation c => "-" ++ c.render
  | conjunction cs => "(" ++ " ".intercalate (renderAll cs) ++ ")"
  | disjunction cs => "[" ++ " ".intercalate (renderAll cs) ++ "]"

/-- The written forms of the formulas of a list. -/
def renderAll : List (Formula String) → List String
  | [] => []
  | c :: cs => c.render :: renderAll cs

end

theorem renderAll_eq_map (cs : List (Formula String)) : renderAll cs = cs.map render := by
  induction cs with
  | nil => rfl
  | cons c cs ih => rw [renderAll, ih, List.map_cons]

end Formula
end StripAutomata
