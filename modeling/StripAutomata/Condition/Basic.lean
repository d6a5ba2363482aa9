import StripAutomata.Formula.Build
import StripAutomata.Condition.Token

/-!
# Written conditions

A condition is written as a row of items.  An item is a literal, a sign before an item, or a
group of items in brackets:

* a literal is `[time/][position.][sign]name`, where a minus says that the signal is absent;
* a sign of its own is a plus, which changes nothing, or a minus, which negates;
* round brackets hold the operands of a conjunction, square ones those of a disjunction.

`Condition` is the tree of an item as it was written; `Condition.formula` is what it means, built
with the builders of formulas.  The row of items as a whole is a conjunction.
-/

namespace StripAutomata

/-- An item of a written condition. -/
inductive Condition where
  | literal (l : Literal String) (negative : Bool)
  | signed (negative : Bool) (operand : Condition)
  | group (bracket : Condition.Bracket) (items : List Condition)

namespace Condition

/-- The number of groups and signs that may stand inside one another. -/
def maxDepth : Nat := 256

mutual

/-- What an item means. -/
def formula : Condition → Formula String
  | literal l negative => if negative then (Formula.literal l).negate else .literal l
  | signed negative c => if negative then c.formula.negate else c.formula
  | group .round cs => .all (formulas cs)
  | group .square cs => .any (formulas cs)

/-- What the items of a list mean. -/
def formulas : List Condition → List (Formula String)
  | [] => []
  | c :: cs => c.formula :: formulas cs

end

theorem formulas_eq_map (cs : List Condition) : formulas cs = cs.map formula := by
  induction cs with
  | nil => rfl
  | cons c cs ih => rw [formulas, ih, List.map_cons]

mutual

/-- How many groups and signs stand inside one another in an item. -/
def depth : Condition → Nat
  | literal _ _ => 0
  | signed _ c => c.depth + 1
  | group _ cs => depthAll cs + 1

/-- The depth of the deepest item of a list. -/
def depthAll : List Condition → Nat
  | [] => 0
  | c :: cs => max c.depth (depthAll cs)

end

end Condition
end StripAutomata
