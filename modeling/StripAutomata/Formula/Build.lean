import StripAutomata.Formula.Basic

/-!
# Building formulas

The three builders keep formulas small while they are put together.

* `Formula.negate` takes a negation off instead of putting a second one on.
* `Formula.all` merges conjunctions among its operands into one and leaves out `always`; a
  conjunction of nothing is `always`.
* `Formula.any` merges disjunctions among its operands into one; it is `always` as soon as an
  operand is, and a disjunction of nothing is `never`.

A single operand is returned as it is.
-/

namespace StripAutomata.Formula

variable {σ : Type}

/-- The negation of a formula; the negation of a negation is its operand. -/
def negate : Formula σ → Formula σ
  | negation c => c
  | c => negation c

/-- What a formula adds to a conjunction that it is an operand of. -/
def conjuncts : Formula σ → List (Formula σ)
  | always => []
  | conjunction cs => cs
  | c => [c]

/-- The conjunction of the formulas of a list. -/
def all (cs : List (Formula σ)) : Formula σ :=
  match cs.flatMap conjuncts with
  | [] => always
  | [c] => c
  | cs => conjunction cs

/-- What a formula adds to a disjunction that it is an operand of. -/
def disjuncts : Formula σ → List (Formula σ)
  | disjunction cs => cs
  | c => [c]

/-- Whether a formula is the one that every cell satisfies. -/
def isAlways : Formula σ → Bool
  | always => true
  | _ => false

/-- The disjunction of the formulas of a list. -/
def any (cs : List (Formula σ)) : Formula σ :=
  if cs.any isAlways then always
  else
    match cs.flatMap disjuncts with
    | [] => never
    | [c] => c
    | cs => disjunction cs

end StripAutomata.Formula
