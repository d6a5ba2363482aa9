/-!
# Formulas

A formula is a condition on the signals around a cell: a tree of literals under negation,
conjunction and disjunction.  The type leaves open what a signal is, since formulas are read with
names and evaluated with handles; `Formula.map` goes from one to the other.

A literal says that a signal is present in the cell at some position from the focal cell.  Its
time is kept for the written form only: evaluation looks at a single time step.

`Formula.never` is the negation of `always`, so that there is no constructor for it.
-/

namespace StripAutomata

/-- A signal at a position from the focal cell, with the time that was written beside it. -/
structure Literal (σ : Type) where
  signal : σ
  position : Int
  time : Int
  deriving DecidableEq, Repr

/-- A condition on the signals around a cell. -/
inductive Formula (σ : Type) where
  | always
  | literal (l : Literal σ)
  | negation (operand : Formula σ)
  | conjunction (operands : List (Formula σ))
  | disjunction (operands : List (Formula σ))
  deriving Inhabited

/-- The literal about another kind of signal. -/
def Literal.map {σ τ : Type} (f : σ → τ) (l : Literal σ) : Literal τ :=
  ⟨f l.signal, l.position, l.time⟩

namespace Formula

variable {σ τ : Type}

/-- The formula that no cell satisfies. -/
def never : Formula σ := negation always

/-! ## Equality -/

mutual

/-- Decides whether two formulas are the same tree. -/
def decEq [DecidableEq σ] : (a b : Formula σ) → Decidable (a = b)
  | always, always => isTrue rfl
  | literal l, literal m =>
    if h : l = m then isTrue (congrArg literal h) else isFalse fun e => h (literal.inj e)
  | negation a, negation b =>
    match decEq a b with
    | isTrue h => isTrue (congrArg negation h)
    | isFalse h => isFalse fun e => h (negation.inj e)
  | conjunction as, conjunction bs =>
    match decEqAll as bs with
    | isTrue h => isTrue (congrArg conjunction h)
    | isFalse h => isFalse fun e => h (conjunction.inj e)
  | disjunction as, disjunction bs =>
    match decEqAll as bs with
    | isTrue h => isTrue (congrArg disjunction h)
    | isFalse h => isFalse fun e => h (disjunction.inj e)
  | always, literal _ | always, negation _ | always, conjunction _ | always, disjunction _
  | literal _, always | literal _, negation _ | literal _, conjunction _ | literal _, disjunction _
  | negation _, always | negation _, literal _ | negation _, conjunction _
  | negation _, disjunction _
  | conjunction _, always | conjunction _, literal _ | conjunction _, negation _
  | conjunction _, disjunction _
  | disjunction _, always | disjunction _, literal _ | disjunction _, negation _
  | disjunction _, conjunction _ => isFalse nofun

/-- Decides whether two lists of formulas are the same, member by member. -/
def decEqAll [DecidableEq σ] : (as bs : List (Formula σ)) → Decidable (as = bs)
  | [], [] => isTrue rfl
  | [], _ :: _ | _ :: _, [] => isFalse nofun
  | a :: as, b :: bs =>
    match decEq a b with
    | isFalse h => isFalse fun e => h (List.cons.inj e).1
    | isTrue h =>
      match decEqAll as bs with
      | isTrue hs => isTrue (h ▸ hs ▸ rfl)
      | isFalse hs => isFalse fun e => hs (List.cons.inj e).2

end

instance [DecidableEq σ] : DecidableEq (Formula σ) := decEq

/-! ## Changing the kind of signal -/

mutual

/-- The formula about another kind of signal, with the same shape. -/
def map (f : σ → τ) : Formula σ → Formula τ
  | always => always
  | literal l => literal (l.map f)
  | negation c => negation (c.map f)
  | conjunction cs => conjunction (mapAll f cs)
  | disjunction cs => disjunction (mapAll f cs)

/-- The formulas of a list about another kind of signal. -/
def mapAll (f : σ → τ) : List (Formula σ) → List (Formula τ)
  | [] => []
  | c :: cs => c.map f :: mapAll f cs

end

theorem mapAll_eq_map (f : σ → τ) (cs : List (Formula σ)) : mapAll f cs = cs.map (map f) := by
  induction cs with
  | nil => rfl
  | cons c cs ih => rw [mapAll, ih, List.map_cons]

/-! ## Literals -/

mutual

/-- The literals of a formula, from left to right. -/
def literals : Formula σ → List (Literal σ)
  | always => []
  | literal l => [l]
  | negation c => c.literals
  | conjunction cs => literalsAll cs
  | disjunction cs => literalsAll cs

/-- The literals of the formulas of a list, from left to right. -/
def literalsAll : List (Formula σ) → List (Literal σ)
  | [] => []
  | c :: cs => c.literals ++ literalsAll cs

end

theorem literalsAll_eq_flatMap (cs : List (Formula σ)) :
    literalsAll cs = cs.flatMap literals := by
  induction cs with
  | nil => rfl
  | cons c cs ih => rw [literalsAll, ih, List.flatMap_cons]

end Formula
end StripAutomata
