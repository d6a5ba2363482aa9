import Mathlib.Tactic.Common
import StripAutomata.Formula.Build

/-!
# Normal formulas

A formula is normal when there is nothing left in it for a builder to simplify: no negation stands
right under a negation, and every conjunction and disjunction has at least two operands, none of
which is `always` or of the same kind.

The builders `negate`, `all` and `any` make normal formulas out of normal ones, and give a normal
formula back when they are applied to its own operands.  They bring in no literal that their
operands do not have.
-/

namespace StripAutomata.Formula

variable {σ : Type}

/-! ## Kinds of formulas -/

/-- Whether a formula is a negation. -/
def isNegation : Formula σ → Bool
  | negation _ => true
  | _ => false

/-- Whether a formula is a conjunction. -/
def isConjunction : Formula σ → Bool
  | conjunction _ => true
  | _ => false

/-- Whether a formula is a disjunction. -/
def isDisjunction : Formula σ → Bool
  | disjunction _ => true
  | _ => false

/-- Whether a builder of conjunctions keeps a formula as one operand. -/
def IsConjunct (c : Formula σ) : Prop := c.isAlways = false ∧ c.isConjunction = false

/-- Whether a builder of disjunctions keeps a formula as one operand. -/
def IsDisjunct (c : Formula σ) : Prop := c.isAlways = false ∧ c.isDisjunction = false

/-- Whether the builders have nothing to simplify anywhere in a formula. -/
inductive Normal : Formula σ → Prop
  | always : Normal .always
  | literal (l : Literal σ) : Normal (.literal l)
  | negation {c : Formula σ} (hc : Normal c) (hflat : c.isNegation = false) : Normal (.negation c)
  | conjunction {cs : List (Formula σ)} (hcs : ∀ c ∈ cs, Normal c)
      (hflat : ∀ c ∈ cs, IsConjunct c) (hlength : 2 ≤ cs.length) : Normal (.conjunction cs)
  | disjunction {cs : List (Formula σ)} (hcs : ∀ c ∈ cs, Normal c)
      (hflat : ∀ c ∈ cs, IsDisjunct c) (hlength : 2 ≤ cs.length) : Normal (.disjunction cs)

/-! ## Operands -/

lemma IsConjunct.conjuncts_eq {c : Formula σ} (h : IsConjunct c) : c.conjuncts = [c] := by
  cases c with
  | always => exact absurd h.1 (by simp [isAlways])
  | conjunction cs => exact absurd h.2 (by simp [isConjunction])
  | _ => rfl

lemma IsDisjunct.disjuncts_eq {c : Formula σ} (h : IsDisjunct c) : c.disjuncts = [c] := by
  cases c with
  | disjunction cs => exact absurd h.2 (by simp [isDisjunction])
  | _ => rfl

lemma flatMap_conjuncts_eq {cs : List (Formula σ)} (h : ∀ c ∈ cs, IsConjunct c) :
    cs.flatMap conjuncts = cs := by
  induction cs with
  | nil => rfl
  | cons c cs ih =>
    obtain ⟨hc, hcs⟩ := List.forall_mem_cons.1 h
    rw [List.flatMap_cons, hc.conjuncts_eq, ih hcs, List.singleton_append]

lemma flatMap_disjuncts_eq {cs : List (Formula σ)} (h : ∀ c ∈ cs, IsDisjunct c) :
    cs.flatMap disjuncts = cs := by
  induction cs with
  | nil => rfl
  | cons c cs ih =>
    obtain ⟨hc, hcs⟩ := List.forall_mem_cons.1 h
    rw [List.flatMap_cons, hc.disjuncts_eq, ih hcs, List.singleton_append]

lemma Normal.of_mem_conjuncts {c d : Formula σ} (hc : c.Normal) (hd : d ∈ c.conjuncts) :
    d.Normal ∧ d.IsConjunct := by
  cases hc with
  | always => cases hd
  | literal l => cases List.mem_singleton.1 hd; exact ⟨Normal.literal l, rfl, rfl⟩
  | negation hc hflat => cases List.mem_singleton.1 hd; exact ⟨Normal.negation hc hflat, rfl, rfl⟩
  | conjunction hcs hflat hlength => exact ⟨hcs d hd, hflat d hd⟩
  | disjunction hcs hflat hlength =>
    cases List.mem_singleton.1 hd
    exact ⟨Normal.disjunction hcs hflat hlength, rfl, rfl⟩

/-- What normal operands add to a conjunction stays an operand of its own. -/
lemma Normal.of_mem_flatMap_conjuncts {cs : List (Formula σ)} (h : ∀ c ∈ cs, c.Normal)
    {d : Formula σ} (hd : d ∈ cs.flatMap conjuncts) : d.Normal ∧ d.IsConjunct := by
  obtain ⟨c, hc, hdc⟩ := List.mem_flatMap.1 hd
  exact (h c hc).of_mem_conjuncts hdc

lemma Normal.of_mem_disjuncts {c d : Formula σ} (hc : c.Normal) (halways : c.isAlways = false)
    (hd : d ∈ c.disjuncts) : d.Normal ∧ d.IsDisjunct := by
  cases hc with
  | always => cases halways
  | literal l => cases List.mem_singleton.1 hd; exact ⟨Normal.literal l, rfl, rfl⟩
  | negation hc hflat => cases List.mem_singleton.1 hd; exact ⟨Normal.negation hc hflat, rfl, rfl⟩
  | conjunction hcs hflat hlength =>
    cases List.mem_singleton.1 hd
    exact ⟨Normal.conjunction hcs hflat hlength, rfl, rfl⟩
  | disjunction hcs hflat hlength => exact ⟨hcs d hd, hflat d hd⟩

/-! ## The builders make normal formulas -/

lemma Normal.never : (never : Formula σ).Normal := Normal.negation Normal.always rfl

lemma Normal.negate {c : Formula σ} (hc : c.Normal) : c.negate.Normal := by
  cases hc with
  | always => exact Normal.never
  | literal l => exact Normal.negation (Normal.literal l) rfl
  | negation hc hflat => exact hc
  | conjunction hcs hflat hlength => exact Normal.negation (Normal.conjunction hcs hflat hlength) rfl
  | disjunction hcs hflat hlength => exact Normal.negation (Normal.disjunction hcs hflat hlength) rfl

lemma Normal.all {cs : List (Formula σ)} (h : ∀ c ∈ cs, c.Normal) : (Formula.all cs).Normal := by
  have hflat : ∀ d ∈ cs.flatMap conjuncts, d.Normal ∧ d.IsConjunct :=
    fun _ hd => Normal.of_mem_flatMap_conjuncts h hd
  unfold Formula.all
  split
  next => exact Normal.always
  next c hone => exact (hflat c (by simp [hone])).1
  next hnone hone =>
    refine Normal.conjunction (fun d hd => (hflat d hd).1) (fun d hd => (hflat d hd).2) ?_
    rcases hcs : cs.flatMap conjuncts with _ | ⟨c, _ | ⟨d, ds⟩⟩
    · exact absurd hcs hnone
    · exact absurd hcs (hone c)
    · simp

lemma Normal.any {cs : List (Formula σ)} (h : ∀ c ∈ cs, c.Normal) : (Formula.any cs).Normal := by
  unfold Formula.any
  split
  next => exact Normal.always
  next halways =>
    have hflat : ∀ d ∈ cs.flatMap disjuncts, d.Normal ∧ d.IsDisjunct := by
      intro d hd
      obtain ⟨c, hc, hdc⟩ := List.mem_flatMap.1 hd
      refine (h c hc).of_mem_disjuncts ?_ hdc
      by_contra hne
      exact halways (List.any_eq_true.2 ⟨c, hc, by simpa using hne⟩)
    split
    next => exact Normal.never
    next c hone => exact (hflat c (by simp [hone])).1
    next hnone hone =>
      refine Normal.disjunction (fun d hd => (hflat d hd).1) (fun d hd => (hflat d hd).2) ?_
      rcases hcs : cs.flatMap disjuncts with _ | ⟨c, _ | ⟨d, ds⟩⟩
      · exact absurd hcs hnone
      · exact absurd hcs (hone c)
      · simp

/-! ## The builders give normal formulas back -/

lemma negate_of_not_negation {c : Formula σ} (h : c.isNegation = false) :
    c.negate = negation c := by
  cases c with
  | negation c => cases h
  | _ => rfl

lemma all_singleton {c : Formula σ} (h : c.Normal) : Formula.all [c] = c := by
  cases h with
  | always => rfl
  | literal l => rfl
  | negation hc hflat => rfl
  | @conjunction cs hcs hflat hlength =>
    match cs, hlength with
    | c :: d :: cs, _ => simp [Formula.all, conjuncts]
  | disjunction hcs hflat hlength => rfl

lemma all_operands {cs : List (Formula σ)} (hflat : ∀ c ∈ cs, IsConjunct c)
    (hlength : 2 ≤ cs.length) : Formula.all cs = conjunction cs := by
  rw [Formula.all, flatMap_conjuncts_eq hflat]
  match cs, hlength with
  | c :: d :: cs, _ => rfl

lemma any_operands {cs : List (Formula σ)} (hflat : ∀ c ∈ cs, IsDisjunct c)
    (hlength : 2 ≤ cs.length) : Formula.any cs = disjunction cs := by
  -- None of the operands makes the disjunction hold at once.
  have halways : ¬ cs.any isAlways = true := by
    rw [List.any_eq_true]
    rintro ⟨c, hc, htrue⟩
    rw [(hflat c hc).1] at htrue
    cases htrue
  rw [Formula.any, if_neg halways, flatMap_disjuncts_eq hflat]
  match cs, hlength with
  | c :: d :: cs, _ => rfl

/-! ## Conjunctions of conjunctions -/

/-- What a conjunction of normal operands adds to another one is what its operands add. -/
lemma conjuncts_all {cs : List (Formula σ)} (h : ∀ c ∈ cs, c.Normal) :
    (Formula.all cs).conjuncts = cs.flatMap conjuncts := by
  unfold Formula.all
  split
  next hnone =>
    rw [hnone]
    rfl
  next c hone =>
    -- A single operand is kept as it is, and it is no conjunction.
    have hc : c ∈ cs.flatMap conjuncts := hone ▸ List.mem_singleton_self c
    rw [hone]
    exact (Normal.of_mem_flatMap_conjuncts h hc).2.conjuncts_eq
  next => rfl

/-- A conjunction among the operands may as well be replaced by its own operands. -/
lemma all_all_cons {cs : List (Formula σ)} (h : ∀ c ∈ cs, c.Normal) (ds : List (Formula σ)) :
    Formula.all (Formula.all cs :: ds) = Formula.all (cs ++ ds) := by
  have hflat : (Formula.all cs :: ds).flatMap conjuncts = (cs ++ ds).flatMap conjuncts := by
    rw [List.flatMap_cons, conjuncts_all h, List.flatMap_append]
  rw [Formula.all, hflat, Formula.all]

/-! ## Literals -/

lemma literals_conjunction (cs : List (Formula σ)) :
    (conjunction cs).literals = cs.flatMap literals :=
  literalsAll_eq_flatMap cs

lemma literals_disjunction (cs : List (Formula σ)) :
    (disjunction cs).literals = cs.flatMap literals :=
  literalsAll_eq_flatMap cs

/-- What holds of the literals of a conjunction holds of those of its operands. -/
lemma forall_literals_conjunction {p : Literal σ → Prop} {cs : List (Formula σ)}
    (h : ∀ l ∈ (conjunction cs).literals, p l) : ∀ c ∈ cs, ∀ l ∈ c.literals, p l := by
  rw [literals_conjunction] at h
  exact fun c hc l hl => h l (List.mem_flatMap.2 ⟨c, hc, hl⟩)

lemma forall_literals_disjunction {p : Literal σ → Prop} {cs : List (Formula σ)}
    (h : ∀ l ∈ (disjunction cs).literals, p l) : ∀ c ∈ cs, ∀ l ∈ c.literals, p l := by
  rw [literals_disjunction] at h
  exact fun c hc l hl => h l (List.mem_flatMap.2 ⟨c, hc, hl⟩)

lemma literals_conjuncts (c : Formula σ) : c.conjuncts.flatMap literals = c.literals := by
  cases c with
  | conjunction cs => exact (literals_conjunction cs).symm
  | _ => simp [conjuncts, literals]

lemma literals_disjuncts (c : Formula σ) : c.disjuncts.flatMap literals = c.literals := by
  cases c with
  | disjunction cs => exact (literals_disjunction cs).symm
  | _ => simp [disjuncts, literals]

@[simp] lemma literals_negate (c : Formula σ) : c.negate.literals = c.literals := by
  cases c <;> rfl

lemma literals_all (cs : List (Formula σ)) : (Formula.all cs).literals = cs.flatMap literals := by
  have hflat : (cs.flatMap conjuncts).flatMap literals = cs.flatMap literals := by
    rw [List.flatMap_assoc]
    exact congrArg (List.flatMap · cs) (funext literals_conjuncts)
  unfold Formula.all
  split
  next h => rw [← hflat, h]; rfl
  next c h => rw [← hflat, h]; simp
  next => rw [literals_conjunction, hflat]

/-- A disjunction has the literals of its operands, unless one of them is `always`. -/
lemma literals_any_subset (cs : List (Formula σ)) :
    (Formula.any cs).literals ⊆ cs.flatMap literals := by
  have hflat : (cs.flatMap disjuncts).flatMap literals = cs.flatMap literals := by
    rw [List.flatMap_assoc]
    exact congrArg (List.flatMap · cs) (funext literals_disjuncts)
  unfold Formula.any
  split
  next => exact List.nil_subset _
  next =>
    split
    next => exact List.nil_subset _
    next c h => rw [← hflat, h]; simp
    next => rw [literals_disjunction, hflat]; exact List.Subset.refl _

end StripAutomata.Formula
