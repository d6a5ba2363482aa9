import StripAutomata.Formula.Eval
import StripAutomata.Proofs.RuleText.Invariant
import StripAutomata.RuleText.Interning

/-!
# What the builders of formulas keep

The builders simplify while they build.  What they keep is the normal form, so that every condition
that is read is normal (`RuleText.normal_of_readInto`), and the meaning: a formula from a builder is
evaluated as the plain negation, conjunction or disjunction of the same operands would be, in every
neighborhood (`eval_negate`, `eval_all`, `eval_any`).

Evaluation stops early and may be refused, so the meaning is more than a truth value.  It is kept
because the operands that a builder merges are evaluated in the order in which they would have been
evaluated one inside the other: an operand counts for what it adds to the conjunction or disjunction
(`evalAll_conjuncts`, `evalAny_disjuncts`), whatever comes after it.

The one exception is a disjunction with `always` among its operands.  Its builder looks at all
operands before any of them is evaluated, and so the disjunction holds even where an operand on the
left is refused (`eval_any_of_mem`).
-/

namespace StripAutomata

namespace Formula

variable {hood : Neighborhood}

/-! ## Rows of operands -/

/-- The operands of two rows all hold if those of the first row do and then those of the second. -/
lemma evalAll_append (cs ds : List (Formula Signal)) :
    evalAll hood (cs ++ ds) =
      (do if ← evalAll hood cs then evalAll hood ds else return false) := by
  induction cs with
  | nil => rfl
  | cons c cs ih =>
    rw [List.cons_append, evalAll, evalAll, ih]
    rcases c.eval hood with error | b
    · rfl
    · cases b <;> rfl

lemma evalAny_append (cs ds : List (Formula Signal)) :
    evalAny hood (cs ++ ds) =
      (do if ← evalAny hood cs then return true else evalAny hood ds) := by
  induction cs with
  | nil => rfl
  | cons c cs ih =>
    rw [List.cons_append, evalAny, evalAny, ih]
    rcases c.eval hood with error | b
    · rfl
    · cases b <;> rfl

lemma evalAll_singleton (c : Formula Signal) : evalAll hood [c] = c.eval hood := by
  rw [evalAll]
  rcases c.eval hood with error | b
  · rfl
  · cases b <;> rfl

lemma evalAny_singleton (c : Formula Signal) : evalAny hood [c] = c.eval hood := by
  rw [evalAny]
  rcases c.eval hood with error | b
  · rfl
  · cases b <;> rfl

/-! ## Merged operands -/

/-- An operand holds if all that it adds to a conjunction does. -/
lemma evalAll_conjuncts (c : Formula Signal) : evalAll hood c.conjuncts = c.eval hood := by
  cases c with
  | always => rfl
  | conjunction cs => rfl
  | literal l => exact evalAll_singleton _
  | negation c => exact evalAll_singleton _
  | disjunction cs => exact evalAll_singleton _

lemma evalAny_disjuncts (c : Formula Signal) : evalAny hood c.disjuncts = c.eval hood := by
  cases c with
  | disjunction cs => rfl
  | always => exact evalAny_singleton _
  | literal l => exact evalAny_singleton _
  | negation c => exact evalAny_singleton _
  | conjunction cs => exact evalAny_singleton _

lemma evalAll_flatMap_conjuncts (cs : List (Formula Signal)) :
    evalAll hood (cs.flatMap conjuncts) = evalAll hood cs := by
  induction cs with
  | nil => rfl
  | cons c cs ih => rw [List.flatMap_cons, evalAll_append, evalAll_conjuncts, ih, evalAll]

lemma evalAny_flatMap_disjuncts (cs : List (Formula Signal)) :
    evalAny hood (cs.flatMap disjuncts) = evalAny hood cs := by
  induction cs with
  | nil => rfl
  | cons c cs ih => rw [List.flatMap_cons, evalAny_append, evalAny_disjuncts, ih, evalAny]

/-! ## The builders -/

/-- A builder takes a negation off, which two negations of the answer do as well. -/
lemma eval_negate (c : Formula Signal) : c.negate.eval hood = (negation c).eval hood := by
  cases c with
  | negation c =>
    show c.eval hood = (negation (negation c)).eval hood
    rw [eval, eval]
    rcases c.eval hood with error | b
    · rfl
    · cases b <;> rfl
  | _ => rfl

lemma eval_all (cs : List (Formula Signal)) :
    (Formula.all cs).eval hood = (conjunction cs).eval hood := by
  rw [eval, ← evalAll_flatMap_conjuncts, Formula.all]
  rcases cs.flatMap conjuncts with _ | ⟨c, _ | ⟨d, ds⟩⟩
  · rfl
  · exact (evalAll_singleton c).symm
  · rfl

/-- Without `always` among them, operands are evaluated as in the plain disjunction. -/
lemma eval_any {cs : List (Formula Signal)} (h : ∀ c ∈ cs, c ≠ always) :
    (Formula.any cs).eval hood = (disjunction cs).eval hood := by
  -- The builder has nothing to find before the operands are merged.
  have hnone : ¬ cs.any isAlways = true := by
    rw [List.any_eq_true]
    rintro ⟨c, hc, halways⟩
    cases c with
    | always => exact h _ hc rfl
    | _ => cases halways
  rw [eval, ← evalAny_flatMap_disjuncts, Formula.any, if_neg hnone]
  rcases cs.flatMap disjuncts with _ | ⟨c, _ | ⟨d, ds⟩⟩
  · rfl
  · exact (evalAny_singleton c).symm
  · rfl

/-- With `always` among them, the disjunction holds and no operand is evaluated. -/
lemma eval_any_of_mem {cs : List (Formula Signal)} (h : always ∈ cs) :
    (Formula.any cs).eval hood = .ok true := by
  have hsome : cs.any isAlways = true := List.any_eq_true.2 ⟨always, h, rfl⟩
  rw [Formula.any, if_pos hsome]
  rfl

end Formula

/-! ## Conditions that are read -/

/-- The condition of every rule that is read is normal, whatever the lexicon and the text. -/
lemma RuleText.normal_of_readInto {lexicon after : Lexicon} {text : String}
    {listing : Listing Signal} (h : readInto lexicon text = (after, .ok listing)) :
    ∀ r ∈ listing.rules, r.condition.Normal := by
  rcases hread : read text with ⟨mentioned, error | named⟩
  · simp [readInto, Lexicon.take, hread, Except.map] at h
  · obtain ⟨hmade, -⟩ := madeOf_of_read hread
    simp only [readInto, Lexicon.take, hread, Except.map, Prod.mk.injEq, Except.ok.injEq] at h
    obtain ⟨-, rfl⟩ := h
    exact List.forall_mem_map.2 fun r hr => ((hmade r hr).1.map _).normal

namespace Formula

/-- **The builders keep the normal form and the meaning.**  Of normal formulas they make normal
formulas, and so every condition that is read is normal.  What they make of any formulas, normal or
not, is evaluated in every neighborhood as the plain negation, conjunction or disjunction is, down
to the offset that is refused if one is; only a disjunction that has `always` among its operands
holds without a look at the others. -/
theorem builders_keep_form_and_meaning :
    (∀ {σ : Type} (cs : List (Formula σ)), (∀ c ∈ cs, c.Normal) →
      (Formula.all cs).Normal ∧ (Formula.any cs).Normal ∧ ∀ c ∈ cs, c.negate.Normal) ∧
    (∀ (lexicon after : Lexicon) (text : String) (listing : Listing Signal),
      RuleText.readInto lexicon text = (after, .ok listing) →
        ∀ r ∈ listing.rules, r.condition.Normal) ∧
    ∀ (hood : Neighborhood) (c : Formula Signal) (cs : List (Formula Signal)),
      c.negate.eval hood = (negation c).eval hood ∧
      (Formula.all cs).eval hood = (conjunction cs).eval hood ∧
      ((∀ c ∈ cs, c ≠ always) → (Formula.any cs).eval hood = (disjunction cs).eval hood) ∧
      (always ∈ cs → (Formula.any cs).eval hood = .ok true) := by
  refine ⟨?_, ?_, ?_⟩
  · intro σ cs h
    exact ⟨Normal.all h, Normal.any h, fun c hc => (h c hc).negate⟩
  · intro lexicon after text listing h
    exact RuleText.normal_of_readInto h
  · intro hood c cs
    exact ⟨eval_negate c, eval_all cs, eval_any, eval_any_of_mem⟩

/-- A normal disjunction with a literal beside the strip on its left. -/
def farOrNear : Formula Signal :=
  .disjunction [.literal ⟨⟨0⟩, 5, 0⟩, .negation (.literal ⟨⟨1⟩, 0, 0⟩)]

/-- The view of a single cell without its neighbors. -/
def lonely : Neighborhood := (Strip.empty 1).neighborhood 0 0 0

/-- A text with groups inside one another, and a scope. -/
def nested : String := "A [B []]:\n -(C (D -E)): 1.F"

/-- The listing of `nested`, with the handles that the names get in the order of the text. -/
def nestedListing : Listing Signal :=
  ⟨[⟨.conjunction [.literal ⟨⟨0⟩, 0, 0⟩, .disjunction [.literal ⟨⟨1⟩, 0, 0⟩, never],
      .negation (.conjunction [.literal ⟨⟨2⟩, 0, 0⟩, .literal ⟨⟨3⟩, 0, 0⟩,
        .negation (.literal ⟨⟨4⟩, 0, 0⟩)])], [⟨1, ⟨5⟩, 1⟩]⟩], 1⟩

/-- A disjunction that is merged is refused at the same offset as before, and holds once `always` is
an operand; two lines with groups inside one another make a rule with a normal condition. -/
theorem builders_keep_form_and_meaning_farOrNear :
    ((∀ c ∈ [farOrNear], c.Normal) ∧ (Formula.any [farOrNear]).Normal) ∧
    (∃ after, RuleText.readInto .empty nested = (after, .ok nestedListing) ∧
      ∀ r ∈ nestedListing.rules, r.condition.Normal) ∧
    ((∀ c ∈ [never, farOrNear], c ≠ always) ∧
      (Formula.any [never, farOrNear]).eval lonely =
        (disjunction [never, farOrNear]).eval lonely ∧
      (disjunction [never, farOrNear]).eval lonely = .error ⟨5, 0, 0⟩) ∧
    always ∈ [farOrNear, always] ∧ (Formula.any [farOrNear, always]).eval lonely = .ok true := by
  have hnormal : ∀ c ∈ [farOrNear], c.Normal := by
    refine List.forall_mem_singleton.2 (Normal.disjunction ?_ ?_ le_rfl)
    · exact List.forall_mem_cons.2 ⟨Normal.literal _,
        List.forall_mem_singleton.2 (Normal.negation (Normal.literal _) rfl)⟩
    · exact List.forall_mem_cons.2 ⟨⟨rfl, rfl⟩, List.forall_mem_singleton.2 ⟨rfl, rfl⟩⟩
  obtain ⟨hform, hread, hmeaning⟩ := builders_keep_form_and_meaning
  have hplain : ∀ c ∈ [never, farOrNear], c ≠ always := by decide
  have hmem : always ∈ [farOrNear, always] := by decide
  have hnested : RuleText.readInto .empty nested =
      ((RuleText.readInto .empty nested).1, .ok nestedListing) := rfl
  refine ⟨⟨hnormal, (hform _ hnormal).2.1⟩, ⟨_, hnested, hread _ _ _ _ hnested⟩, ⟨hplain, ?_, rfl⟩,
    hmem, ?_⟩
  · exact (hmeaning lonely always _).2.2.1 hplain
  · exact (hmeaning lonely always _).2.2.2 hmem

end Formula
end StripAutomata
