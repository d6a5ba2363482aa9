import StripAutomata.Formula.Eval
import StripAutomata.Proofs.Formula.Map

/-!
# What it means for a formula to hold

Evaluation goes from left to right, stops early, and may refuse an offset.  What it finds out is
simpler: `Formula.Holds present` is the truth of a formula when `present` says which signals are
there at which offsets from the focal cell.  If the window covers the offsets of all literals,
evaluation refuses nothing and its answer is the truth of the formula (`exists_eval_iff_holds`).

Truth depends on `present` only where the literals look (`holds_congr`).  Two rules are
`Rule.Alike` if their conditions are true of the same and their outputs are the same.
-/

namespace StripAutomata

/-- Whether the window of a neighborhood covers an offset. -/
def Neighborhood.Covers (hood : Neighborhood) (offset : Int) : Prop :=
  hood.least ≤ offset ∧ offset ≤ hood.greatest

instance (hood : Neighborhood) (offset : Int) : Decidable (hood.Covers offset) :=
  inferInstanceAs (Decidable (hood.least ≤ offset ∧ offset ≤ hood.greatest))

lemma Neighborhood.get_of_covers {hood : Neighborhood} {offset : Int} (h : hood.Covers offset) :
    hood.get offset = .ok (hood.signalsAt (hood.origin + offset)) :=
  if_pos h

/-- An offset that the window does not cover is refused. -/
lemma Neighborhood.get_of_not_covers {hood : Neighborhood} {offset : Int}
    (h : ¬ hood.Covers offset) : hood.get offset = .error ⟨offset, hood.least, hood.greatest⟩ :=
  if_neg h

namespace Formula

variable {σ : Type}

mutual

/-- Whether a formula is true, for signals that are present at offsets from the focal cell. -/
def Holds (present : Int → σ → Prop) : Formula σ → Prop
  | always => True
  | literal l => present l.position l.signal
  | negation c => ¬ c.Holds present
  | conjunction cs => HoldsAll present cs
  | disjunction cs => HoldsSome present cs

/-- Whether all formulas of a list are true. -/
def HoldsAll (present : Int → σ → Prop) : List (Formula σ) → Prop
  | [] => True
  | c :: cs => c.Holds present ∧ HoldsAll present cs

/-- Whether some formula of a list is true. -/
def HoldsSome (present : Int → σ → Prop) : List (Formula σ) → Prop
  | [] => False
  | c :: cs => c.Holds present ∨ HoldsSome present cs

end

variable {present : Int → σ → Prop}

lemma holdsAll_iff {cs : List (Formula σ)} :
    HoldsAll present cs ↔ ∀ c ∈ cs, c.Holds present := by
  induction cs with
  | nil => simp [HoldsAll]
  | cons c cs ih => rw [HoldsAll, ih, List.forall_mem_cons]

lemma holdsSome_iff {cs : List (Formula σ)} :
    HoldsSome present cs ↔ ∃ c ∈ cs, c.Holds present := by
  induction cs with
  | nil => simp [HoldsSome]
  | cons c cs ih => rw [HoldsSome, ih, List.exists_mem_cons_iff]

/-- Truth depends only on what is present where the literals look. -/
lemma holds_congr {other : Int → σ → Prop} {c : Formula σ}
    (h : ∀ l ∈ c.literals, present l.position l.signal ↔ other l.position l.signal) :
    c.Holds present ↔ c.Holds other := by
  induction c with
  | always => rfl
  | literal l => exact h l (List.mem_singleton_self l)
  | negation c ih =>
    show ¬ c.Holds present ↔ ¬ c.Holds other
    rw [ih h]
  | conjunction cs ih =>
    rw [Holds, Holds, holdsAll_iff, holdsAll_iff]
    exact forall₂_congr fun c hc => ih c hc (forall_literals_conjunction h c hc)
  | disjunction cs ih =>
    rw [Holds, Holds, holdsSome_iff, holdsSome_iff]
    exact exists_congr fun c => and_congr_right fun hc =>
      ih c hc (forall_literals_disjunction h c hc)

/-! ## Evaluation -/

/-- The truth of a formula in a neighborhood. -/
def HoldsIn (hood : Neighborhood) (c : Formula Signal) : Prop :=
  c.Holds fun offset s => s ∈ hood.signalsAt (hood.origin + offset)

/-- Whether evaluating a formula gives its truth. -/
def EvaluatesTruly (hood : Neighborhood) (c : Formula Signal) : Prop :=
  ∃ b, c.eval hood = .ok b ∧ (b = true ↔ c.HoldsIn hood)

variable {hood : Neighborhood}

lemma exists_evalAll_iff {cs : List (Formula Signal)} (h : ∀ c ∈ cs, c.EvaluatesTruly hood) :
    ∃ b, evalAll hood cs = .ok b ∧ (b = true ↔ ∀ c ∈ cs, c.HoldsIn hood) := by
  induction cs with
  | nil => exact ⟨true, rfl, by simp⟩
  | cons c cs ih =>
    obtain ⟨⟨b, hb, htruth⟩, hcs⟩ := List.forall_mem_cons.1 h
    obtain ⟨b', hb', htruth'⟩ := ih hcs
    cases b with
    | true =>
      refine ⟨b', ?_, ?_⟩
      · rw [evalAll, hb]
        exact hb'
      · rw [htruth', List.forall_mem_cons, and_iff_right (htruth.1 rfl)]
    | false =>
      -- An operand that does not hold ends the evaluation.
      refine ⟨false, ?_, ?_⟩
      · rw [evalAll, hb]
        rfl
      · rw [List.forall_mem_cons, ← htruth]
        simp

lemma exists_evalAny_iff {cs : List (Formula Signal)} (h : ∀ c ∈ cs, c.EvaluatesTruly hood) :
    ∃ b, evalAny hood cs = .ok b ∧ (b = true ↔ ∃ c ∈ cs, c.HoldsIn hood) := by
  induction cs with
  | nil => exact ⟨false, rfl, by simp⟩
  | cons c cs ih =>
    obtain ⟨⟨b, hb, htruth⟩, hcs⟩ := List.forall_mem_cons.1 h
    obtain ⟨b', hb', htruth'⟩ := ih hcs
    cases b with
    | true =>
      -- An operand that holds ends the evaluation.
      refine ⟨true, ?_, ?_⟩
      · rw [evalAny, hb]
        rfl
      · rw [List.exists_mem_cons_iff, ← htruth]
        simp
    | false =>
      refine ⟨b', ?_, ?_⟩
      · rw [evalAny, hb]
        exact hb'
      · rw [htruth', List.exists_mem_cons_iff, ← htruth]
        simp

/-- **Evaluation finds the truth**, if the window covers where the literals look. -/
theorem exists_eval_iff_holds {c : Formula Signal}
    (h : ∀ l ∈ c.literals, hood.Covers l.position) : c.EvaluatesTruly hood := by
  induction c with
  | always => exact ⟨true, rfl, by simp [HoldsIn, Holds]⟩
  | literal l =>
    have hcovers := h l (List.mem_singleton_self l)
    refine ⟨(hood.signalsAt (hood.origin + l.position)).contains l.signal, ?_, ?_⟩
    · rw [eval, Neighborhood.get_of_covers hcovers]
      rfl
    · rw [SignalSet.contains_eq_true_iff]
      rfl
  | negation c ih =>
    obtain ⟨b, hb, htruth⟩ := ih h
    refine ⟨!b, ?_, ?_⟩
    · rw [eval, hb]
      rfl
    · rw [HoldsIn, Holds, ← HoldsIn, ← htruth]
      simp
  | conjunction cs ih =>
    obtain ⟨b, hb, htruth⟩ := exists_evalAll_iff fun c hc =>
      ih c hc (forall_literals_conjunction h c hc)
    exact ⟨b, hb, htruth.trans holdsAll_iff.symm⟩
  | disjunction cs ih =>
    obtain ⟨b, hb, htruth⟩ := exists_evalAny_iff fun c hc =>
      ih c hc (forall_literals_disjunction h c hc)
    exact ⟨b, hb, htruth.trans holdsSome_iff.symm⟩

end Formula

/-! ## What rules do -/

/-- Whether a rule has outputs. -/
def Rule.acts {σ : Type} (r : Rule σ) : Bool := !r.outputs.isEmpty

/-- Whether two rules do the same: they place the same, and fire on the same. -/
structure Rule.Alike {σ : Type} (r q : Rule σ) : Prop where
  condition : ∀ present, r.condition.Holds present ↔ q.condition.Holds present
  outputs : r.outputs = q.outputs

lemma Rule.Alike.symm {σ : Type} {r q : Rule σ} (h : r.Alike q) : q.Alike r :=
  ⟨fun present => (h.condition present).symm, h.outputs.symm⟩

end StripAutomata
