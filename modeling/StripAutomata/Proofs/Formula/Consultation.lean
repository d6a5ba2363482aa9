import StripAutomata.Proofs.Formula.Truth

/-!
# Which literals evaluation consults

Evaluation takes operands from left to right and stops as soon as the answer is settled, so it gets
to some literals of a formula only.  Which ones depends on the truth of the operands before them:
`Formula.consulted` lists them, for any account of which signals are present, and knows of no
refusal.  Evaluation is refused at the first of them that the window does not cover, and otherwise
its answer is the truth of the formula (`eval_eq_verdict`).

An account of the signals has to be right only for literals that the window covers, because the
first one that it does not cover ends the evaluation.  So two neighborhoods with one window that
show the same where the literals look give the same answer or refusal.  If the window covers all
literals, the order of operands does not matter, anywhere in the formula (`Rearranged`), since truth
knows of none.
-/

namespace StripAutomata

namespace Neighborhood

variable {hood : Neighborhood} {offset : Int} {s : Signal} {l : Literal Signal}
  {ls ms : List (Literal Signal)}

/-- Whether a neighborhood shows a signal at an offset. -/
def Shows (hood : Neighborhood) (offset : Int) (s : Signal) : Prop :=
  ∃ set, hood.get offset = .ok set ∧ s ∈ set

lemma shows_of_covers (h : hood.Covers offset) :
    hood.Shows offset s ↔ s ∈ hood.signalsAt (hood.origin + offset) := by
  rw [Shows, get_of_covers h]
  simp

lemma shows_iff :
    hood.Shows offset s ↔ hood.Covers offset ∧ s ∈ hood.signalsAt (hood.origin + offset) := by
  by_cases h : hood.Covers offset
  · rw [shows_of_covers h, and_iff_right h]
  · simp [Shows, get_of_not_covers h, h]

instance (hood : Neighborhood) (offset : Int) (s : Signal) : Decidable (hood.Shows offset s) :=
  decidable_of_iff _ shows_iff.symm

/-- The first of some literals that the window does not cover. -/
def firstRefused (hood : Neighborhood) (ls : List (Literal Signal)) : Option (Literal Signal) :=
  ls.find? fun l => !decide (hood.Covers l.position)

/-- What comes of consulting literals for an answer: the refusal of the first one that the window
does not cover, or the answer. -/
def verdict (hood : Neighborhood) (ls : List (Literal Signal)) (answer : Bool) :
    Except OutsideWindow Bool :=
  match hood.firstRefused ls with
  | some l => .error ⟨l.position, hood.least, hood.greatest⟩
  | none => .ok answer

lemma verdict_not (answer : Bool) :
    (do return !(← hood.verdict ls answer)) = hood.verdict ls !answer := by
  unfold verdict
  cases hood.firstRefused ls <;> rfl

/-- Where only a true answer leaves a question open, the next literals are consulted after one. -/
lemma verdict_and (answer next : Bool) :
    (do if ← hood.verdict ls answer then hood.verdict ms next else return false) =
      hood.verdict (ls ++ if answer then ms else []) (answer && next) := by
  unfold verdict firstRefused
  rw [List.find?_append]
  cases ls.find? _ <;> cases answer <;> rfl

lemma verdict_or (answer next : Bool) :
    (do if ← hood.verdict ls answer then return true else hood.verdict ms next) =
      hood.verdict (ls ++ if answer then [] else ms) (answer || next) := by
  unfold verdict firstRefused
  rw [List.find?_append]
  cases ls.find? _ <;> cases answer <;> rfl

end Neighborhood

namespace Formula

variable {σ : Type} {present : Int → σ → Prop}

/-! ## Truth is decided -/

section

variable [∀ offset s, Decidable (present offset s)]

mutual

/-- Decides whether a formula is true. -/
def decHolds : (c : Formula σ) → Decidable (c.Holds present)
  | always => .isTrue trivial
  | literal l => inferInstanceAs (Decidable (present l.position l.signal))
  | negation c => @instDecidableNot _ (decHolds c)
  | conjunction cs => decHoldsAll cs
  | disjunction cs => decHoldsSome cs

/-- Decides whether all formulas of a list are true. -/
def decHoldsAll : (cs : List (Formula σ)) → Decidable (HoldsAll present cs)
  | [] => .isTrue trivial
  | c :: cs => @instDecidableAnd _ _ (decHolds c) (decHoldsAll cs)

/-- Decides whether some formula of a list is true. -/
def decHoldsSome : (cs : List (Formula σ)) → Decidable (HoldsSome present cs)
  | [] => .isFalse id
  | c :: cs => @instDecidableOr _ _ (decHolds c) (decHoldsSome cs)

end

instance (c : Formula σ) : Decidable (c.Holds present) := decHolds c

instance (cs : List (Formula σ)) : Decidable (HoldsAll present cs) := decHoldsAll cs

instance (cs : List (Formula σ)) : Decidable (HoldsSome present cs) := decHoldsSome cs

lemma decide_holds_negation (c : Formula σ) :
    decide ((negation c).Holds present) = !decide (c.Holds present) := by
  rw [Bool.eq_iff_iff, Bool.not_eq_true', decide_eq_true_iff, decide_eq_false_iff_not, Holds]

lemma decide_holdsAll_cons (c : Formula σ) (cs : List (Formula σ)) :
    decide (HoldsAll present (c :: cs)) =
      (decide (c.Holds present) && decide (HoldsAll present cs)) := by
  rw [Bool.eq_iff_iff, Bool.and_eq_true, decide_eq_true_iff, decide_eq_true_iff,
    decide_eq_true_iff, HoldsAll]

lemma decide_holdsSome_cons (c : Formula σ) (cs : List (Formula σ)) :
    decide (HoldsSome present (c :: cs)) =
      (decide (c.Holds present) || decide (HoldsSome present cs)) := by
  rw [Bool.eq_iff_iff, Bool.or_eq_true, decide_eq_true_iff, decide_eq_true_iff,
    decide_eq_true_iff, HoldsSome]

end

/-! ## Consulted literals -/

section

variable (present) [∀ offset s, Decidable (present offset s)]

mutual

/-- The literals that are consulted for the truth of a formula, if operands are taken from left to
right and no further than the truth is settled. -/
def consulted : Formula σ → List (Literal σ)
  | always => []
  | literal l => [l]
  | negation c => c.consulted
  | conjunction cs => consultedAll cs
  | disjunction cs => consultedSome cs

/-- The literals that are consulted up to the first formula of a list that is false. -/
def consultedAll : List (Formula σ) → List (Literal σ)
  | [] => []
  | c :: cs => c.consulted ++ if c.Holds present then consultedAll cs else []

/-- The literals that are consulted up to the first formula of a list that is true. -/
def consultedSome : List (Formula σ) → List (Literal σ)
  | [] => []
  | c :: cs => c.consulted ++ if c.Holds present then [] else consultedSome cs

end

end

section

variable [∀ offset s, Decidable (present offset s)]

lemma consultedAll_sublist {cs : List (Formula σ)}
    (h : ∀ c ∈ cs, (c.consulted present).Sublist c.literals) :
    (consultedAll present cs).Sublist (literalsAll cs) := by
  induction cs with
  | nil => exact List.Sublist.refl _
  | cons c cs ih =>
    obtain ⟨hc, hcs⟩ := List.forall_mem_cons.1 h
    refine hc.append ?_
    split
    · exact ih hcs
    · exact List.nil_sublist _

lemma consultedSome_sublist {cs : List (Formula σ)}
    (h : ∀ c ∈ cs, (c.consulted present).Sublist c.literals) :
    (consultedSome present cs).Sublist (literalsAll cs) := by
  induction cs with
  | nil => exact List.Sublist.refl _
  | cons c cs ih =>
    obtain ⟨hc, hcs⟩ := List.forall_mem_cons.1 h
    refine hc.append ?_
    split
    · exact List.nil_sublist _
    · exact ih hcs

/-- All consulted literals are literals of the formula, in their order. -/
lemma consulted_sublist (c : Formula σ) : (c.consulted present).Sublist c.literals := by
  induction c with
  | always => exact List.Sublist.refl _
  | literal l => exact List.Sublist.refl _
  | negation c ih => exact ih
  | conjunction cs ih => exact consultedAll_sublist ih
  | disjunction cs ih => exact consultedSome_sublist ih

end

/-! ## Operands in another order -/

/-- Whether one formula comes from another by putting the operands of groups, at any depth, into
another order. -/
inductive Rearranged : Formula σ → Formula σ → Prop
  | refl (c) : Rearranged c c
  | trans {c d e} : Rearranged c d → Rearranged d e → Rearranged c e
  | negation {c d} : Rearranged c d → Rearranged (.negation c) (.negation d)
  | conjunction {cs ds} : cs.Perm ds → Rearranged (.conjunction cs) (.conjunction ds)
  | disjunction {cs ds} : cs.Perm ds → Rearranged (.disjunction cs) (.disjunction ds)
  | conjunct {c d} (before after) : Rearranged c d →
    Rearranged (.conjunction (before ++ c :: after)) (.conjunction (before ++ d :: after))
  | disjunct {c d} (before after) : Rearranged c d →
    Rearranged (.disjunction (before ++ c :: after)) (.disjunction (before ++ d :: after))

namespace Rearranged

variable {c d : Formula σ}

/-- The literals are the same, in another order. -/
lemma literals_perm (h : c.Rearranged d) : c.literals.Perm d.literals := by
  induction h with
  | refl c => exact List.Perm.refl _
  | trans _ _ ihc ihd => exact ihc.trans ihd
  | negation _ ih => exact ih
  | conjunction h =>
    rw [literals_conjunction, literals_conjunction]
    exact h.flatMap_right _
  | disjunction h =>
    rw [literals_disjunction, literals_disjunction]
    exact h.flatMap_right _
  | conjunct before after _ ih =>
    simp only [literals_conjunction, List.flatMap_append, List.flatMap_cons]
    exact (ih.append_right _).append_left _
  | disjunct before after _ ih =>
    simp only [literals_disjunction, List.flatMap_append, List.flatMap_cons]
    exact (ih.append_right _).append_left _

lemma holds_iff (h : c.Rearranged d) : c.Holds present ↔ d.Holds present := by
  induction h with
  | refl c => exact Iff.rfl
  | trans _ _ ihc ihd => exact ihc.trans ihd
  | negation _ ih => exact not_congr ih
  | conjunction h =>
    rw [Holds, Holds, holdsAll_iff, holdsAll_iff]
    exact forall_congr' fun c => by rw [h.mem_iff]
  | disjunction h =>
    rw [Holds, Holds, holdsSome_iff, holdsSome_iff]
    exact exists_congr fun c => by rw [h.mem_iff]
  | conjunct before after _ ih =>
    simp only [Holds, holdsAll_iff, List.forall_mem_append, List.forall_mem_cons, ih]
  | disjunct before after _ ih =>
    simp only [Holds, holdsSome_iff, List.mem_append, List.mem_cons, or_and_right, exists_or,
      exists_eq_left, ih]

end Rearranged

variable {hood : Neighborhood} {present : Int → Signal → Prop}
  [∀ offset s, Decidable (present offset s)]

/-! ## Evaluation goes by the consulted literals -/

/-- Whether evaluating a formula comes to the same as consulting literals for its truth. -/
def ConsultsFor (hood : Neighborhood) (present : Int → Signal → Prop)
    [∀ offset s, Decidable (present offset s)] (c : Formula Signal) : Prop :=
  c.eval hood = hood.verdict (c.consulted present) (decide (c.Holds present))

lemma evalAll_eq_verdict {cs : List (Formula Signal)} (h : ∀ c ∈ cs, c.ConsultsFor hood present) :
    evalAll hood cs = hood.verdict (consultedAll present cs) (decide (HoldsAll present cs)) := by
  induction cs with
  | nil => rfl
  | cons c cs ih =>
    obtain ⟨hc, hcs⟩ := List.forall_mem_cons.1 h
    rw [evalAll, hc, ih hcs, Neighborhood.verdict_and, decide_holdsAll_cons, consultedAll]
    simp only [decide_eq_true_eq]

lemma evalAny_eq_verdict {cs : List (Formula Signal)} (h : ∀ c ∈ cs, c.ConsultsFor hood present) :
    evalAny hood cs = hood.verdict (consultedSome present cs) (decide (HoldsSome present cs)) := by
  induction cs with
  | nil => rfl
  | cons c cs ih =>
    obtain ⟨hc, hcs⟩ := List.forall_mem_cons.1 h
    rw [evalAny, hc, ih hcs, Neighborhood.verdict_or, decide_holdsSome_cons, consultedSome]
    simp only [decide_eq_true_eq]

/-- **Evaluation goes by the consulted literals**, for any account of the signals that is right
where the window covers a literal. -/
theorem eval_eq_verdict {c : Formula Signal}
    (h : ∀ l ∈ c.literals, hood.Covers l.position →
      (present l.position l.signal ↔ hood.Shows l.position l.signal)) :
    c.ConsultsFor hood present := by
  induction c with
  | always => rfl
  | literal l =>
    by_cases hcovers : hood.Covers l.position
    · have htruth := h l (List.mem_singleton_self l) hcovers
      rw [Neighborhood.shows_of_covers hcovers] at htruth
      rw [ConsultsFor, eval, Neighborhood.get_of_covers hcovers]
      simp [consulted, Holds, Neighborhood.verdict, Neighborhood.firstRefused, hcovers, htruth,
        SignalSet.contains]
    · -- The first literal that is refused ends the evaluation, so no account of its signal is
      -- needed.
      rw [ConsultsFor, eval, Neighborhood.get_of_not_covers hcovers]
      simp [consulted, Neighborhood.verdict, Neighborhood.firstRefused, hcovers]
  | negation c ih =>
    rw [ConsultsFor, eval, ih h, Neighborhood.verdict_not, decide_holds_negation, consulted]
  | conjunction cs ih =>
    exact evalAll_eq_verdict fun c hc => ih c hc (forall_literals_conjunction h c hc)
  | disjunction cs ih =>
    exact evalAny_eq_verdict fun c hc => ih c hc (forall_literals_disjunction h c hc)

lemma consultsFor_shows (c : Formula Signal) (hood : Neighborhood) :
    c.ConsultsFor hood hood.Shows :=
  eval_eq_verdict fun _ _ _ => Iff.rfl

variable {c : Formula Signal}

lemma eval_eq_truth (h : ∀ l ∈ c.literals, hood.Covers l.position) :
    c.eval hood = .ok (decide (c.Holds hood.Shows)) := by
  have hnone : hood.firstRefused (c.consulted hood.Shows) = none := by
    refine List.find?_eq_none.2 fun l hl => ?_
    simpa using h l ((consulted_sublist c).subset hl)
  rw [consultsFor_shows c hood, Neighborhood.verdict, hnone]

/-- What is refused is the first consulted literal that the window does not cover. -/
lemma eval_eq_error_iff {e : OutsideWindow} :
    c.eval hood = .error e ↔ ∃ l ∈ c.literals, ¬ hood.Covers l.position ∧
      hood.firstRefused (c.consulted hood.Shows) = some l ∧
      e = ⟨l.position, hood.least, hood.greatest⟩ := by
  rw [consultsFor_shows c hood, Neighborhood.verdict]
  constructor
  · intro h
    split at h
    next l hl =>
      refine ⟨l, (consulted_sublist c).subset (List.mem_of_find?_eq_some hl), ?_, hl, ?_⟩
      · simpa using List.find?_some hl
      · exact (Except.error.inj h).symm
    next => cases h
  · rintro ⟨l, -, -, hl, rfl⟩
    rw [hl]

/-- **Evaluation depends on the literals only.**

Two neighborhoods with one window give the same answer or refusal for a formula if they show the
same signals where its literals look within the window.  A refusal is that of the first literal out
of the window among those that are consulted, which are literals of the formula in their order.  If
the window covers all literals, the answer is the truth of the formula, in whatever order the
operands stand. -/
theorem eval_by_literals (c : Formula Signal) (hood : Neighborhood) :
    (∀ other : Neighborhood, other.least = hood.least → other.greatest = hood.greatest →
      (∀ l ∈ c.literals, hood.Covers l.position →
        (other.Shows l.position l.signal ↔ hood.Shows l.position l.signal)) →
      c.eval other = c.eval hood) ∧
    (∀ e, c.eval hood = .error e ↔ ∃ l ∈ c.literals, ¬ hood.Covers l.position ∧
      hood.firstRefused (c.consulted hood.Shows) = some l ∧
      e = ⟨l.position, hood.least, hood.greatest⟩) ∧
    (c.consulted hood.Shows).Sublist c.literals ∧
    ((∀ l ∈ c.literals, hood.Covers l.position) →
      c.eval hood = .ok (decide (c.Holds hood.Shows)) ∧
        ∀ d, c.Rearranged d → d.eval hood = c.eval hood) := by
  refine ⟨fun other hleast hgreatest hagree => ?_, fun e => eval_eq_error_iff,
    consulted_sublist c, fun hcovers => ⟨eval_eq_truth hcovers, fun d hd => ?_⟩⟩
  · -- Both evaluations go by what one of the neighborhoods shows.
    have hcovers : ∀ offset, other.Covers offset ↔ hood.Covers offset := by
      intro offset
      rw [Neighborhood.Covers, Neighborhood.Covers, hleast, hgreatest]
    have hother : c.ConsultsFor other hood.Shows :=
      eval_eq_verdict fun l hl hl' => (hagree l hl ((hcovers _).1 hl')).symm
    rw [consultsFor_shows c hood, hother]
    simp only [Neighborhood.verdict, Neighborhood.firstRefused, hcovers, hleast, hgreatest]
  · have hcovers' : ∀ l ∈ d.literals, hood.Covers l.position := fun l hl =>
      hcovers l (hd.literals_perm.mem_iff.2 hl)
    rw [eval_eq_truth hcovers, eval_eq_truth hcovers']
    simp only [hd.holds_iff]

/-- Not the second signal far to the right, where the first is here or the second not as far. -/
def farSighted : Formula Signal :=
  .conjunction [.disjunction [.literal ⟨⟨0⟩, 0, 0⟩, .literal ⟨⟨1⟩, 5, 0⟩],
    .negation (.literal ⟨⟨1⟩, 7, 0⟩)]

/-- Not the second signal beside the first. -/
def nearSighted : Formula Signal :=
  .conjunction [.literal ⟨⟨0⟩, 0, 0⟩, .negation (.literal ⟨⟨1⟩, 1, 0⟩)]

/-- The view of one cell to either side from the middle of three cells, which has the first
signal. -/
def inMiddle : Neighborhood := ((Strip.empty 3).place 1 ⟨0⟩).neighborhood 1 (-1) 1

/-- The view of one cell to either side from the first of two cells, which has the first signal. -/
def atBeginning : Neighborhood := ((Strip.empty 2).place 0 ⟨0⟩).neighborhood 0 (-1) 1

/-- From either cell, the literal at five cells is not consulted, so that the one at seven cells is
refused; and near literals may stand the other way around. -/
theorem eval_by_literals_sighted :
    (∀ l ∈ farSighted.literals, inMiddle.Covers l.position →
      (atBeginning.Shows l.position l.signal ↔ inMiddle.Shows l.position l.signal)) ∧
    (∀ l ∈ nearSighted.literals, inMiddle.Covers l.position) ∧
    farSighted.eval inMiddle = .error ⟨7, -1, 1⟩ ∧
    farSighted.eval atBeginning = farSighted.eval inMiddle ∧
    nearSighted.eval inMiddle = .ok true ∧
    (conjunction [.negation (.literal ⟨⟨1⟩, 1, 0⟩), .literal ⟨⟨0⟩, 0, 0⟩]).eval inMiddle =
      nearSighted.eval inMiddle := by
  obtain ⟨hsame, hrefused, -, -⟩ := eval_by_literals farSighted inMiddle
  obtain ⟨-, -, -, hcovered⟩ := eval_by_literals nearSighted inMiddle
  have hagree : ∀ l ∈ farSighted.literals, inMiddle.Covers l.position →
      (atBeginning.Shows l.position l.signal ↔ inMiddle.Shows l.position l.signal) := by decide
  have hcovers : ∀ l ∈ nearSighted.literals, inMiddle.Covers l.position := by decide
  obtain ⟨htruth, horder⟩ := hcovered hcovers
  refine ⟨hagree, hcovers, (hrefused _).2 ⟨⟨⟨1⟩, 7, 0⟩, by decide, by decide, by decide, rfl⟩,
    hsame atBeginning rfl rfl hagree, htruth, horder _ (.conjunction (.swap _ _ _))⟩

end Formula
end StripAutomata
