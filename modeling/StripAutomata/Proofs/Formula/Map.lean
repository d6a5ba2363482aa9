import Mathlib.Data.List.Basic
import StripAutomata.Proofs.Formula.Written
import StripAutomata.Rule

/-!
# Formulas and rules about another kind of signal

Going over from one kind of signal to another keeps the shape of a formula: whether it is normal,
how deeply it is nested, and where its literals stand.  Two ways of going over that agree on the
signals of a formula give the same formula (`Formula.map_congr`), so that going over and back gives
the formula again.
-/

namespace StripAutomata

variable {σ τ υ : Type}

namespace Formula

/-- Induction on formulas: what holds of a group may be shown from what holds of its operands. -/
@[elab_as_elim, induction_eliminator]
theorem inductionOn {motive : Formula σ → Prop} (always : motive .always)
    (literal : ∀ l, motive (.literal l)) (negation : ∀ c, motive c → motive (.negation c))
    (conjunction : ∀ cs, (∀ c ∈ cs, motive c) → motive (.conjunction cs))
    (disjunction : ∀ cs, (∀ c ∈ cs, motive c) → motive (.disjunction cs)) (c : Formula σ) :
    motive c :=
  @Formula.rec σ motive (fun cs => ∀ c ∈ cs, motive c) always literal negation conjunction
    disjunction (List.forall_mem_nil _) (fun _ _ hc hcs => List.forall_mem_cons.2 ⟨hc, hcs⟩) c

/-! ## Shape -/

lemma map_map (f : σ → τ) (g : τ → υ) (c : Formula σ) : (c.map f).map g = c.map (g ∘ f) := by
  induction c with
  | always => rfl
  | literal l => rfl
  | negation c ih => rw [map, map, ih, map]
  | conjunction cs ih =>
    simp only [map, mapAll_eq_map, List.map_map]
    exact congrArg _ (List.map_congr_left ih)
  | disjunction cs ih =>
    simp only [map, mapAll_eq_map, List.map_map]
    exact congrArg _ (List.map_congr_left ih)

lemma literals_map (f : σ → τ) (c : Formula σ) :
    (c.map f).literals = c.literals.map (Literal.map f) := by
  induction c with
  | always => rfl
  | literal l => rfl
  | negation c ih => rw [map, literals, ih, literals]
  | conjunction cs ih =>
    simp only [map, mapAll_eq_map, literals_conjunction, List.flatMap_map, List.map_flatMap]
    exact List.flatMap_congr ih
  | disjunction cs ih =>
    simp only [map, mapAll_eq_map, literals_disjunction, List.flatMap_map, List.map_flatMap]
    exact List.flatMap_congr ih

/-- Only the signals of its literals matter for where a formula is taken. -/
lemma map_congr {f g : σ → τ} {c : Formula σ} (h : ∀ l ∈ c.literals, f l.signal = g l.signal) :
    c.map f = c.map g := by
  induction c with
  | always => rfl
  | literal l => rw [map, map, Literal.map, Literal.map, h l (List.mem_singleton_self l)]
  | negation c ih => rw [map, map, ih h]
  | conjunction cs ih =>
    simp only [map, mapAll_eq_map]
    exact congrArg _ (List.map_congr_left fun c hc =>
      ih c hc (forall_literals_conjunction h c hc))
  | disjunction cs ih =>
    simp only [map, mapAll_eq_map]
    exact congrArg _ (List.map_congr_left fun c hc =>
      ih c hc (forall_literals_disjunction h c hc))

lemma map_id (c : Formula σ) : c.map id = c := by
  induction c with
  | always => rfl
  | literal l => rfl
  | negation c ih => rw [map, ih]
  | conjunction cs ih =>
    rw [map, mapAll_eq_map, List.map_congr_left (g := id) ih, List.map_id]
  | disjunction cs ih =>
    rw [map, mapAll_eq_map, List.map_congr_left (g := id) ih, List.map_id]

lemma nesting_map (f : σ → τ) (c : Formula σ) : (c.map f).nesting = c.nesting := by
  have hall : ∀ cs : List (Formula σ), (∀ c ∈ cs, (c.map f).nesting = c.nesting) →
      nestingAll (cs.map (map f)) = nestingAll cs := by
    intro cs h
    induction cs with
    | nil => rfl
    | cons c cs ih =>
      obtain ⟨hc, hcs⟩ := List.forall_mem_cons.1 h
      rw [List.map_cons, nestingAll, nestingAll, hc, ih hcs]
  induction c with
  | always => rfl
  | literal l => rfl
  | negation c ih =>
    rcases takesSign_cases c with rfl | ⟨l, rfl⟩ | hsign
    · rfl
    · rfl
    · -- Whether a sign is counted depends on the kind of the operand only.
      have hsign' : (c.map f).takesSign = true := by
        cases c with
        | always => cases hsign
        | literal l => cases hsign
        | _ => rfl
      rw [map, nesting_negation hsign, nesting_negation hsign', ih]
  | conjunction cs ih => rw [map, mapAll_eq_map, nesting, nesting, hall cs ih]
  | disjunction cs ih => rw [map, mapAll_eq_map, nesting, nesting, hall cs ih]

/-! ## Conjunctions and normal formulas -/

lemma conjuncts_map (f : σ → τ) (c : Formula σ) :
    (c.map f).conjuncts = c.conjuncts.map (map f) := by
  cases c with
  | conjunction cs => exact mapAll_eq_map f cs
  | _ => rfl

/-- The conjunction about another kind of signal is that of the operands about it. -/
lemma map_all (f : σ → τ) (cs : List (Formula σ)) :
    (Formula.all cs).map f = Formula.all (cs.map (map f)) := by
  have hflat : (cs.map (map f)).flatMap conjuncts = (cs.flatMap conjuncts).map (map f) := by
    rw [List.flatMap_map, List.map_flatMap]
    exact List.flatMap_congr fun c _ => conjuncts_map f c
  rw [Formula.all, Formula.all, hflat]
  rcases cs.flatMap conjuncts with _ | ⟨c, _ | ⟨d, ds⟩⟩
  · rfl
  · rfl
  · exact congrArg conjunction (mapAll_eq_map f (c :: d :: ds))

lemma isConjunct_map {f : σ → τ} {c : Formula σ} (h : c.IsConjunct) : (c.map f).IsConjunct := by
  cases c with
  | always => cases h.1
  | conjunction cs => cases h.2
  | _ => exact ⟨rfl, rfl⟩

lemma isDisjunct_map {f : σ → τ} {c : Formula σ} (h : c.IsDisjunct) : (c.map f).IsDisjunct := by
  cases c with
  | always => cases h.1
  | disjunction cs => cases h.2
  | _ => exact ⟨rfl, rfl⟩

lemma Normal.map {c : Formula σ} (hc : c.Normal) (f : σ → τ) : (c.map f).Normal := by
  induction hc with
  | always => exact Normal.always
  | literal l => exact Normal.literal _
  | @negation c hc hflat ih =>
    refine Normal.negation ih ?_
    cases c with
    | negation c => cases hflat
    | _ => rfl
  | @conjunction cs hcs hflat hlength ih =>
    rw [Formula.map, mapAll_eq_map]
    exact Normal.conjunction (List.forall_mem_map.2 ih)
      (List.forall_mem_map.2 fun c hc => isConjunct_map (hflat c hc))
      (by rwa [List.length_map])
  | @disjunction cs hcs hflat hlength ih =>
    rw [Formula.map, mapAll_eq_map]
    exact Normal.disjunction (List.forall_mem_map.2 ih)
      (List.forall_mem_map.2 fun c hc => isDisjunct_map (hflat c hc))
      (by rwa [List.length_map])

end Formula

namespace Rule

lemma map_map (f : σ → τ) (g : τ → υ) (r : Rule σ) : (r.map f).map g = r.map (g ∘ f) := by
  simp [map, Formula.map_map, Function.comp_def, Output.map]

/-- Two ways of going over that agree on the signals of a rule give the same rule. -/
lemma map_congr {f g : σ → τ} {r : Rule σ} (h : ∀ s ∈ r.signals, f s = g s) :
    r.map f = r.map g := by
  obtain ⟨hcondition, houtputs⟩ := List.forall_mem_append.1 h
  rw [map, map, Formula.map_congr (List.forall_mem_map.1 hcondition),
    List.map_congr_left fun o ho => ?_]
  rw [Output.map, Output.map, List.forall_mem_map.1 houtputs o ho]

/-- A rule whose signals all stay the same stays the same. -/
lemma map_eq_self {f : σ → σ} {r : Rule σ} (h : ∀ s ∈ r.signals, f s = s) : r.map f = r := by
  have hid : r.map f = r.map id := map_congr h
  have houtputs : r.outputs.map (Output.map id) = r.outputs :=
    (List.map_congr_left fun _ _ => rfl).trans (List.map_id r.outputs)
  rw [hid, map, Formula.map_id, houtputs]

lemma signals_map (f : σ → τ) (r : Rule σ) : (r.map f).signals = r.signals.map f := by
  simp [signals, map, Formula.literals_map, Function.comp_def, Literal.map, Output.map]

lemma offsets_map (f : σ → τ) (r : Rule σ) : (r.map f).offsets = r.offsets := by
  simp [offsets, map, Formula.literals_map, Function.comp_def, Literal.map, Output.map]

end Rule
end StripAutomata
