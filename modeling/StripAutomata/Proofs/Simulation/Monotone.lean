import StripAutomata.Proofs.Simulation.RuleOrder
import StripAutomata.Proofs.Simulation.Trial

/-!
# Rules without negation

A condition in which nothing is negated but `always` asks for signals and never for their absence
(`Formula.Positive`).  Where it holds, it still holds when more is present (`Positive.holds_mono`).
So of two runs, one of which begins with more than the other, the two stay in this relation at every
trial of a rule with such a condition (`exists_attempt_both`): where the lesser run fires, the
greater one fires, too.

A trial that only the greater run makes cannot break the relation, since it can only add to the
greater run (`exists_attempt_right`).  Nothing is assumed of the condition of its rule.

The windows in which the two runs look are those of their own rules.  They do not come into it, as
each of them covers all that is looked at.
-/

namespace StripAutomata

namespace Formula

variable {σ : Type}

/-- Whether nothing is negated in a formula, but for `never`. -/
inductive Positive : Formula σ → Prop
  | always : Positive always
  | never : Positive never
  | literal (l : Literal σ) : Positive (literal l)
  | conjunction {cs : List (Formula σ)} (h : ∀ c ∈ cs, Positive c) : Positive (conjunction cs)
  | disjunction {cs : List (Formula σ)} (h : ∀ c ∈ cs, Positive c) : Positive (disjunction cs)

/-- A formula without negation still holds when more is present. -/
lemma Positive.holds_mono {c : Formula σ} (hc : c.Positive) {present more : Int → σ → Prop}
    (h : ∀ offset s, present offset s → more offset s) (hholds : c.Holds present) :
    c.Holds more := by
  induction hc with
  | always => exact hholds
  | never => exact hholds
  | literal l => exact h l.position l.signal hholds
  | @conjunction cs _ ih =>
    rw [Holds, holdsAll_iff] at hholds ⊢
    exact fun c hc => ih c hc (hholds c hc)
  | @disjunction cs _ ih =>
    rw [Holds, holdsSome_iff] at hholds ⊢
    obtain ⟨c, hc, hholds⟩ := hholds
    exact ⟨c, hc, ih c hc hholds⟩

end Formula

lemma Strip.Satisfies.mono {strip other : Strip} {cell : Nat} {c : Formula Signal}
    (h : strip.Satisfies cell c) (hc : c.Positive)
    (hcells : ∀ i s, s ∈ strip.cellOrEmpty i → s ∈ other.cellOrEmpty i) :
    other.Satisfies cell c := by
  refine hc.holds_mono (fun offset s hs => ?_) h
  show s ∈ (other.neighborhood cell 0 0).signalsAt ((strip.neighborhood cell 0 0).origin + offset)
  generalize (strip.neighborhood cell 0 0).origin + offset = place at hs ⊢
  cases place with
  | ofNat index => exact hcells index s hs
  | negSucc index => exact hs

namespace Simulation

variable {a b : Automaton} {strips others : Array Strip} {steps width time cell : Nat} {s : Signal}
  {v : Trial}

lemma HasShape.bounds_of_hold (h : HasShape strips steps width) (hs : Hold strips time cell s) :
    time ≤ steps ∧ cell < width := by
  have htime : time ≤ steps := by
    by_contra hlt
    have hlength := h.length
    rw [Hold, Array.getElem?_eq_none (by omega)] at hs
    exact not_mem_cellOrEmpty_empty 0 cell s hs
  obtain ⟨strip, hstrip, rfl⟩ := h.width time htime
  rw [Hold, hstrip, Option.getD_some] at hs
  exact ⟨htime, Strip.lt_size_of_mem hs⟩

/-- Whether strips of a shape hold only what others of the shape hold. -/
structure Within (steps width : Nat) (strips others : Array Strip) : Prop where
  left : HasShape strips steps width
  right : HasShape others steps width
  hold : ∀ time cell s, Hold strips time cell s → Hold others time cell s

lemma Within.placeAll (h : Within steps width strips others) (time cell : Nat)
    (outputs : List (Output Signal)) :
    Within steps width (placeAll time cell strips outputs) (placeAll time cell others outputs) := by
  refine ⟨h.left.placeAll _ _ _, h.right.placeAll _ _ _, fun t c s hs => ?_⟩
  obtain ⟨ht, hc⟩ := (h.left.placeAll time cell outputs).bounds_of_hold hs
  rw [hold_placeAll h.left ht hc] at hs
  rw [hold_placeAll h.right ht hc]
  exact hs.imp_left (h.hold t c s)

lemma Within.placeAll_right (h : Within steps width strips others) (time cell : Nat)
    (outputs : List (Output Signal)) :
    Within steps width strips (Simulation.placeAll time cell others outputs) := by
  refine ⟨h.left, h.right.placeAll _ _ _, fun t c s hs => ?_⟩
  obtain ⟨ht, hc⟩ := h.left.bounds_of_hold hs
  rw [hold_placeAll h.right ht hc]
  exact Or.inl (h.hold t c s hs)

/-- **A trial of both runs** keeps the one within the other, if there is no negation. -/
lemma exists_attempt_both (ha : v.rule ∈ a.rules) (hb : v.rule ∈ b.rules)
    (hpositive : v.rule.condition.Positive) (htime : v.time < steps)
    (h : Within steps width strips others) :
    ∃ after after', attempt a.reach strips v = .ok after ∧ attempt b.reach others v = .ok after' ∧
      Within steps width after after' := by
  obtain ⟨strip, hstrip, -⟩ := h.left.width v.time htime.le
  obtain ⟨other, hother, -⟩ := h.right.width v.time htime.le
  obtain ⟨after, hafter, hfires, hsilent⟩ := exists_tryRule ha hstrip v.cell
  obtain ⟨after', hafter', hfires', hsilent'⟩ := exists_tryRule hb hother v.cell
  have hcells : ∀ i s, s ∈ strip.cellOrEmpty i → s ∈ other.cellOrEmpty i := fun i s hs => by
    simpa [Hold, hstrip, hother, hs] using h.hold v.time i s
  refine ⟨after, after', hafter, hafter', ?_⟩
  -- If the rule fires in the smaller run, it does so in the greater one.
  by_cases hleft : strip.Satisfies v.cell v.rule.condition
  · rw [hfires hleft, hfires' (hleft.mono hpositive hcells)]
    exact h.placeAll _ _ _
  · rw [hsilent hleft]
    by_cases hright : other.Satisfies v.cell v.rule.condition
    · rw [hfires' hright]
      exact h.placeAll_right _ _ _
    · rwa [hsilent' hright]

/-- **A trial of the greater run** alone keeps the other one within it. -/
lemma exists_attempt_right (hb : v.rule ∈ b.rules) (htime : v.time < steps)
    (h : Within steps width strips others) :
    ∃ after, attempt b.reach others v = .ok after ∧ Within steps width strips after := by
  obtain ⟨other, hother, -⟩ := h.right.width v.time htime.le
  obtain ⟨after, hafter, hfires, hsilent⟩ := exists_tryRule hb hother v.cell
  refine ⟨after, hafter, ?_⟩
  by_cases hright : other.Satisfies v.cell v.rule.condition
  · rw [hfires hright]
    exact h.placeAll_right _ _ _
  · rwa [hsilent hright]

end Simulation

namespace Automaton

open Simulation

variable {a b : Automaton} {initial other : Strip}

lemma within_initialStrips (hsize : initial.size = other.size)
    (hcells : ∀ cell s, s ∈ initial.cellOrEmpty cell → s ∈ other.cellOrEmpty cell) (steps : Nat) :
    Within steps initial.size (initialStrips initial steps) (initialStrips other steps) := by
  refine ⟨hasShape_initialStrips initial steps, ?_, fun time cell s hs => ?_⟩
  · rw [hsize]
    exact hasShape_initialStrips other steps
  · obtain ⟨htime, hs⟩ := hold_initialStrips.1 hs
    exact hold_initialStrips.2 ⟨htime, hcells cell s hs⟩

/-- **Without negation more makes for more.**  If the rules of an automaton are some of those of
another one, in their order, and no condition of them negates anything but `always`, and if it
begins with a strip whose cells hold only what those of the other one's hold, then it is so of
every cell at every step of the diagrams.  The rules that only the other one has may negate what
they like. -/
theorem simulate_monotone (hrules : a.rules.Sublist b.rules)
    (hpositive : ∀ rule ∈ a.rules, rule.condition.Positive) (hsize : initial.size = other.size)
    (hcells : ∀ cell s, s ∈ initial.cellOrEmpty cell → s ∈ other.cellOrEmpty cell) (steps : Nat) :
    ∃ d e, a.simulate initial steps = .ok d ∧ b.simulate other steps = .ok e ∧
      d.size = steps + 1 ∧ e.size = steps + 1 ∧
      ∀ time cell s, s ∈ d.signalsAt time cell → s ∈ e.signalsAt time cell := by
  have htrials := trials_sublist hrules hsize steps
  -- The trials of the smaller run are some of those of the greater one, in order.
  have hboth : ∀ v ∈ a.trials initial steps, ∀ strips others,
      Within steps initial.size strips others →
      ∃ after after', attempt a.reach strips v = .ok after ∧
        attempt b.reach others v = .ok after' ∧ Within steps initial.size after after' := by
    intro v hv strips others h
    obtain ⟨htime, -, ha⟩ := mem_trials.1 hv
    obtain ⟨-, -, hb⟩ := mem_trials.1 (htrials.subset hv)
    exact exists_attempt_both ha hb (hpositive _ ha) htime h
  have hright : ∀ v ∈ b.trials other steps, ∀ strips others,
      Within steps initial.size strips others →
      ∃ after, attempt b.reach others v = .ok after ∧ Within steps initial.size strips after := by
    intro v hv strips others h
    obtain ⟨htime, -, hb⟩ := mem_trials.1 hv
    exact exists_attempt_right hb htime h
  obtain ⟨strips, others, hstrips, hothers, hwithin⟩ := exists_foldlM_sublist htrials hboth hright
    (within_initialStrips hsize hcells steps)
  refine ⟨⟨strips⟩, ⟨others⟩, ?_, ?_, hwithin.left.length, hwithin.right.length,
    fun time cell s hs => ?_⟩
  · rw [simulate_eq_trials, hstrips]
    rfl
  · rw [simulate_eq_trials, hothers]
    rfl
  · exact mem_signalsAt_iff_hold.2 (hwithin.hold time cell s (mem_signalsAt_iff_hold.1 hs))

/-- The automaton of a rule that marks the cell of a signal in the same step, and of a rule that
moves the mark when one of two signals is beside it. -/
def asking : Automaton :=
  ⟨∅, [⟨.literal ⟨⟨0⟩, 0, 0⟩, [⟨0, ⟨1⟩, 0⟩]⟩,
    ⟨.conjunction [.literal ⟨⟨1⟩, 0, 0⟩, .disjunction [.literal ⟨⟨0⟩, 0, 0⟩, .never]],
      [⟨1, ⟨1⟩, 1⟩]⟩]⟩

/-- The same with a rule in between that looks further, and for the absence of a mark. -/
def askingMore : Automaton :=
  ⟨∅, [⟨.literal ⟨⟨0⟩, 0, 0⟩, [⟨0, ⟨1⟩, 0⟩]⟩,
    ⟨.negation (.literal ⟨⟨1⟩, -5, 0⟩), [⟨0, ⟨0⟩, 0⟩]⟩,
    ⟨.conjunction [.literal ⟨⟨1⟩, 0, 0⟩, .disjunction [.literal ⟨⟨0⟩, 0, 0⟩, .never]],
      [⟨1, ⟨1⟩, 1⟩]⟩]⟩

/-- A rule more that negates, and a signal more at the beginning. -/
theorem simulate_monotone_asking :
    asking.rules.Sublist askingMore.rules ∧ (∀ rule ∈ asking.rules, rule.condition.Positive) ∧
    ((Strip.empty 3).place 0 ⟨0⟩).size = (((Strip.empty 3).place 0 ⟨0⟩).place 2 ⟨1⟩).size ∧
    (∀ cell s, s ∈ ((Strip.empty 3).place 0 ⟨0⟩).cellOrEmpty cell →
      s ∈ (((Strip.empty 3).place 0 ⟨0⟩).place 2 ⟨1⟩).cellOrEmpty cell) ∧
    ∃ d e, asking.simulate ((Strip.empty 3).place 0 ⟨0⟩) 2 = .ok d ∧
      askingMore.simulate (((Strip.empty 3).place 0 ⟨0⟩).place 2 ⟨1⟩) 2 = .ok e ∧
      d.size = 3 ∧ e.size = 3 ∧
      ∀ time cell s, s ∈ d.signalsAt time cell → s ∈ e.signalsAt time cell := by
  have hrules : asking.rules.Sublist askingMore.rules := by decide
  have hpositive : ∀ rule ∈ asking.rules, rule.condition.Positive := by
    simp only [asking, List.forall_mem_cons]
    refine ⟨.literal _, .conjunction ?_, by simp⟩
    simp only [List.forall_mem_cons]
    refine ⟨.literal _, .disjunction ?_, by simp⟩
    simp only [List.forall_mem_cons]
    exact ⟨.literal _, .never, by simp⟩
  have hsize : ((Strip.empty 3).place 0 ⟨0⟩).size =
      (((Strip.empty 3).place 0 ⟨0⟩).place 2 ⟨1⟩).size := by simp
  have hcells : ∀ cell s, s ∈ ((Strip.empty 3).place 0 ⟨0⟩).cellOrEmpty cell →
      s ∈ (((Strip.empty 3).place 0 ⟨0⟩).place 2 ⟨1⟩).cellOrEmpty cell := by
    intro cell s hs
    rw [Strip.mem_cellOrEmpty_place (by simpa using Strip.lt_size_of_mem hs)]
    exact Or.inl hs
  exact ⟨hrules, hpositive, hsize, hcells, simulate_monotone hrules hpositive hsize hcells 2⟩

end Automaton
end StripAutomata
