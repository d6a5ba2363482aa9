import Mathlib.Order.Bounds.Basic
import StripAutomata.Proofs.Automaton.Reach
import StripAutomata.Proofs.RuleText.Concatenation
import StripAutomata.Proofs.RuleText.Scoping

/-!
# The reach of rules is exact

How far an automaton reaches is computed from its rules, in one pass over the literals of the
conditions and the outputs.  Here the reach is said without a pass over anything: a literal stands
in a formula (`Formula.Mentions`), a rule touches an offset (`Rule.Touches`), and the reach is made
of the least and the greatest offset that some rule touches and of the largest step of an output,
with zero among them in each case.  Both bounds are attained, so none can be tightened.

The largest step is computed once more, by the reader, which updates it with every outputs part that
it reads.  The invariant of the reader says that it is that of the rules so far
(`RuleText.Progress.MadeOf`), and what is left to see is that the two computations take the maximum
of the same steps (`foldl_deepen_eq`).

What a text brings into the reach can be read off its statements (`RuleText.BringsIn`): a statement
with outputs brings in where they are placed, and where those conditions look that govern it.  A
condition counts as it is after it was simplified, and one that governs no statement with outputs
does not count at all.
-/

namespace StripAutomata

/-! ## Where rules read and place signals -/

namespace Formula

variable {σ : Type}

/-- Whether a literal stands in a formula, at any depth. -/
inductive Mentions (l : Literal σ) : Formula σ → Prop
  | literal : Mentions l (literal l)
  | negation {c : Formula σ} (h : Mentions l c) : Mentions l (negation c)
  | conjunction {c : Formula σ} {cs : List (Formula σ)} (hc : c ∈ cs) (h : Mentions l c) :
    Mentions l (conjunction cs)
  | disjunction {c : Formula σ} {cs : List (Formula σ)} (hc : c ∈ cs) (h : Mentions l c) :
    Mentions l (disjunction cs)

lemma mem_literals_iff_mentions {l : Literal σ} (c : Formula σ) :
    l ∈ c.literals ↔ c.Mentions l := by
  induction c with
  | always => exact ⟨fun h => absurd h List.not_mem_nil, fun h => nomatch h⟩
  | literal m =>
    rw [literals, List.mem_singleton]
    exact ⟨fun h => h ▸ .literal, fun h => by cases h; rfl⟩
  | negation c ih =>
    rw [literals, ih]
    exact ⟨.negation, fun h => by cases h; assumption⟩
  | conjunction cs ih =>
    rw [literals_conjunction, List.mem_flatMap]
    constructor
    · rintro ⟨c, hc, hl⟩
      exact .conjunction hc ((ih c hc).1 hl)
    · rintro (_ | _ | ⟨hc, h⟩)
      exact ⟨_, hc, (ih _ hc).2 h⟩
  | disjunction cs ih =>
    rw [literals_disjunction, List.mem_flatMap]
    constructor
    · rintro ⟨c, hc, hl⟩
      exact .disjunction hc ((ih c hc).1 hl)
    · rintro (_ | _ | _ | ⟨hc, h⟩)
      exact ⟨_, hc, (ih _ hc).2 h⟩

end Formula

/-- Whether a rule reads or places a signal at an offset. -/
def Rule.Touches {σ : Type} (r : Rule σ) (offset : Int) : Prop :=
  (∃ l, r.condition.Mentions l ∧ l.position = offset) ∨ ∃ o ∈ r.outputs, o.offset = offset

lemma Rule.mem_offsets_iff_touches {σ : Type} {r : Rule σ} {offset : Int} :
    offset ∈ r.offsets ↔ r.Touches offset := by
  simp only [offsets, List.mem_append, List.mem_map, Touches, Formula.mem_literals_iff_mentions]

namespace Automaton

variable {a : Automaton}

lemma mem_offsets_iff_touches {offset : Int} :
    offset ∈ a.offsets ↔ ∃ r ∈ a.rules, r.Touches offset := by
  simp only [offsets, List.mem_flatMap, Rule.mem_offsets_iff_touches]

/-- The offsets that rules touch, as far as they matter to the reach, which has zero in it. -/
def reached (rules : List (Rule Signal)) : Set Int :=
  insert 0 {offset | ∃ r ∈ rules, r.Touches offset}

lemma mem_reached_iff {offset : Int} : offset ∈ reached a.rules ↔ offset ∈ 0 :: a.offsets := by
  rw [reached, Set.mem_insert_iff, Set.mem_ofPred_eq, List.mem_cons, mem_offsets_iff_touches]

lemma isLeast_reach_least (a : Automaton) : IsLeast (reached a.rules) a.reach.least := by
  obtain ⟨hmem, hle⟩ := reach_least a
  exact ⟨mem_reached_iff.2 hmem, fun offset hoffset => hle offset (mem_reached_iff.1 hoffset)⟩

lemma isGreatest_reach_greatest (a : Automaton) :
    IsGreatest (reached a.rules) a.reach.greatest := by
  obtain ⟨hmem, hle⟩ := reach_greatest a
  exact ⟨mem_reached_iff.2 hmem, fun offset hoffset => hle offset (mem_reached_iff.1 hoffset)⟩

/-- The steps of outputs, as far as they matter to the lookahead, which is zero for none. -/
def placedAfter (rules : List (Rule Signal)) : Set Nat :=
  insert 0 {step | ∃ r ∈ rules, ∃ o ∈ r.outputs, o.step = step}

lemma mem_placedAfter_iff {step : Nat} :
    step ∈ placedAfter a.rules ↔ step ∈ 0 :: a.outputs.map (·.step) := by
  rw [placedAfter, Set.mem_insert_iff, Set.mem_ofPred_eq, List.mem_cons, List.mem_map]
  simp only [outputs, List.mem_flatMap]
  refine or_congr_right ⟨?_, ?_⟩
  · rintro ⟨r, hr, o, ho, hstep⟩
    exact ⟨o, ⟨r, hr, ho⟩, hstep⟩
  · rintro ⟨o, ⟨r, hr, ho⟩, hstep⟩
    exact ⟨r, hr, o, ho, hstep⟩

lemma isGreatest_reach_lookahead (a : Automaton) :
    IsGreatest (placedAfter a.rules) a.reach.lookahead := by
  have hgreatest : (0 :: a.outputs.map (·.step)).max? = some a.reach.lookahead := List.max?_cons'
  obtain ⟨hmem, hle⟩ := List.max?_eq_some_iff.1 hgreatest
  exact ⟨mem_placedAfter_iff.2 hmem, fun step hstep => hle step (mem_placedAfter_iff.1 hstep)⟩

end Automaton

/-! ## What a text brings into the reach -/

namespace RuleText

/-- The largest step is the same, taken rule by rule or over all outputs at once. -/
lemma foldl_deepen_eq {σ : Type} (rules : List (Rule σ)) (depth : Nat) :
    rules.foldl deepen depth = ((rules.flatMap Rule.outputs).map (·.step)).foldl max depth := by
  rw [List.foldl_map, List.foldl_flatMap]
  rfl

/-- The lookahead that the reader keeps is that of the rules that it has read. -/
lemma lookahead_of_readInto {lexicon after : Lexicon} {text : String} {listing : Listing Signal}
    (h : readInto lexicon text = (after, .ok listing)) :
    listing.lookahead = (Automaton.mk after listing.rules).reach.lookahead := by
  obtain ⟨named, hnamed, rfl⟩ := Lexicon.take_eq_ok h
  have hread : read text = ⟨(read text).mentioned, .ok named⟩ := by rw [← hnamed]
  obtain ⟨-, hlisting⟩ := madeOf_of_read hread
  have hlookahead : named.lookahead = named.rules.foldl deepen 0 := congrArg _ hlisting
  show named.lookahead = _
  rw [hlookahead, foldl_deepen_eq]
  simp [Automaton.reach, Automaton.outputs, Listing.map, Rule.map, Output.map, List.flatMap_map,
    List.map_flatMap, Function.comp_def]

/-- Whether the last statement of a list, which has outputs, brings an offset into the reach: one at
which the condition of a statement looks that governs it, or one at which it places a signal. -/
def BringsIn (ss : List Statement) (s : Statement) (offset : Int) : Prop :=
  (∃ t ∈ governing ss, ∃ own, t.Requires own ∧ ∃ l, own.Mentions l ∧ l.position = offset) ∨
    ∃ outputs, (readOutputs s.outputs).outcome = .ok outputs ∧ ∃ o ∈ outputs, o.offset = offset

lemma Statement.Requires.unique {s : Statement} {own other : Formula String} (h : s.Requires own)
    (h' : s.Requires other) : own = other := by
  obtain ⟨text, htext, hread⟩ := h
  obtain ⟨text', htext', hread'⟩ := h'
  obtain rfl : text = text' := Option.some.inj (htext.symm.trans htext')
  exact Except.ok.inj (hread.symm.trans hread')

lemma exists_mem_iff_of_forall₂ {α β : Type} {R : α → β → Prop} {as : List α} {bs : List β}
    (h : List.Forall₂ R as bs) {p : α → Prop} {q : β → Prop} (hpq : ∀ a b, R a b → (p a ↔ q b)) :
    (∃ a ∈ as, p a) ↔ ∃ b ∈ bs, q b := by
  induction h with
  | nil => simp
  | cons hab _ ih => simp only [List.exists_mem_cons_iff, hpq _ _ hab, ih]

/-- A rule touches what its statement brings in. -/
lemma RuleOf.touches_iff {σ : Type} {f : String → σ} {ss : List Statement} {s : Statement}
    {r : Rule σ} (h : RuleOf f ss s r) {offset : Int} :
    r.Touches offset ↔ BringsIn ss s offset := by
  obtain ⟨⟨owns, howns, hcondition⟩, outputs, hread, houtputs⟩ := h
  -- The condition of the rule is the conjunction of those that govern it, so it has their literals.
  have hmentions : (∃ l, r.condition.Mentions l ∧ l.position = offset) ↔
      ∃ own ∈ owns, ∃ l, own.Mentions l ∧ l.position = offset := by
    simp only [← Formula.mem_literals_iff_mentions, hcondition, Formula.literals_all,
      List.flatMap_map, Formula.literals_map, List.mem_flatMap, List.mem_map]
    constructor
    · rintro ⟨-, ⟨own, hown, l, hl, rfl⟩, hoffset⟩
      exact ⟨own, hown, l, hl, hoffset⟩
    · rintro ⟨own, hown, l, hl, hoffset⟩
      exact ⟨_, ⟨own, hown, l, hl, rfl⟩, hoffset⟩
  have hplaces : (∃ o ∈ r.outputs, o.offset = offset) ↔ ∃ o ∈ outputs, o.offset = offset := by
    simp only [houtputs, List.mem_map, exists_exists_and_eq_and, Output.map]
  -- A statement requires one condition only, so it does not matter which one is named.
  have hgoverning : (∃ t ∈ governing ss, ∃ own, t.Requires own ∧
      ∃ l, own.Mentions l ∧ l.position = offset) ↔
        ∃ own ∈ owns, ∃ l, own.Mentions l ∧ l.position = offset := by
    refine exists_mem_iff_of_forall₂ howns fun t own hown => ⟨?_, fun hl => ⟨own, hown, hl⟩⟩
    rintro ⟨other, hother, hl⟩
    exact hown.unique hother ▸ hl
  rw [Rule.Touches, BringsIn, hmentions, hplaces, hgoverning, hread]
  simp

/-- The rules of a text touch what its statements with outputs bring in. -/
lemma exists_touches_iff {lexicon after : Lexicon} {text : String} {listing : Listing Signal}
    (h : readInto lexicon text = (after, .ok listing)) (offset : Int) :
    (∃ r ∈ listing.rules, r.Touches offset) ↔ ∃ x ∈ ruling (statementsOf text),
      BringsIn ((statementsOf text).take (x.2 + 1)) x.1 offset := by
  obtain ⟨p, hread, hrules⟩ := exists_of_readInto h
  have hscoped : Scoped after.handle (statementsOf text) (statementsOf text).length p := by
    apply scoped_of_readStatements le_rfl
    rwa [List.take_length]
  have hall := hscoped.rules
  rw [List.take_length] at hall
  have hrule := List.forall₂_map_right_iff.2 hall
  rw [← hrules] at hrule
  exact (exists_mem_iff_of_forall₂ hrule fun x r hr => hr.touches_iff.symm).symm

/-- **The reach of rules is exact.**  Whatever the rules, the least and the greatest offset of their
reach are the least and the greatest of zero and the offsets that some rule touches, and the
lookahead is the largest of zero and the steps of the outputs.  When the rules are those of a text,
the lookahead that the reader has kept is the same, and the rules touch those offsets that the
statements with outputs bring in: what a condition has lost when it was simplified does not count,
and neither does a condition that governs no outputs. -/
theorem reach_exact :
    (∀ a : Automaton, IsLeast (Automaton.reached a.rules) a.reach.least ∧
      IsGreatest (Automaton.reached a.rules) a.reach.greatest ∧
      IsGreatest (Automaton.placedAfter a.rules) a.reach.lookahead) ∧
    ∀ (lexicon after : Lexicon) (text : String) (listing : Listing Signal),
      readInto lexicon text = (after, .ok listing) →
      listing.lookahead = (Automaton.mk after listing.rules).reach.lookahead ∧
      Automaton.reached listing.rules =
        insert 0 {offset | ∃ x ∈ ruling (statementsOf text),
          BringsIn ((statementsOf text).take (x.2 + 1)) x.1 offset} := by
  refine ⟨fun a => ?_, fun lexicon after text listing h => ⟨lookahead_of_readInto h, ?_⟩⟩
  · exact ⟨a.isLeast_reach_least, a.isGreatest_reach_greatest, a.isGreatest_reach_lookahead⟩
  · exact congrArg (insert 0) (Set.ext fun offset => exists_touches_iff h offset)

/-- A text in which a literal is dropped, since the disjunction around it always holds, and in which
another one governs nothing. -/
def dropping : String := "[7.A -[]]: 3/-1.B\n9.C:\n"

/-- The rules of `dropping`, with the handles that the names get in the order of the text. -/
def droppingListing : Listing Signal := ⟨[⟨.always, [⟨-1, ⟨1⟩, 3⟩]⟩], 3⟩

/-- Neither of the literals of `dropping` makes the reach any wider. -/
theorem reach_exact_dropping :
    ∃ after, readInto .empty dropping = (after, .ok droppingListing) ∧
      after.names = ["A", "B", "C"] ∧
      (Automaton.mk after droppingListing.rules).reach = ⟨-1, 0, 3⟩ ∧
      droppingListing.lookahead = (Automaton.mk after droppingListing.rules).reach.lookahead ∧
      Automaton.reached droppingListing.rules =
        insert 0 {offset | ∃ x ∈ ruling (statementsOf dropping),
          BringsIn ((statementsOf dropping).take (x.2 + 1)) x.1 offset} := by
  have hread : readInto .empty dropping = ((readInto .empty dropping).1, .ok droppingListing) := rfl
  exact ⟨_, hread, by decide, by decide, reach_exact.2 _ _ _ _ hread⟩

end RuleText
end StripAutomata
