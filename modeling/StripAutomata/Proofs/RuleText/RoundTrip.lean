import StripAutomata.Proofs.Lexicon
import StripAutomata.Proofs.RuleText.Written
import StripAutomata.RuleText.Interning

/-!
# Reading undoes writing

A regular rule over the handles of a lexicon of names is written with those names, and reading the
text into the lexicon gives the rule and leaves the lexicon as it is (`readInto_render_iff`).  The
one thing that can go wrong is the nesting of the condition, which the reader limits and the rule
does not.
-/

namespace StripAutomata

/-- A regular rule whose signals have names can be written. -/
lemma Rule.Regular.writable {lexicon : Lexicon} {rule : Rule Signal} (hrule : rule.Regular)
    (hnames : ∀ name ∈ lexicon.names, Item.isName name.toList = true)
    (hknown : ∀ s ∈ rule.signals, lexicon.Knows s) : (rule.map lexicon.nameOf).Writable where
  toRegular := hrule.map lexicon.nameOf
  names := by
    rw [Rule.signals_map]
    exact List.forall_mem_map.2 fun s hs => hnames _ (Lexicon.nameOf_mem (hknown s hs))

namespace RuleText

/-- What is read of a written rule, if its condition is not nested too deeply. -/
lemma readInto_render {lexicon : Lexicon}
    (hnames : ∀ name ∈ lexicon.names, Item.isName name.toList = true) {rule : Rule Signal}
    (hknown : ∀ s ∈ rule.signals, lexicon.Knows s) (hrule : rule.Regular)
    (hnesting : rule.condition.nesting ≤ Condition.maxDepth) :
    readInto lexicon (rule.map lexicon.nameOf).render = (lexicon, .ok (.ofRules [rule])) := by
  have hwritable : ∀ r ∈ [rule.map lexicon.nameOf], r.Writable :=
    List.forall_mem_singleton.2 (hrule.writable hnames hknown)
  have hread := read_render hwritable
    (List.forall_mem_singleton.2 (by rwa [Rule.map, Formula.nesting_map]))
  have hsubset : (rule.map lexicon.nameOf).signals ⊆ lexicon.names := by
    rw [Rule.signals_map]
    exact List.forall_mem_map.2 fun s hs => Lexicon.nameOf_mem (hknown s hs)
  have hback : (Listing.ofRules [rule.map lexicon.nameOf]).map lexicon.handle = .ofRules [rule] := by
    rw [Listing.map, Listing.ofRules, List.map_singleton, Rule.handle_nameOf hknown]
    simp [Listing.ofRules, deepen, Rule.map, Output.map, List.foldl_map]
  rw [List.map_singleton, String.intercalate_singleton] at hread
  simp [readInto, Lexicon.take, hread, Lexicon.insertAll_of_subset hsubset, hback, Except.map]

/-- A written rule is refused if its condition is nested too deeply. -/
lemma readInto_render_too_deep {lexicon : Lexicon}
    (hnames : ∀ name ∈ lexicon.names, Item.isName name.toList = true) {rule : Rule Signal}
    (hknown : ∀ s ∈ rule.signals, lexicon.Knows s) (hrule : rule.Regular)
    (hnesting : Condition.maxDepth < rule.condition.nesting) :
    ∃ token, (readInto lexicon (rule.map lexicon.nameOf).render).2 =
      .error ⟨1, ⟨token, .nestedTooDeeply⟩⟩ := by
  have hwritable : ∀ r ∈ [rule.map lexicon.nameOf], r.Writable :=
    List.forall_mem_singleton.2 (hrule.writable hnames hknown)
  obtain ⟨line, token, hle, hge, hread⟩ := read_render_too_deep hwritable
    ⟨_, List.mem_singleton_self _, by rwa [Rule.map, Formula.nesting_map]⟩
  obtain rfl : line = 1 := by
    rw [List.length_singleton] at hge
    omega
  refine ⟨token, ?_⟩
  rw [List.map_singleton, String.intercalate_singleton] at hread
  simp [readInto, Lexicon.take, hread, Except.map]

/-- **Reading undoes writing.**  For a lexicon of names and a regular rule over its handles, the
written rule is read into the lexicon as that rule alone, and the lexicon stays as it is, exactly if
the condition has no more than `maxDepth` groups and signs inside one another; otherwise the text is
refused for its nesting. -/
theorem readInto_render_iff {lexicon : Lexicon}
    (hnames : ∀ name ∈ lexicon.names, Item.isName name.toList = true) {rule : Rule Signal}
    (hknown : ∀ s ∈ rule.signals, lexicon.Knows s) (hrule : rule.Regular) :
    (readInto lexicon (rule.map lexicon.nameOf).render = (lexicon, .ok (.ofRules [rule])) ↔
      rule.condition.nesting ≤ Condition.maxDepth) ∧
    (Condition.maxDepth < rule.condition.nesting →
      ∃ token, (readInto lexicon (rule.map lexicon.nameOf).render).2 =
        .error ⟨1, ⟨token, .nestedTooDeeply⟩⟩) := by
  have hdeep := readInto_render_too_deep hnames hknown hrule
  refine ⟨⟨fun hread => ?_, readInto_render hnames hknown hrule⟩, hdeep⟩
  by_contra hnesting
  obtain ⟨token, herror⟩ := hdeep (not_le.1 hnesting)
  rw [hread] at herror
  cases herror

/-- The rule `(-1.A 3/2.-B): 2/1.B`. -/
def twoNamesRule : Rule Signal :=
  ⟨.conjunction [.literal ⟨⟨0⟩, -1, 0⟩, .negation (.literal ⟨⟨1⟩, 2, 3⟩)], [⟨1, ⟨1⟩, 2⟩]⟩

lemma twoNamesRule_regular : twoNamesRule.Regular where
  normal := by
    refine Formula.Normal.conjunction ?_ ?_ le_rfl
    · simp only [List.forall_mem_cons, List.not_mem_nil, false_implies, implies_true, and_true]
      exact ⟨Formula.Normal.literal _, Formula.Normal.negation (Formula.Normal.literal _) rfl⟩
    · simp only [List.forall_mem_cons, List.not_mem_nil, false_implies, implies_true, and_true]
      exact ⟨⟨rfl, rfl⟩, ⟨rfl, rfl⟩⟩
  literals := by
    simp [twoNamesRule, Formula.literals, Formula.literalsAll, Literal.InRange, Item.IsOffset]
  outputs := by
    simp [twoNamesRule, Output.InRange, Output.IsLocal, Item.IsOffset, Numeral.stepBound]
  outputs_ne_nil := List.cons_ne_nil _ _

/-- The rule over two names is read back from its written form. -/
theorem readInto_render_twoNames :
    (∀ name ∈ Lexicon.twoNames.names, Item.isName name.toList = true) ∧
    (∀ s ∈ twoNamesRule.signals, Lexicon.twoNames.Knows s) ∧ twoNamesRule.Regular ∧
    readInto Lexicon.twoNames (twoNamesRule.map Lexicon.twoNames.nameOf).render =
      (Lexicon.twoNames, .ok (.ofRules [twoNamesRule])) := by
  have hnames : ∀ name ∈ Lexicon.twoNames.names, Item.isName name.toList = true := by decide
  have hknown : ∀ s ∈ twoNamesRule.signals, Lexicon.twoNames.Knows s := by decide
  have hround := readInto_render_iff hnames hknown twoNamesRule_regular
  exact ⟨hnames, hknown, twoNamesRule_regular, hround.1.2 (by decide)⟩

end RuleText
end StripAutomata
