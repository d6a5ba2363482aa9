import StripAutomata.Automaton.Basic
import StripAutomata.Proofs.Lexicon
import StripAutomata.Proofs.RuleText.Invariant

/-!
# Reading an automaton back from its written form

The written form of an automaton that was read has its rules on lines of their own, and what is read
can be written, so the text is read as the same rules (`parse_render`).  The new automaton numbers
the signals by the order in which the written rules mention them, and therefore agrees with the old
one on the rules over names, on the reach and on the written form, though not on the handles.

There is one exception.  The reader limits how many groups and signs stand inside one another on a
line; but where a line has several items, or stands in a scope, the condition in force is a
conjunction around them, which is written as one more group.  The written form of rules that were
accepted may so be refused, and it is exactly if a condition is nested too deeply.
-/

namespace StripAutomata.Automaton

/-! ## Rules over names -/

/-- How far rules reach does not depend on how their signals are called. -/
lemma reach_eq_of_namedRules {a b : Automaton} (h : a.namedRules = b.namedRules) :
    a.reach = b.reach := by
  -- Both the offsets and the steps can be computed from the rules over names.
  have hoffsets : ∀ c : Automaton, c.offsets = c.namedRules.flatMap Rule.offsets := by
    intro c
    simp [offsets, namedRules, List.flatMap_map, Rule.offsets_map]
  have hsteps : ∀ c : Automaton, c.outputs.map (·.step) =
      c.namedRules.flatMap fun r => r.outputs.map (·.step) := by
    intro c
    simp [outputs, namedRules, List.flatMap_map, List.map_flatMap, Rule.map, Output.map,
      Function.comp_def]
  rw [reach, reach, hoffsets a, hoffsets b, hsteps a, hsteps b, h]

/-- Rules whose names are interned into a lexicon keep their names. -/
lemma namedRules_handle {lexicon : Lexicon} {rules : List (Rule String)}
    (h : ∀ r ∈ rules, r.signals ⊆ lexicon.names) :
    namedRules ⟨lexicon, rules.map (Rule.map lexicon.handle)⟩ = rules := by
  rw [namedRules, List.map_map]
  refine (List.map_congr_left fun r hr => ?_).trans (List.map_id rules)
  exact Rule.nameOf_handle (h r hr)

/-! ## Reading -/

lemma subset_names_insertAll (names : List String) :
    names ⊆ ((∅ : Lexicon).insertAll names).names :=
  fun _ hname => Lexicon.mem_names_insertAll.2 (Or.inr hname)

/-- What is read as rules over names that are mentioned is an automaton with these rules. -/
lemma parse_of_read {text : String} {mentioned : List String} {listing : Listing String}
    (hread : RuleText.read text = ⟨mentioned, .ok listing⟩)
    (hnames : ∀ r ∈ listing.rules, r.signals ⊆ mentioned) :
    ∃ a, parse text = .ok a ∧ a.namedRules = listing.rules ∧
      a.rules = listing.rules.map (Rule.map a.lexicon.handle) := by
  let lexicon := (∅ : Lexicon).insertAll mentioned
  refine ⟨⟨lexicon, listing.rules.map (Rule.map lexicon.handle)⟩, ?_, ?_, rfl⟩
  · rw [parse, RuleText.readInto, Lexicon.take, hread]
    rfl
  · exact namedRules_handle fun r hr =>
      List.Subset.trans (hnames r hr) (subset_names_insertAll mentioned)

/-- The text of an automaton is read as its rules over names, which can be written. -/
lemma read_of_parse {text : String} {a : Automaton} (h : parse text = .ok a) :
    ∃ mentioned, RuleText.read text = ⟨mentioned, .ok (.ofRules a.namedRules)⟩ ∧
      (∀ r ∈ a.namedRules, r.MadeOf mentioned) ∧
      a.rules = a.namedRules.map (Rule.map a.lexicon.handle) := by
  rcases hread : RuleText.read text with ⟨mentioned, error | listing⟩
  · simp [parse, RuleText.readInto, Lexicon.take, hread, Except.map] at h
  · obtain ⟨hmade, hlisting⟩ := RuleText.madeOf_of_read hread
    obtain ⟨b, hb, hnamed, hrules⟩ := parse_of_read hread fun r hr => (hmade r hr).2
    obtain rfl : a = b := Except.ok.inj (h.symm.trans hb)
    rw [hnamed, ← hlisting]
    exact ⟨mentioned, rfl, hmade, hrules⟩

theorem regular_of_parse {text : String} {a : Automaton} (h : parse text = .ok a) :
    ∀ r ∈ a.rules, r.Regular := by
  obtain ⟨mentioned, -, hmade, hrules⟩ := read_of_parse h
  rw [hrules]
  exact List.forall_mem_map.2 fun r hr => (hmade r hr).1.toRegular.map _

/-! ## Reading the written form -/

lemma parse_render_rules {rules : List (Rule String)} (h : ∀ r ∈ rules, r.Writable)
    (hnesting : ∀ r ∈ rules, r.condition.nesting ≤ Condition.maxDepth) :
    ∃ b, parse ("\n".intercalate (rules.map Rule.render)) = .ok b ∧ b.namedRules = rules := by
  obtain ⟨b, hb, hrules, -⟩ := parse_of_read (RuleText.read_render h hnesting)
    fun r hr name hname => List.mem_flatMap.2 ⟨r, hr, hname⟩
  exact ⟨b, hb, hrules⟩

/-- Rules that are written are refused if a condition is nested too deeply. -/
lemma parse_render_too_deep {rules : List (Rule String)} (h : ∀ r ∈ rules, r.Writable)
    (hnesting : ∃ r ∈ rules, Condition.maxDepth < r.condition.nesting) :
    ∃ line token, parse ("\n".intercalate (rules.map Rule.render)) =
      .error ⟨line, ⟨token, .nestedTooDeeply⟩⟩ := by
  obtain ⟨line, token, -, -, hread⟩ := RuleText.read_render_too_deep h hnesting
  exact ⟨line, token, by simp [parse, RuleText.readInto, Lexicon.take, hread, Except.map]⟩

/-- **An automaton is read back from its written form**, exactly if no condition has more than
`maxDepth` groups and signs inside one another.  Then the rules over names, the reach and the
written form are the same again; otherwise the written form is refused for its nesting. -/
theorem parse_render {text : String} {a : Automaton} (h : parse text = .ok a) :
    ((∀ r ∈ a.rules, r.condition.nesting ≤ Condition.maxDepth) →
      ∃ b, parse a.render = .ok b ∧ b.namedRules = a.namedRules ∧ b.reach = a.reach ∧
        b.render = a.render) ∧
    ((∃ r ∈ a.rules, Condition.maxDepth < r.condition.nesting) →
      ∃ line token, parse a.render = .error ⟨line, ⟨token, .nestedTooDeeply⟩⟩) := by
  obtain ⟨mentioned, -, hmade, -⟩ := read_of_parse h
  have hwritable : ∀ r ∈ a.namedRules, r.Writable := fun r hr => (hmade r hr).1
  constructor
  · intro hnesting
    have hnamed : ∀ r ∈ a.namedRules, r.condition.nesting ≤ Condition.maxDepth := by
      refine List.forall_mem_map.2 fun r hr => ?_
      rw [Rule.map, Formula.nesting_map]
      exact hnesting r hr
    obtain ⟨b, hb, hrules⟩ := parse_render_rules hwritable hnamed
    exact ⟨b, hb, hrules, reach_eq_of_namedRules hrules, by rw [render, render, hrules]⟩
  · rintro ⟨r, hr, hnesting⟩
    have hdeep : ∃ r ∈ a.namedRules, Condition.maxDepth < r.condition.nesting :=
      ⟨_, List.mem_map_of_mem hr, by rwa [Rule.map, Formula.nesting_map]⟩
    exact parse_render_too_deep hwritable hdeep

/-- The automaton of the rule `-1.A B: 2/1.B`. -/
def twoItems : Automaton :=
  ⟨.twoNames, [⟨.conjunction [.literal ⟨⟨0⟩, -1, 0⟩, .literal ⟨⟨1⟩, 0, 0⟩], [⟨1, ⟨1⟩, 2⟩]⟩]⟩

/-- A rule with two items is read back from its written form, which has brackets around them. -/
theorem parse_render_twoItems :
    parse "-1.A B: 2/1.B" = .ok twoItems ∧
    (∀ r ∈ twoItems.rules, r.condition.nesting ≤ Condition.maxDepth) ∧
    ∃ b, parse twoItems.render = .ok b ∧ b.namedRules = twoItems.namedRules ∧
      b.reach = twoItems.reach ∧ b.render = twoItems.render := by
  have hparse : parse "-1.A B: 2/1.B" = .ok twoItems := by rfl
  have hnesting : ∀ r ∈ twoItems.rules, r.condition.nesting ≤ Condition.maxDepth := by decide
  exact ⟨hparse, hnesting, (parse_render hparse).1 hnesting⟩

/-! ## A written form that is refused -/

section Bare

variable {cs : List (Formula String)} {outputs : List (Output String)}

/-- The line of a rule for a conjunction, without the brackets around the operands. -/
def bareLine (cs : List (Formula String)) (outputs : List (Output String)) : List Char :=
  Formula.operandsText cs ++ ':' :: ' ' :: Rule.outputsText ⟨.conjunction cs, outputs⟩

lemma isReserved_of_mem_operandsText (h : Rule.Writable ⟨.conjunction cs, outputs⟩) :
    ∀ x ∈ Formula.operandsText cs, RuleText.isReserved x = false := by
  intro x hx
  refine RuleText.isReserved_of_mem_render h.literals_writable x ?_
  rw [Formula.toList_render_conjunction]
  exact List.mem_append_left _ (List.mem_cons_of_mem _ hx)

lemma isBlank_head_operandsText (h : Rule.Writable ⟨.conjunction cs, outputs⟩) :
    ∀ x ∈ (Formula.operandsText cs).head?, Text.isBlank x = false := by
  obtain ⟨c, ds, rfl⟩ : ∃ c ds, cs = c :: ds := by
    cases h.normal with
    | conjunction _ _ hlength => exact List.exists_cons_of_length_pos (by omega)
  -- An operand of a normal conjunction is written as something, with no blank in front.
  have hc : c.isAlways = false := by
    cases h.normal with
    | conjunction _ hflat _ => exact (hflat c (List.mem_cons_self ..)).1
  obtain ⟨x, rest, htext, hx⟩ := RuleText.exists_head_render hc
    (Formula.forall_literals_conjunction h.literals_writable c (List.mem_cons_self ..))
  cases ds with
  | nil => simpa [Formula.operandsText, htext] using hx
  | cons d ds => simpa [Formula.operandsText, htext] using hx

lemma lines_bareLine (h : Rule.Writable ⟨.conjunction cs, outputs⟩) :
    Text.lines (bareLine cs outputs) = [bareLine cs outputs] := by
  obtain ⟨hne, hending⟩ := RuleText.single_line (isReserved_of_mem_operandsText h)
    (RuleText.isReserved_of_mem_outputsText h.spelled)
  exact Text.lines_singleton hne hending

/-- Without the brackets, the line of a rule is read if the operands are not nested too deeply. -/
lemma read_bareLine (h : Rule.Writable ⟨.conjunction cs, outputs⟩)
    (hnesting : Formula.nestingAll cs ≤ Condition.maxDepth) :
    RuleText.read (String.ofList (bareLine cs outputs)) =
      ⟨Rule.signals ⟨.conjunction cs, outputs⟩, .ok (.ofRules [⟨.conjunction cs, outputs⟩])⟩ := by
  have hline := RuleText.ofLine?_colon 1 (isReserved_of_mem_operandsText h)
    (RuleText.isReserved_of_mem_outputsText h.spelled) (isBlank_head_operandsText h)
  have hcondition := Formula.readFormula_operandsText h.normal h.literals_writable hnesting
  have hadvance := RuleText.advance_rule .start 1 hcondition (RuleText.readOutputs_render h)
    (RuleText.words_outputsText_ne_nil h)
  rw [RuleText.read, String.toList_ofList, lines_bareLine h, RuleText.statements, bareLine, hline]
  have hlisting : (RuleText.Progress.start.addWritten ⟨.conjunction cs, outputs⟩).listing =
      .ofRules [⟨.conjunction cs, outputs⟩] := rfl
  simp only [RuleText.statements, RuleText.readStatements, hadvance]
  simp [Reading.mapError, Except.mapError, Reading.done, hlisting]

/-- A line on which the groups are as deep as the reader takes them is accepted without the
brackets around its items, and its written form, which has them, is refused. -/
theorem parse_bareLine (h : Rule.Writable ⟨.conjunction cs, outputs⟩)
    (hnesting : Formula.nestingAll cs = Condition.maxDepth) :
    ∃ a, parse (String.ofList (bareLine cs outputs)) = .ok a ∧
      ∃ line token, parse a.render = .error ⟨line, ⟨token, .nestedTooDeeply⟩⟩ := by
  obtain ⟨a, ha, hrules, -⟩ := parse_of_read (read_bareLine h hnesting.le)
    (List.forall_mem_singleton.2 (List.Subset.refl _))
  refine ⟨a, ha, ?_⟩
  rw [render, hrules]
  refine parse_render_too_deep (List.forall_mem_singleton.2 h) ⟨_, List.mem_singleton_self _, ?_⟩
  -- The brackets that are written are one group more.
  rw [Formula.nesting, hnesting]
  exact Nat.lt_succ_self _

end Bare

/-- A formula of twice as many groups, one inside the other. -/
def tower : Nat → Formula String
  | 0 => .literal ⟨"A", 0, 0⟩
  | n + 1 => .disjunction [.literal ⟨"A", 0, 0⟩, .conjunction [.literal ⟨"A", 0, 0⟩, tower n]]

lemma nesting_tower (n : Nat) : (tower n).nesting = 2 * n := by
  induction n with
  | zero => rfl
  | succ n ih =>
    simp only [tower, Formula.nesting, Formula.nestingAll, ih]
    omega

lemma isConjunct_tower (n : Nat) : (tower n).IsConjunct := by
  cases n with
  | zero => exact ⟨rfl, rfl⟩
  | succ n => exact ⟨rfl, rfl⟩

lemma normal_conjunction_tower {n : Nat} (h : (tower n).Normal) :
    (Formula.conjunction [.literal ⟨"A", 0, 0⟩, tower n]).Normal := by
  refine Formula.Normal.conjunction ?_ ?_ le_rfl
  · exact List.forall_mem_cons.2 ⟨Formula.Normal.literal _, List.forall_mem_singleton.2 h⟩
  · exact List.forall_mem_cons.2
      ⟨⟨rfl, rfl⟩, List.forall_mem_singleton.2 (isConjunct_tower n)⟩

lemma normal_tower (n : Nat) : (tower n).Normal := by
  induction n with
  | zero => exact Formula.Normal.literal _
  | succ n ih =>
    -- Conjunctions and disjunctions take turns, so none stands directly in one of its own kind.
    refine Formula.Normal.disjunction ?_ ?_ le_rfl
    · exact List.forall_mem_cons.2 ⟨Formula.Normal.literal _,
        List.forall_mem_singleton.2 (normal_conjunction_tower ih)⟩
    · exact List.forall_mem_cons.2 ⟨⟨rfl, rfl⟩, List.forall_mem_singleton.2 ⟨rfl, rfl⟩⟩

lemma literals_tower (n : Nat) : ∀ l ∈ (tower n).literals, l = ⟨"A", 0, 0⟩ := by
  induction n with
  | zero => exact List.forall_mem_singleton.2 rfl
  | succ n ih => simpa [tower, Formula.literals, Formula.literalsAll] using ih

lemma literals_conjunction_tower (n : Nat) :
    ∀ l ∈ (Formula.conjunction [.literal ⟨"A", 0, 0⟩, tower n]).literals, l = ⟨"A", 0, 0⟩ := by
  simpa [Formula.literals, Formula.literalsAll] using literals_tower n

lemma writable_tower (n : Nat) :
    Rule.Writable ⟨.conjunction [.literal ⟨"A", 0, 0⟩, tower n], [⟨0, "A", 1⟩]⟩ where
  normal := normal_conjunction_tower (normal_tower n)
  literals := by
    intro l hl
    rw [literals_conjunction_tower n l hl]
    simp [Literal.InRange, Item.IsOffset]
  outputs := by simp [Output.InRange, Output.IsLocal, Item.IsOffset, Numeral.stepBound]
  outputs_ne_nil := List.cons_ne_nil _ _
  names := by
    intro name hname
    have hsame : name = "A" := by
      rcases List.mem_append.1 hname with hname | hname
      · obtain ⟨l, hl, rfl⟩ := List.mem_map.1 hname
        rw [literals_conjunction_tower n l hl]
      · exact List.mem_singleton.1 hname
    rw [hsame]
    decide

/-- There is text that is accepted and whose written form is refused. -/
theorem exists_parse_render_refused :
    ∃ text a, parse text = .ok a ∧
      ∃ line token, parse a.render = .error ⟨line, ⟨token, .nestedTooDeeply⟩⟩ := by
  have hnesting : Formula.nestingAll [.literal ⟨"A", 0, 0⟩, tower 128] = Condition.maxDepth := by
    simp [Formula.nestingAll, Formula.nesting, nesting_tower, Condition.maxDepth]
  exact ⟨_, parse_bareLine (writable_tower 128) hnesting⟩

end StripAutomata.Automaton
