import StripAutomata.Proofs.RuleText.Written

/-!
# What is read can be written

Every rule that is read is one that can be written, whatever the text: its condition is normal, its
numbers have 32 bits, it has outputs, and those of the same step stay at their cell
(`madeOf_of_read`).  All its signals are names that the reading mentions.

The condition of a rule may have been put together from the conditions of several lines, so the
invariant of the reader, `Progress.MadeOf`, is about the conditions in force and not about lines.
That a formula is made of names is kept by the builders (`MadeOf.all`, `MadeOf.any`,
`MadeOf.negate`), and so it holds of what the items of a condition mean, of the scopes, and of the
rules.
-/

namespace StripAutomata

/-! ## Formulas made of names -/

/-- Whether a formula is normal and its literals can be written, with signals among the names. -/
structure Formula.MadeOf (names : List String) (c : Formula String) : Prop where
  normal : c.Normal
  literals : ∀ l ∈ c.literals, l.Writable ∧ l.signal ∈ names

namespace Formula

variable {names : List String}

lemma MadeOf.literal {l : Literal String} (hl : l.Writable) (hname : l.signal ∈ names) :
    (Formula.literal l).MadeOf names where
  normal := Normal.literal l
  literals := List.forall_mem_singleton.2 ⟨hl, hname⟩

lemma MadeOf.negate {c : Formula String} (hc : c.MadeOf names) : c.negate.MadeOf names where
  normal := hc.normal.negate
  literals := by
    rw [literals_negate]
    exact hc.literals

lemma MadeOf.all {cs : List (Formula String)} (h : ∀ c ∈ cs, c.MadeOf names) :
    (Formula.all cs).MadeOf names where
  normal := Normal.all fun c hc => (h c hc).normal
  literals := by
    intro l hl
    rw [literals_all] at hl
    obtain ⟨c, hc, hlc⟩ := List.mem_flatMap.1 hl
    exact (h c hc).literals l hlc

lemma MadeOf.any {cs : List (Formula String)} (h : ∀ c ∈ cs, c.MadeOf names) :
    (Formula.any cs).MadeOf names where
  normal := Normal.any fun c hc => (h c hc).normal
  literals := by
    intro l hl
    obtain ⟨c, hc, hlc⟩ := List.mem_flatMap.1 (literals_any_subset cs hl)
    exact (h c hc).literals l hlc

end Formula

/-! ## Conditions -/

namespace Condition

lemma LiteralWord.writable {cs : List Char} {l : Literal String} {negative : Bool}
    (h : LiteralWord cs l negative) : l.Writable := by
  obtain ⟨htime, hposition, -, hname⟩ := h
  refine ⟨⟨hposition.isOffset, htime.isOffset⟩, ?_⟩
  rwa [String.toList_ofList]

mutual

/-- An item means a formula made of its names. -/
theorem madeOf_formula {names : List String} {c : Condition} {ts : List Token} (h : Spells c ts)
    (hnames : c.names ⊆ names) : c.formula.MadeOf names := by
  match h with
  | @Spells.literal w l negative hword =>
    have hliteral : (Formula.literal l).MadeOf names :=
      Formula.MadeOf.literal hword.writable (hnames (List.mem_singleton_self _))
    cases negative with
    | true => exact hliteral.negate
    | false => exact hliteral
  | @Spells.signed negative c ts hoperand =>
    have hc : c.formula.MadeOf names := madeOf_formula hoperand hnames
    cases negative with
    | true => exact hc.negate
    | false => exact hc
  | @Spells.group b cs ts hitems _ =>
    have hcs : ∀ f ∈ formulas cs, f.MadeOf names := madeOf_formulas hitems hnames
    cases b with
    | round => exact Formula.MadeOf.all hcs
    | square => exact Formula.MadeOf.any hcs

theorem madeOf_formulas {names : List String} {cs : List Condition} {ts : List Token}
    (h : SpellsRow cs ts) (hnames : namesAll cs ⊆ names) :
    ∀ f ∈ formulas cs, f.MadeOf names := by
  match h with
  | .nil => exact List.forall_mem_nil _
  | .cons hitem hrow =>
    obtain ⟨hname, hrest⟩ := List.append_subset.1 hnames
    exact List.forall_mem_cons.2 ⟨madeOf_formula hitem hname, madeOf_formulas hrow hrest⟩

end

/-- A condition that is read is made of the names that were mentioned. -/
lemma madeOf_of_readFormula {text : List Char} {mentioned names : List String} {f : Formula String}
    (h : readFormula text = ⟨mentioned, .ok f⟩) (hnames : mentioned ⊆ names) :
    f.MadeOf names := by
  rcases hread : read text with ⟨read, error | items⟩
  · simp [readFormula, hread] at h
  · obtain ⟨hrow, hdepth⟩ := spellsRow_of_read (congrArg Reading.outcome hread)
    rw [read_of_spellsRow hrow hdepth] at hread
    cases hread
    simp only [readFormula, read_of_spellsRow hrow hdepth, Reading.bind_ok, Reading.pure_eq,
      List.append_nil, Reading.mk.injEq, Except.ok.injEq] at h
    obtain ⟨rfl, rfl⟩ := h
    exact Formula.MadeOf.all (madeOf_formulas hrow hnames)

end Condition

/-! ## Outputs -/

namespace RuleText

lemma OutputWord.isName {w : List Char} {o : Output String} (h : OutputWord w o) :
    Item.isName o.signal.toList = true := by
  obtain ⟨-, -, hname, -⟩ := h
  rwa [String.toList_ofList]

lemma OutputWord.isLocal {w : List Char} {o : Output String} (h : OutputWord w o) :
    o.IsLocal := by
  obtain ⟨-, -, -, hlocal⟩ := h
  exact hlocal

lemma OutputWord.inRange {w : List Char} {o : Output String} (h : OutputWord w o) :
    o.InRange := by
  obtain ⟨hstep, hoffset, -, -⟩ := h
  exact ⟨hoffset.isOffset, hstep.lt_stepBound⟩

/-- What is read of words are outputs that the words have the pattern of, one for each. -/
lemma outputWord_of_readWords {words : List (List Char)} {mentioned : List String}
    {outputs : List (Output String)} (h : readWords words = ⟨mentioned, .ok outputs⟩) :
    (∀ o ∈ outputs, ∃ w, OutputWord w o) ∧ mentioned = outputs.map (·.signal) ∧
      outputs.length = words.length := by
  induction words generalizing mentioned outputs with
  | nil =>
    cases h
    exact ⟨List.forall_mem_nil _, rfl, rfl⟩
  | cons word words ih =>
    rw [readWords] at h
    split at h
    next cause hread => cases h
    next o hread =>
      rcases hrest : readWords words with ⟨names, error | rest⟩
      · rw [hrest] at h
        cases h
      · rw [hrest] at h
        cases h
        obtain ⟨hall, rfl, hlength⟩ := ih hrest
        refine ⟨List.forall_mem_cons.2 ⟨⟨word, readOutput_eq_ok_iff.1 hread⟩, hall⟩, rfl, ?_⟩
        rw [List.length_cons, List.length_cons, hlength]

end RuleText

/-! ## Rules -/

/-- Whether a rule can be written, with signals among the names. -/
def Rule.MadeOf (names : List String) (r : Rule String) : Prop := r.Writable ∧ r.signals ⊆ names

namespace RuleText

variable {names : List String}

lemma madeOf_of_readOutputs {condition : Formula String} {text : List Char}
    {mentioned : List String} {outputs : List (Output String)} (hcondition : condition.MadeOf names)
    (htext : ¬ ∀ c ∈ text, Text.isBlank c = true)
    (h : readOutputs text = ⟨mentioned, .ok outputs⟩) (hnames : mentioned ⊆ names) :
    Rule.MadeOf names ⟨condition, outputs⟩ := by
  obtain ⟨hwords, rfl, hlength⟩ := outputWord_of_readWords h
  -- A text that is not blank has words, and each word is an output.
  have hne : outputs ≠ [] := by
    rintro rfl
    exact htext (Text.words_eq_nil_iff.1 (List.length_eq_zero_iff.1 hlength.symm))
  have hsignal : ∀ l ∈ condition.literals, Item.isName l.signal.toList = true ∧ l.signal ∈ names :=
    fun l hl => ⟨(hcondition.literals l hl).1.2, (hcondition.literals l hl).2⟩
  have houtput : ∀ o ∈ outputs, (o.InRange ∧ o.IsLocal) ∧ Item.isName o.signal.toList = true := by
    intro o ho
    obtain ⟨w, hword⟩ := hwords o ho
    exact ⟨⟨hword.inRange, hword.isLocal⟩, hword.isName⟩
  have hregular : Rule.Regular ⟨condition, outputs⟩ :=
    ⟨hcondition.normal, fun l hl => (hcondition.literals l hl).1.1, fun o ho => (houtput o ho).1, hne⟩
  have hwritable : Rule.Writable ⟨condition, outputs⟩ := by
    refine ⟨hregular, List.forall_mem_append.2 ⟨?_, ?_⟩⟩
    · exact List.forall_mem_map.2 fun l hl => (hsignal l hl).1
    · exact List.forall_mem_map.2 fun o ho => (houtput o ho).2
  refine ⟨hwritable, List.append_subset.2 ⟨?_, hnames⟩⟩
  exact List.forall_mem_map.2 fun l hl => (hsignal l hl).2

/-! ## The invariant of the reader -/

/-- Whether the conditions in force and the rules are made of names, and the lookahead is that of
the rules. -/
structure Progress.MadeOf (names : List String) (p : Progress) : Prop where
  scopes : ∀ scope ∈ p.scopes, scope.condition.MadeOf names
  rules : ∀ r ∈ p.rules, r.MadeOf names
  lookahead : p.lookahead = p.rules.reverse.foldl deepen 0

lemma madeOf_start : Progress.start.MadeOf names where
  scopes := List.forall_mem_nil _
  rules := List.forall_mem_nil _
  lookahead := rfl

lemma madeOf_of_readScope {scopes after : List Scope} {s : Statement} {mentioned : List String}
    {condition : Formula String} (hscopes : ∀ scope ∈ scopes, scope.condition.MadeOf names)
    (h : readScope scopes s = ⟨mentioned, .ok (condition, after)⟩) (hnames : mentioned ⊆ names) :
    condition.MadeOf names ∧ ∀ scope ∈ after, scope.condition.MadeOf names := by
  unfold readScope at h
  split at h
  next text _ =>
    obtain ⟨own, f, rest, hread, hdone, rfl⟩ := Reading.bind_eq_ok h
    obtain ⟨hown, -⟩ := List.append_subset.1 hnames
    have hf : f.MadeOf names := Condition.madeOf_of_readFormula hread hown
    cases scopes with
    | nil =>
      cases hdone
      exact ⟨hf, List.forall_mem_singleton.2 hf⟩
    | cons scope scopes =>
      cases hdone
      -- The condition in force is that of the scope joined to the one on the line.
      have hall : (Formula.all [scope.condition, f]).MadeOf names :=
        Formula.MadeOf.all (List.forall_mem_cons.2
          ⟨hscopes scope (List.mem_cons_self ..), List.forall_mem_singleton.2 hf⟩)
      exact ⟨hall, List.forall_mem_cons.2 ⟨hall, hscopes⟩⟩
  next =>
    cases scopes with
    | nil => cases h
    | cons scope scopes =>
      cases h
      exact ⟨hscopes scope (List.mem_cons_self ..), hscopes⟩

/-- A statement keeps the invariant. -/
lemma madeOf_of_advance {p q : Progress} {s : Statement} {mentioned : List String}
    (hp : p.MadeOf names) (h : p.advance s = ⟨mentioned, .ok q⟩) (hnames : mentioned ⊆ names) :
    q.MadeOf names := by
  obtain ⟨own, ⟨condition, scopes⟩, rest, hscope, hrest, rfl⟩ := Reading.bind_eq_ok h
  obtain ⟨hown, hmore⟩ := List.append_subset.1 hnames
  -- Scopes that are closed are only taken away.
  have henclosing : ∀ scope ∈ enclosing s.indent p.scopes, scope.condition.MadeOf names :=
    fun scope hmem => hp.scopes scope ((List.dropWhile_sublist _).mem hmem)
  obtain ⟨hcondition, hscopes⟩ := madeOf_of_readScope henclosing hscope hown
  by_cases houtputs : s.hasOutputs = true
  · simp only [houtputs, if_true] at hrest
    obtain ⟨named, outputs, last, hread, hdone, rfl⟩ := Reading.bind_eq_ok hrest
    obtain ⟨hnamed, -⟩ := List.append_subset.1 hmore
    have htext : ¬ ∀ c ∈ s.outputs, Text.isBlank c = true := by
      simpa [Statement.hasOutputs] using houtputs
    have hrule := madeOf_of_readOutputs hcondition htext hread hnamed
    cases hdone
    refine ⟨hscopes, List.forall_mem_cons.2 ⟨hrule, hp.rules⟩, ?_⟩
    simp [Progress.addRule, hp.lookahead, deepen]
  · simp only [houtputs] at hrest
    cases hrest
    exact ⟨hscopes, hp.rules, hp.lookahead⟩

/-- Statements keep the invariant. -/
lemma madeOf_of_readStatements {p q : Progress} {statements : List Statement}
    {mentioned : List String} (hp : p.MadeOf names)
    (h : readStatements p statements = ⟨mentioned, .ok q⟩) (hnames : mentioned ⊆ names) :
    q.MadeOf names := by
  induction statements generalizing p mentioned with
  | nil =>
    cases h
    exact hp
  | cons s rest ih =>
    rw [readStatements] at h
    obtain ⟨first, next, last, hadvance, hrest, rfl⟩ := Reading.bind_eq_ok h
    obtain ⟨hfirst, hlast⟩ := List.append_subset.1 hnames
    exact ih (madeOf_of_advance hp (Reading.mapError_eq_ok hadvance) hfirst) hrest hlast

/-- **What is read can be written.**  The rules that are read of a text can be written, their
signals are among the names that were mentioned, and the lookahead is that of the rules. -/
theorem madeOf_of_read {text : String} {mentioned : List String} {listing : Listing String}
    (h : read text = ⟨mentioned, .ok listing⟩) :
    (∀ r ∈ listing.rules, r.MadeOf mentioned) ∧ listing = .ofRules listing.rules := by
  obtain ⟨first, p, last, hread, hdone, rfl⟩ := Reading.bind_eq_ok h
  have hp := madeOf_of_readStatements madeOf_start hread (List.subset_append_left first last)
  cases hdone
  refine ⟨fun r hr => hp.rules r (List.mem_reverse.1 hr), ?_⟩
  rw [Progress.listing, Listing.ofRules, hp.lookahead]

end RuleText
end StripAutomata
