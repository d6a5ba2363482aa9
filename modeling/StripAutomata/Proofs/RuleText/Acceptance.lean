import StripAutomata.Proofs.Condition.Beginning
import StripAutomata.Proofs.Lexicon
import StripAutomata.Proofs.RuleText.Scoping

/-!
# The names that a text brings in

A lexicon takes in the names that reading accepts, even of a text that is refused in the end.  Which
names these are can be said of the lines of the text (`acceptedNames`): of each statement those of
its condition, as far as a condition goes on, and then, if a condition is in force, those of its
outputs, as far as they are outputs.  The first statement that is refused ends the list.

The reader does not know of a lexicon.  So what a lexicon had before decides only where the names
go, and what is read, seen by the names, is the same with any lexicon (`readInto_interns`).
-/

namespace StripAutomata

namespace RuleText

/-! ## The names of a statement -/

/-- The names of the literals with which the condition of a statement goes on. -/
def Statement.conditionNames (s : Statement) : List String :=
  match s.condition with
  | some text => (Condition.goingOn [] (Condition.Token.scan text)).filterMap Condition.Token.name?
  | none => []

/-- The name of a word that is an output. -/
def outputName? (word : List Char) : Option String :=
  match readOutput word with
  | .ok o => some o.signal
  | .error _ => none

/-- The names of the first words of a list that are outputs. -/
def outputNames (words : List (List Char)) : List String :=
  (words.takeWhile fun word => (outputName? word).isSome).filterMap outputName?

/-- Whether a condition is in force for a statement that comes after others: its own, if that is a
condition, or that of statements which govern it. -/
def Conditioned (before : List Statement) (s : Statement) : Prop :=
  match s.condition with
  | some text => Condition.IsWhole (Condition.Token.scan text)
  | none => governing (before ++ [s]) ≠ []

instance (before : List Statement) : (s : Statement) → Decidable (Conditioned before s)
  | ⟨_, _, some text, _⟩ =>
    inferInstanceAs (Decidable (Condition.IsWhole (Condition.Token.scan text)))
  | ⟨line, indent, none, outputs⟩ =>
    inferInstanceAs (Decidable (governing (before ++ [⟨line, indent, none, outputs⟩]) ≠ []))

/-- The names that are accepted of statements that come after others. -/
def acceptedNames (before : List Statement) : List Statement → List String
  | [] => []
  | s :: rest =>
    s.conditionNames ++
      if Conditioned before s then
        outputNames (Text.words s.outputs) ++
          if ∀ word ∈ Text.words s.outputs, (outputName? word).isSome then
            acceptedNames (before ++ [s]) rest
          else []
      else []

/-! ## The names that the reader accepts -/

lemma mentioned_readScope (scopes : List Scope) (s : Statement) :
    (readScope scopes s).mentioned = s.conditionNames := by
  obtain ⟨line, indent, _ | text, outputs⟩ := s
  · cases scopes <;> rfl
  · have hread := Condition.mentioned_read text
    simp only [readScope, Condition.readFormula, Statement.conditionNames, ← hread]
    rcases Condition.read text with ⟨mentioned, error | items⟩ <;> simp

lemma conditioned_iff {before : List Statement} {opened : List (Statement × Formula String)}
    (h : Opened before opened) (s : Statement) :
    Conditioned before s ↔
      ∃ x, (readScope (enclosing s.indent (scopesOf opened)) s).outcome = .ok x := by
  obtain ⟨line, indent, _ | text, outputs⟩ := s
  · show governing (before ++ [⟨line, indent, none, outputs⟩]) ≠ [] ↔ _
    -- Without a condition of its own the statement needs an open scope.
    rw [ne_eq, ← h.enclosing_eq_nil_iff rfl]
    generalize enclosing indent (scopesOf opened) = scopes
    cases scopes <;> simp [readScope, Reading.fail, Reading.done]
  · show Condition.IsWhole (Condition.Token.scan text) ↔ _
    simp only [Condition.isWhole_iff, readScope, Condition.readFormula, Condition.read]
    rcases Condition.resume .start (Condition.Token.scan text) with ⟨mentioned, error | items⟩ <;>
      simp

/-- The words of outputs are read as far as they are outputs. -/
lemma mentioned_readWords (words : List (List Char)) :
    (readWords words).mentioned = outputNames words ∧
      ((∃ outputs, (readWords words).outcome = .ok outputs) ↔
        ∀ word ∈ words, (outputName? word).isSome) := by
  induction words with
  | nil => simp [readWords, outputNames, Reading.done]
  | cons word words ih =>
    obtain ⟨hnames, hall⟩ := ih
    rw [readWords, outputNames, List.takeWhile_cons, List.forall_mem_cons, ← hall]
    rcases hread : readOutput word with error | o
    · have hname : outputName? word = none := by rw [outputName?, hread]
      -- The word is no output, so it is the end of those that are taken.
      simp [hname, Reading.fail]
    · have hname : outputName? word = some o.signal := by rw [outputName?, hread]
      rw [outputNames] at hnames
      rcases hwords : readWords words with ⟨mentioned, error | outputs⟩ <;>
      · rw [hwords] at hnames
        simp [hname, ← hnames, Reading.mention, Except.map]

/-- The outputs of a statement are read as far as they are outputs, and blanks are no outputs. -/
lemma mentioned_rule (p : Progress) (condition : Formula String) (s : Statement) :
    (if s.hasOutputs then do return p.addRule condition (← readOutputs s.outputs) else return p :
        Reading Fault Progress).mentioned = outputNames (Text.words s.outputs) ∧
      ((∃ q, (if s.hasOutputs then do return p.addRule condition (← readOutputs s.outputs)
          else return p : Reading Fault Progress).outcome = .ok q) ↔
        ∀ word ∈ Text.words s.outputs, (outputName? word).isSome) := by
  obtain ⟨hnames, hall⟩ := mentioned_readWords (Text.words s.outputs)
  by_cases houtputs : s.hasOutputs = true
  · simp only [houtputs, if_true, readOutputs, ← hall, ← hnames]
    rcases readWords (Text.words s.outputs) with ⟨mentioned, error | outputs⟩ <;> simp
  · have hnone : Text.words s.outputs = [] := not_not.1 (hasOutputs_iff.not.1 houtputs)
    simp [houtputs, hnone, outputNames]

lemma mentioned_advance {before : List Statement} {opened : List (Statement × Formula String)}
    (h : Opened before opened) {p : Progress} (hp : p.scopes = scopesOf opened) (s : Statement) :
    (p.advance s).mentioned = s.conditionNames ++
        (if Conditioned before s then outputNames (Text.words s.outputs) else []) ∧
      ((∃ q, (p.advance s).outcome = .ok q) ↔ Conditioned before s ∧
        ∀ word ∈ Text.words s.outputs, (outputName? word).isSome) := by
  have hscope := mentioned_readScope (enclosing s.indent p.scopes) s
  have hconditioned := conditioned_iff h s
  rw [← hp] at hconditioned
  rw [Progress.advance, Reading.mentioned_bind, hscope]
  rcases hread : readScope (enclosing s.indent p.scopes) s with
    ⟨mentioned, error | ⟨condition, scopes⟩⟩
  · have hnot : ¬ Conditioned before s := by simp [hconditioned, hread]
    simp [hnot]
  · have hin : Conditioned before s := hconditioned.2 ⟨_, by rw [hread]⟩
    obtain ⟨hnames, hall⟩ := mentioned_rule { p with scopes } condition s
    rw [if_pos hin, and_iff_right hin, ← hall]
    exact ⟨congrArg _ hnames, Iff.rfl⟩

lemma exists_opened_of_advance {before : List Statement}
    {opened : List (Statement × Formula String)} (h : Opened before opened) {p q : Progress}
    (hp : p.scopes = scopesOf opened) {s : Statement} (hq : (p.advance s).outcome = .ok q) :
    ∃ after, Opened (before ++ [s]) after ∧ q.scopes = scopesOf after := by
  obtain ⟨condition, hscope⟩ := scopes_of_advance hq
  rw [hp] at hscope
  obtain ⟨after, hafter, hscopes, -⟩ := h.next hscope
  exact ⟨after, hafter, hscopes⟩

/-- The names that are accepted of statements that come after others. -/
lemma mentioned_readStatements {before : List Statement}
    {opened : List (Statement × Formula String)} (h : Opened before opened) {p : Progress}
    (hp : p.scopes = scopesOf opened) (ss : List Statement) :
    (readStatements p ss).mentioned = acceptedNames before ss := by
  induction ss generalizing before opened p with
  | nil => rfl
  | cons s rest ih =>
    obtain ⟨hnames, hall⟩ := mentioned_advance h hp s
    rw [readStatements, acceptedNames, Reading.mentioned_bind, Reading.mapError]
    rcases houtcome : (p.advance s).outcome with error | q
    · have hrefused : ¬ (Conditioned before s ∧
          ∀ word ∈ Text.words s.outputs, (outputName? word).isSome) := by
        rw [← hall, houtcome]
        simp
      -- The statement is refused for its condition, before its outputs are read, or for one of
      -- these.
      by_cases hconditioned : Conditioned before s
      · have hwords := fun hwords => hrefused ⟨hconditioned, hwords⟩
        rw [hnames, if_pos hconditioned, if_pos hconditioned, if_neg hwords]
        simp [Except.mapError]
      · rw [hnames, if_neg hconditioned, if_neg hconditioned]
        simp [Except.mapError]
    · obtain ⟨hconditioned, hwords⟩ := hall.1 ⟨q, houtcome⟩
      obtain ⟨after, hafter, hscopes⟩ := exists_opened_of_advance h hp houtcome
      rw [hnames, if_pos hconditioned, if_pos hconditioned, if_pos hwords, List.append_assoc,
        ← ih hafter hscopes]
      rfl

/-- **The names that reading accepts** are those of the items before the first one that is refused.
-/
theorem mentioned_read (text : String) :
    (read text).mentioned = acceptedNames [] (statementsOf text) := by
  have hstart : Opened [] [] := ⟨rfl, List.forall_mem_nil _⟩
  rw [← mentioned_readStatements hstart (p := .start) rfl, read, Reading.mentioned_bind,
    statementsOf]
  split <;> simp

/-! ## Lexicons -/

/-- What is read over handles, seen by the names, is what is read over names. -/
lemma outcome_readInto (lexicon : Lexicon) (text : String) :
    (readInto lexicon text).2.map (Listing.map (readInto lexicon text).1.nameOf) =
        (read text).outcome ∧
      ∀ listing, (readInto lexicon text).2 = .ok listing →
        ∀ r ∈ listing.rules, ∀ s ∈ r.signals, (readInto lexicon text).1.Knows s := by
  rcases hread : read text with ⟨mentioned, error | named⟩
  · rw [readInto, Lexicon.take, hread]
    exact ⟨rfl, fun listing h => by cases h⟩
  · obtain ⟨hmade, -⟩ := madeOf_of_read hread
    -- All names of the rules were mentioned, so the lexicon has taken them in.
    have hnames : ∀ r ∈ named.rules, r.signals ⊆ (lexicon.insertAll mentioned).names :=
      fun r hr name hname => Lexicon.mem_names_insertAll.2 (Or.inr ((hmade r hr).2 hname))
    rw [readInto, Lexicon.take, hread]
    refine ⟨congrArg Except.ok ?_, fun listing h => ?_⟩
    · have hrules : (named.rules.map (Rule.map (lexicon.insertAll mentioned).handle)).map
          (Rule.map (lexicon.insertAll mentioned).nameOf) = named.rules := by
        rw [List.map_map]
        refine (List.map_congr_left fun r hr => ?_).trans (List.map_id named.rules)
        exact Rule.nameOf_handle (hnames r hr)
      rw [Listing.map, Listing.map, hrules]
    · cases h
      refine List.forall_mem_map.2 fun r hr => ?_
      rw [Rule.signals_map]
      exact List.forall_mem_map.2 fun name hname => Lexicon.knows_handle.2 (hnames r hr hname)

/-- **A text adds names to a lexicon and depends on nothing in it.**  Whether the text is accepted
or refused, the lexicon has its names as before, and then the names that are accepted of the text
and that it did not have, in the order in which they first occur.  Every signal that had a name
keeps it, and every signal of a rule that is read has one.

With any two lexicons the text is refused for the same error or accepted with the same rules, over
names, and the same lookahead. -/
theorem readInto_interns (text : String) :
    (∀ lexicon : Lexicon,
      (readInto lexicon text).1.names = lexicon.names ++
        ((acceptedNames [] (statementsOf text)).filter
          fun name => decide (name ∉ lexicon.names)).eraseDups ∧
      (∀ s name, lexicon.name? s = some name → (readInto lexicon text).1.name? s = some name) ∧
      ∀ listing, (readInto lexicon text).2 = .ok listing →
        ∀ r ∈ listing.rules, ∀ s ∈ r.signals, (readInto lexicon text).1.Knows s) ∧
    ∀ lexicon other : Lexicon,
      (readInto lexicon text).2.map (Listing.map (readInto lexicon text).1.nameOf) =
        (readInto other text).2.map (Listing.map (readInto other text).1.nameOf) := by
  refine ⟨fun lexicon => ⟨?_, fun s name h => Lexicon.name?_insertAll h _,
    (outcome_readInto lexicon text).2⟩, fun lexicon other => ?_⟩
  · rw [← mentioned_read]
    exact Lexicon.names_insertAll lexicon _
  · rw [(outcome_readInto lexicon text).1, (outcome_readInto other text).1]

/-- A text of two lines, the first of which is always true. -/
def wholeRead : String := "[D -[]]: C\n E: F"

/-- The rules of `wholeRead`, with the handles that come after two others. -/
def wholeListing : Listing Signal :=
  ⟨[⟨.always, [⟨0, ⟨3⟩, 1⟩]⟩, ⟨.literal ⟨⟨4⟩, 0, 0⟩, [⟨0, ⟨5⟩, 1⟩]⟩], 1⟩

/-- The same with a word that is no output in the second line. -/
def halfRead : String := "[D -[]]: C\n E: F 1.5 A"

/-- The name of a literal that normal forms leave out is accepted, and so are the names of a line
that is refused, up to the word that is no output. -/
theorem readInto_interns_halfRead :
    (Lexicon.twoNames.name? ⟨1⟩ = some "B" ∧
      (readInto .twoNames halfRead).1.name? ⟨1⟩ = some "B") ∧
    acceptedNames [] (statementsOf halfRead) = ["D", "C", "E", "F"] ∧
    (readInto .twoNames halfRead).1.names = ["A", "B", "D", "C", "E", "F"] ∧
    (readInto .twoNames halfRead).2.map (Listing.map (readInto .twoNames halfRead).1.nameOf) =
      (readInto ∅ halfRead).2.map (Listing.map (readInto ∅ halfRead).1.nameOf) ∧
    (readInto .twoNames wholeRead).2 = .ok wholeListing ∧
    ∀ r ∈ wholeListing.rules, ∀ s ∈ r.signals, (readInto .twoNames wholeRead).1.Knows s := by
  have hname : Lexicon.twoNames.name? ⟨1⟩ = some "B" := by rfl
  have haccepted : acceptedNames [] (statementsOf halfRead) = ["D", "C", "E", "F"] := by decide
  have hread : (readInto .twoNames wholeRead).2 = .ok wholeListing := by rfl
  obtain ⟨hnames, hkeeps, -⟩ := (readInto_interns halfRead).1 .twoNames
  refine ⟨⟨hname, hkeeps _ _ hname⟩, haccepted, ?_, (readInto_interns halfRead).2 .twoNames ∅,
    hread, ((readInto_interns wholeRead).1 .twoNames).2.2 _ hread⟩
  rw [hnames, haccepted]
  rfl

end RuleText
end StripAutomata
