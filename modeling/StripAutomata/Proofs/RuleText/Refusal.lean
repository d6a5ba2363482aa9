import StripAutomata.Proofs.Condition.Step
import StripAutomata.Proofs.Text.Cutting
import StripAutomata.RuleText.Interning

/-!
# Where rule text is refused, and why

Statements are read one after another, so a list of statements can be cut anywhere
(`readStatements_append`).  Reading fails at the first statement that is refused, with its line and
the fault that was found there (`readStatements_error_iff`); as line numbers go up
(`pairwise_line_statements`), the line of the error tells which statement that is.  What a statement
does that is not refused is said once, in `advance_cases`.

A condition and the words of an outputs part are refused for causes of their own
(`cause_mem_of_readFormula`, `cause_mem_of_readOutputs`).  That outputs have no condition is none of
these, so a statement is refused for that exactly if it has no condition and all scopes are closed
at its indent (`advance_unscoped_iff`).
-/

namespace StripAutomata

lemma Item.cause_of_stepOrOne {part : Option (List Char)} {cause : SyntaxCause}
    (h : Item.stepOrOne part = .error cause) : cause = .stepOutOfRange := by
  unfold Item.stepOrOne at h
  split at h
  next => cases h
  next =>
    split at h
    next => cases h
    next => exact (Except.error.inj h).symm

namespace Condition

/-- Whatever is open, the units of a condition are refused for a cause of a condition. -/
lemma cause_mem_of_resume {d : Draft} {ts : List Token} {fault : Fault}
    (h : (resume d ts).outcome = .error fault) : fault.cause ∈ causes := by
  induction ts generalizing d with
  | nil =>
    -- The text ends where nothing is open, or in a group, or at a sign.
    rw [resume] at h
    split at h
    next => cases h
    next => simp [← Except.error.inj h, causes, bracketFault]
    next => simp [← Except.error.inj h, causes]
  | cons t ts ih =>
    obtain ⟨d', -, hread⟩ | ⟨fault', hcause, hfail⟩ := resume_cons_cases d t ts
    · rw [hread] at h
      exact ih h
    · rw [hfail] at h
      cases h
      exact hcause

lemma cause_mem_of_readFormula {text : List Char} {fault : Fault}
    (h : (readFormula text).outcome = .error fault) : fault.cause ∈ causes := by
  obtain hread | ⟨items, -, hdone⟩ := Reading.outcome_bind_eq_error_iff.1 h
  · exact cause_mem_of_resume hread
  · cases hdone

end Condition

namespace RuleText

/-! ## The causes in outputs -/

/-- What can be wrong with the words of an outputs part. -/
def outputCauses : List SyntaxCause :=
  [.malformedOutputItem, .stepOutOfRange, .offsetOutOfRange, .sameStepElsewhere]

lemma cause_mem_of_readOutput {word : List Char} {cause : SyntaxCause}
    (h : readOutput word = .error cause) : cause ∈ outputCauses := by
  simp only [readOutput] at h
  split at h
  next =>
    obtain hstep | ⟨t, -, hrest⟩ := error_of_bind h
    · simp [Item.cause_of_stepOrOne hstep, outputCauses]
    · obtain hoffset | ⟨n, -, hlocal⟩ := error_of_bind hrest
      · simp [Item.cause_of_offsetOrZero hoffset, outputCauses]
      · split at hlocal
        next => simp [← Except.error.inj hlocal, outputCauses]
        next => cases hlocal
  next => simp [← Except.error.inj h, outputCauses]

lemma cause_mem_of_readWords {words : List (List Char)} {fault : Fault}
    (h : (readWords words).outcome = .error fault) : fault.cause ∈ outputCauses := by
  induction words with
  | nil => cases h
  | cons word rest ih =>
    rw [readWords] at h
    split at h
    next cause hread =>
      obtain rfl : ⟨String.ofList word, cause⟩ = fault := Except.error.inj h
      exact cause_mem_of_readOutput hread
    next o _ =>
      obtain hmention | ⟨_, -, hrest⟩ := Reading.outcome_bind_eq_error_iff.1 h
      · cases hmention
      · apply ih
        rcases hwords : readWords rest with ⟨names, error | outputs⟩
        · rwa [hwords] at hrest
        · rw [hwords] at hrest
          cases hrest

lemma cause_mem_of_readOutputs {text : List Char} {fault : Fault}
    (h : (readOutputs text).outcome = .error fault) : fault.cause ∈ outputCauses :=
  cause_mem_of_readWords h

/-! ## One statement -/

/-- A statement has outputs exactly if there are words where they stand. -/
lemma hasOutputs_iff {s : Statement} : s.hasOutputs = true ↔ Text.words s.outputs ≠ [] := by
  simp [Statement.hasOutputs, Text.words_eq_nil_iff]

/-- A statement that is read leaves the scopes open that are open after its condition, and if it has
outputs, it adds one rule, for the condition in force. -/
lemma advance_cases {p q : Progress} {s : Statement} (h : (p.advance s).outcome = .ok q) :
    ∃ condition scopes,
      (readScope (enclosing s.indent p.scopes) s).outcome = .ok (condition, scopes) ∧
      (s.hasOutputs = true ∧ (∃ outputs, (readOutputs s.outputs).outcome = .ok outputs ∧
          q = { p with scopes := scopes }.addRule condition outputs) ∨
        s.hasOutputs = false ∧ q = { p with scopes := scopes }) := by
  obtain ⟨⟨condition, scopes⟩, hscope, hrest⟩ := Reading.outcome_bind_eq_ok_iff.1 h
  refine ⟨condition, scopes, hscope, ?_⟩
  by_cases houtputs : s.hasOutputs = true
  · simp only [houtputs, if_true] at hrest
    obtain ⟨outputs, hread, hdone⟩ := Reading.outcome_bind_eq_ok_iff.1 hrest
    exact Or.inl ⟨houtputs, outputs, hread, (Except.ok.inj hdone).symm⟩
  · simp only [houtputs] at hrest
    exact Or.inr ⟨Bool.eq_false_iff.2 houtputs, (Except.ok.inj hrest).symm⟩

lemma scopes_of_advance {p q : Progress} {s : Statement} (h : (p.advance s).outcome = .ok q) :
    ∃ condition,
      (readScope (enclosing s.indent p.scopes) s).outcome = .ok (condition, q.scopes) := by
  obtain ⟨condition, scopes, hscope, ⟨-, outputs, -, rfl⟩ | ⟨-, rfl⟩⟩ := advance_cases h
  · exact ⟨condition, hscope⟩
  · exact ⟨condition, hscope⟩

/-! ## Outputs without a condition -/

/-- The reader of scopes finds no condition in force only if the statement has none of its own and
no scope is open. -/
lemma unscoped_of_readScope {scopes : List Scope} {s : Statement} {token : String}
    (h : (readScope scopes s).outcome = .error ⟨token, .outputsWithoutCondition⟩) :
    s.condition = none ∧ scopes = [] ∧ token = String.ofList (Text.trim s.outputs) := by
  unfold readScope at h
  split at h
  next text _ =>
    -- A condition of its own is refused for other causes.
    obtain hread | ⟨own, -, hdone⟩ := Reading.outcome_bind_eq_error_iff.1 h
    · have hcause : SyntaxCause.outputsWithoutCondition ∈ Condition.causes :=
        Condition.cause_mem_of_readFormula hread
      exact absurd hcause (by decide)
    · cases hdone
  next hnone =>
    cases scopes with
    | nil =>
      cases h
      exact ⟨hnone, rfl, rfl⟩
    | cons scope scopes => cases h

/-- A statement is refused for want of a condition exactly if it has none and no scope is open at
its indent; all that it says is then at fault. -/
lemma advance_unscoped_iff {p : Progress} {s : Statement} {token : String} :
    (p.advance s).outcome = .error ⟨token, .outputsWithoutCondition⟩ ↔
      s.condition = none ∧ enclosing s.indent p.scopes = [] ∧
        token = String.ofList (Text.trim s.outputs) := by
  constructor
  · intro h
    obtain hscope | ⟨⟨condition, scopes⟩, -, hrest⟩ := Reading.outcome_bind_eq_error_iff.1 h
    · exact unscoped_of_readScope hscope
    · by_cases houtputs : s.hasOutputs = true
      · simp only [houtputs, if_true] at hrest
        obtain hread | ⟨outputs, -, hdone⟩ := Reading.outcome_bind_eq_error_iff.1 hrest
        · have hcause : SyntaxCause.outputsWithoutCondition ∈ outputCauses :=
            cause_mem_of_readOutputs hread
          exact absurd hcause (by decide)
        · cases hdone
      · simp only [houtputs] at hrest
        cases hrest
  · rintro ⟨hnone, hclosed, rfl⟩
    have hscope : (readScope (enclosing s.indent p.scopes) s).outcome =
        .error ⟨String.ofList (Text.trim s.outputs), .outputsWithoutCondition⟩ := by
      simp [readScope, hnone, hclosed, Reading.fail]
    exact Reading.outcome_bind_of_error hscope _

/-! ## The first statement that is refused -/

lemma readStatements_append (p : Progress) (before after : List Statement) :
    readStatements p (before ++ after) =
      readStatements p before >>= fun q => readStatements q after := by
  induction before generalizing p with
  | nil =>
    show readStatements p after = Reading.done p >>= fun q => readStatements q after
    simp [Reading.done]
  | cons s before ih =>
    rw [List.cons_append, readStatements, readStatements, Reading.bind_assoc]
    exact congrArg _ (funext ih)

lemma readStatements_concat_ok_iff {p q : Progress} {before : List Statement} {s : Statement} :
    (readStatements p (before ++ [s])).outcome = .ok q ↔
      ∃ m, (readStatements p before).outcome = .ok m ∧ (m.advance s).outcome = .ok q := by
  have hlast : ∀ m : Progress,
      (readStatements m [s]).outcome = .ok q ↔ (m.advance s).outcome = .ok q := by
    intro m
    rw [readStatements, Reading.outcome_bind_eq_ok_iff]
    simp [Reading.outcome_mapError_eq_ok_iff, readStatements, Reading.done]
  rw [readStatements_append, Reading.outcome_bind_eq_ok_iff]
  exact exists_congr fun m => and_congr_right fun _ => hlast m

/-- Reading fails with an error exactly if there is a statement that is refused after all those
before it were read, and the error has its line and its fault. -/
lemma readStatements_error_iff {p : Progress} {ss : List Statement} {e : SyntaxError} :
    (readStatements p ss).outcome = .error e ↔
      ∃ before s after q, ss = before ++ s :: after ∧ (readStatements p before).outcome = .ok q ∧
        (q.advance s).outcome = .error e.fault ∧ e.line = s.line := by
  constructor
  · intro h
    induction ss generalizing p with
    | nil => cases h
    | cons s rest ih =>
      -- The first statement is refused, or it is read and one of the others is refused.
      obtain hfirst | ⟨next, hfirst, hrest⟩ := Reading.outcome_bind_eq_error_iff.1 h
      · obtain ⟨fault, hfault, rfl⟩ := Reading.outcome_mapError_eq_error_iff.1 hfirst
        exact ⟨[], s, rest, p, rfl, rfl, hfault, rfl⟩
      · obtain ⟨before, t, after, q, rfl, hbefore, hfault, hline⟩ := ih hrest
        refine ⟨s :: before, t, after, q, rfl, ?_, hfault, hline⟩
        exact Reading.outcome_bind_eq_ok_iff.2 ⟨next, hfirst, hbefore⟩
  · rintro ⟨before, s, after, q, rfl, hbefore, hfault, hline⟩
    rw [readStatements_append]
    apply Reading.outcome_bind_eq_error_iff.2
    refine Or.inr ⟨q, hbefore, ?_⟩
    apply Reading.outcome_bind_of_error
    rw [Reading.outcome_mapError_of_error hfault, ← hline]

/-- The line numbers of statements go up. -/
lemma pairwise_line_statements (number : Nat) (lines : List (List Char)) :
    (statements number lines).Pairwise (·.line < ·.line) ∧
      ∀ s ∈ statements number lines, number ≤ s.line := by
  induction lines generalizing number with
  | nil => exact ⟨List.Pairwise.nil, List.forall_mem_nil _⟩
  | cons raw lines ih =>
    obtain ⟨hpairwise, hle⟩ := ih (number + 1)
    rw [statements]
    split
    next => exact ⟨hpairwise, fun s hs => Nat.le_of_succ_le (hle s hs)⟩
    next s hs =>
      have hline : s.line = number := by
        simp only [Statement.ofLine?] at hs
        split at hs
        · cases hs
        · cases hs
          rfl
      refine ⟨List.Pairwise.cons (fun t ht => ?_) hpairwise,
        List.forall_mem_cons.2 ⟨Nat.le_of_eq hline.symm, ?_⟩⟩
      · rw [hline]
        exact hle t ht
      · exact fun t ht => Nat.le_of_succ_le (hle t ht)

lemma index_eq_of_line_eq {ss : List Statement} (hlines : ss.Pairwise (·.line < ·.line))
    {i j : Nat} {s t : Statement} (hs : ss[i]? = some s) (ht : ss[j]? = some t)
    (h : s.line = t.line) : i = j := by
  obtain ⟨hi, rfl⟩ := List.getElem?_eq_some_iff.1 hs
  obtain ⟨hj, rfl⟩ := List.getElem?_eq_some_iff.1 ht
  rw [List.pairwise_iff_getElem] at hlines
  rcases Nat.lt_trichotomy i j with hlt | heq | hlt
  · exact absurd h (Nat.ne_of_lt (hlines i j hi hj hlt))
  · exact heq
  · exact absurd h.symm (Nat.ne_of_lt (hlines j i hj hi hlt))

/-- The statements of a text. -/
def statementsOf (text : String) : List Statement := statements 1 (Text.lines text.toList)

lemma pairwise_line_statementsOf (text : String) :
    (statementsOf text).Pairwise (·.line < ·.line) :=
  (pairwise_line_statements 1 _).1

/-! ## Text -/

/-- What is read of a text that is accepted are the rules of its statements. -/
lemma exists_of_readInto {lexicon after : Lexicon} {text : String} {listing : Listing Signal}
    (h : readInto lexicon text = (after, .ok listing)) :
    ∃ p, (readStatements .start (statementsOf text)).outcome = .ok p ∧
      listing.rules = p.rules.reverse.map (Rule.map after.handle) := by
  rcases hread : readStatements .start (statementsOf text) with ⟨mentioned, error | p⟩
  · rw [statementsOf] at hread
    simp [readInto, Lexicon.take, read, hread, Except.map] at h
  · refine ⟨p, rfl, ?_⟩
    rw [statementsOf] at hread
    simp only [readInto, Lexicon.take, read, hread, Reading.bind_ok, Reading.pure_eq,
      List.append_nil, Except.map, Prod.mk.injEq, Except.ok.injEq] at h
    obtain ⟨rfl, rfl⟩ := h
    rfl

/-- A text is refused for what its statements are refused for. -/
lemma readInto_error_iff {lexicon : Lexicon} {text : String} {e : SyntaxError} :
    (readInto lexicon text).2 = .error e ↔
      (readStatements .start (statementsOf text)).outcome = .error e := by
  rcases hread : readStatements .start (statementsOf text) with ⟨mentioned, error | p⟩ <;>
  · rw [statementsOf] at hread
    simp [readInto, Lexicon.take, read, hread, Except.map]

end RuleText
end StripAutomata
