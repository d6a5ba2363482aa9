import StripAutomata.Proofs.Formula.Map
import StripAutomata.RuleText.Reader

/-!
# Written rules are read again

A rule that has a written form is written as a line without an indent.  Of that line the reader
makes a statement (`ofLine?_render`), of its outputs the outputs (`readOutputs_render`), and of its
condition the condition, unless that is nested too deeply.  As no line has an indent, each statement
closes the scope of the one before it, and the rules are read one by one: `read_render` for text in
which no condition is nested too deeply, and `read_render_too_deep` for text in which one is.

`Rule.Regular` is what every rule has that the reader makes; together with names for its signals it
makes a rule `Rule.Writable`.
-/

namespace StripAutomata

variable {σ τ : Type}

/-! ## Rules that can be written -/

/-- Whether the numbers of an output have 32 bits. -/
def Output.InRange (o : Output σ) : Prop := Item.IsOffset o.offset ∧ o.step < Numeral.stepBound

/-- Whether an output of the same step stays at its cell. -/
def Output.IsLocal (o : Output σ) : Prop := o.step = 0 → o.offset = 0

/-- Whether a rule has the form in which rules are read. -/
structure Rule.Regular (r : Rule σ) : Prop where
  normal : r.condition.Normal
  literals : ∀ l ∈ r.condition.literals, l.InRange
  outputs : ∀ o ∈ r.outputs, o.InRange ∧ o.IsLocal
  outputs_ne_nil : r.outputs ≠ []

/-- Whether a rule has a written form that is a rule. -/
structure Rule.Writable (r : Rule String) : Prop extends Rule.Regular r where
  names : ∀ name ∈ r.signals, Item.isName name.toList = true

/-- Whether a rule has a written form of which every part can be read: its numbers have 32 bits, and
its signals are called by names. -/
structure Rule.Spelled (r : Rule String) : Prop where
  literals : ∀ l ∈ r.condition.literals, l.Writable
  outputs : ∀ o ∈ r.outputs, o.InRange ∧ Item.isName o.signal.toList = true

namespace Rule

lemma Regular.map {r : Rule σ} (h : r.Regular) (f : σ → τ) : (r.map f).Regular where
  normal := h.normal.map f
  literals := by
    rw [Rule.map, Formula.literals_map]
    exact List.forall_mem_map.2 h.literals
  outputs := List.forall_mem_map.2 h.outputs
  outputs_ne_nil := by simpa [Rule.map] using h.outputs_ne_nil

lemma Writable.literals_writable {r : Rule String} (h : r.Writable) :
    ∀ l ∈ r.condition.literals, l.Writable := fun l hl =>
  ⟨h.literals l hl, h.names _ (List.mem_append_left _ (List.mem_map_of_mem hl))⟩

lemma Writable.isName_output {r : Rule String} (h : r.Writable) :
    ∀ o ∈ r.outputs, Item.isName o.signal.toList = true := fun _ ho =>
  h.names _ (List.mem_append_right _ (List.mem_map_of_mem ho))

lemma Writable.spelled {r : Rule String} (h : r.Writable) : r.Spelled :=
  ⟨h.literals_writable, fun o ho => ⟨(h.outputs o ho).1, h.isName_output o ho⟩⟩

end Rule

/-! ## Outputs -/

lemma Output.toList_render (o : Output String) :
    o.render.toList =
      ((toString o.step).toList ++ ['/']) ++ (((toString o.offset).toList ++ ['.']) ++
        o.signal.toList) := by
  have hslash : (toString "/").toList = ['/'] := rfl
  have hpoint : (toString ".").toList = ['.'] := rfl
  have hsignal : toString o.signal = o.signal := rfl
  simp [Output.render, hslash, hpoint, hsignal]

namespace RuleText

lemma exists_parts_render {o : Output String} (hrange : o.InRange) :
    ∃ step offset, Item.StepPart step o.step ∧ Item.OffsetPart '.' offset o.offset ∧
      o.render.toList = step ++ (offset ++ o.signal.toList) := by
  obtain ⟨hoffset, hstep⟩ := hrange
  have hdigits := Item.StepPart.present (Item.isDigits_toString o.step)
    (by rwa [Item.valueOf_toString])
  rw [Item.valueOf_toString] at hdigits
  exact ⟨_, _, hdigits, Item.OffsetPart.present (Item.spellsOffset_toString o.offset) hoffset,
    o.toList_render⟩

/-- The written form of an output has the pattern of an output. -/
lemma outputWord_render {o : Output String} (hrange : o.InRange) (hlocal : o.IsLocal)
    (hname : Item.isName o.signal.toList = true) : OutputWord o.render.toList o := by
  obtain ⟨step, offset, hstep, hoffset, htext⟩ := exists_parts_render hrange
  have hword := OutputWord.intro hstep hoffset hname hlocal
  rw [String.ofList_toList] at hword
  rwa [htext]

lemma isItemChar_render {o : Output String} (hrange : o.InRange)
    (hname : Item.isName o.signal.toList = true) :
    ∀ c ∈ o.render.toList, Item.isItemChar c = true := by
  obtain ⟨step, offset, hstep, hoffset, htext⟩ := exists_parts_render hrange
  intro c hc
  simp only [htext, List.mem_append] at hc
  rcases hc with hc | hc | hc
  · exact Item.isItemChar_of_mem_stepPart hstep c hc
  · exact Item.isItemChar_of_mem_offsetPart (by decide) hoffset c hc
  · exact Item.isItemChar_of_mem_name hname c hc

lemma render_ne_nil {o : Output String} (hrange : o.InRange)
    (hname : Item.isName o.signal.toList = true) : o.render.toList ≠ [] := by
  obtain ⟨step, offset, -, -, htext⟩ := exists_parts_render hrange
  have hne := Item.name_ne_nil hname
  simp [htext, hne]

lemma readWords_map {outputs : List (Output String)} {word : Output String → List Char}
    (h : ∀ o ∈ outputs, OutputWord (word o) o) :
    readWords (outputs.map word) = ⟨outputs.map (·.signal), .ok outputs⟩ := by
  induction outputs with
  | nil => rfl
  | cons o outputs ih =>
    obtain ⟨ho, houtputs⟩ := List.forall_mem_cons.1 h
    simp only [List.map_cons, readWords, readOutput_eq_ok_iff.2 ho, ih houtputs]
    rfl

end RuleText

/-- The text of the outputs of a rule. -/
def Rule.outputsText (r : Rule String) : List Char :=
  [' '].intercalate (r.outputs.map fun o => o.render.toList)

namespace RuleText

lemma outputWord_of_mem {r : Rule String} (h : r.Writable) :
    ∀ o ∈ r.outputs, OutputWord o.render.toList o := fun o ho =>
  outputWord_render (h.outputs o ho).1 (h.outputs o ho).2 (h.isName_output o ho)

lemma words_outputsText {r : Rule String} (h : r.Spelled) :
    Text.words (' ' :: r.outputsText) = r.outputs.map fun o => o.render.toList := by
  rw [Text.words_blank Text.isBlank_space]
  refine Text.words_intercalate (List.forall_mem_map.2 fun o ho => ?_)
  obtain ⟨hrange, hname⟩ := h.outputs o ho
  exact ⟨render_ne_nil hrange hname, fun c hc => Condition.isBlank_of_isWordPart
    (Item.isWordPart_of_isItemChar (isItemChar_render hrange hname c hc))⟩

/-- The written outputs of a rule are read as its outputs. -/
lemma readOutputs_render {r : Rule String} (h : r.Writable) :
    readOutputs (' ' :: r.outputsText) = ⟨r.outputs.map (·.signal), .ok r.outputs⟩ := by
  rw [readOutputs, words_outputsText h.spelled, readWords_map (outputWord_of_mem h)]

/-! ## Lines -/

/-- Whether a character has a meaning for the cutting of rule text into lines and statements. -/
def isReserved (c : Char) : Bool := c == '#' || c == ':' || Text.isEnding c

lemma isReserved_of_isItemChar {c : Char} (h : Item.isItemChar c = true) :
    isReserved c = false := by
  by_contra hreserved
  simp only [isReserved, Text.isEnding, Bool.not_eq_false, Bool.or_eq_true, beq_iff_eq]
    at hreserved
  rcases hreserved with (rfl | rfl) | rfl | rfl <;> exact absurd h (by decide)

lemma ne_of_not_isReserved {c : Char} (h : isReserved c = false) :
    c ≠ '#' ∧ c ≠ ':' ∧ Text.isEnding c = false := by
  simp only [isReserved, Bool.or_eq_false_iff, beq_eq_false_iff_ne] at h
  exact ⟨h.1.1, h.1.2, h.2⟩

/-- The written form of a formula keeps to its line and to its side of the colon. -/
lemma isReserved_of_mem_render {c : Formula String} (h : ∀ l ∈ c.literals, l.Writable) :
    ∀ x ∈ c.render.toList, isReserved x = false := by
  have hliteral : ∀ (l : Literal String) (negative : Bool), l.Writable →
      ∀ x ∈ (l.render negative).toList, isReserved x = false := fun l negative hl x hx =>
    isReserved_of_isItemChar ((hl.literalWord negative).isItemChar x hx)
  have hmark : ∀ {mark : Char}, isReserved mark = false → ∀ x ∈ [mark], isReserved x = false :=
    fun h => List.forall_mem_singleton.2 h
  have hgroup : ∀ cs : List (Formula String),
      (∀ c ∈ cs, ∀ x ∈ c.render.toList, isReserved x = false) →
      ∀ x ∈ Formula.operandsText cs, isReserved x = false :=
    fun cs hcs => Text.forall_mem_intercalate (hmark (by decide)) (List.forall_mem_map.2 hcs)
  induction c with
  | always => exact List.forall_mem_nil _
  | literal l => exact hliteral l false (h l (List.mem_singleton_self l))
  | negation c ih =>
    -- The constant false and a literal are not written with a sign in front.
    rcases Formula.takesSign_cases c with rfl | ⟨l, rfl⟩ | hsign
    · exact List.forall_mem_cons.2 ⟨by decide, hmark (by decide)⟩
    · exact hliteral l true (h l (List.mem_singleton_self l))
    · rw [Formula.render_negation hsign, String.toList_append]
      exact List.forall_mem_append.2 ⟨hmark (by decide), ih h⟩
  | conjunction cs ih =>
    rw [Formula.toList_render_conjunction, List.cons_append]
    refine List.forall_mem_cons.2
      ⟨by decide, List.forall_mem_append.2 ⟨hgroup cs ?_, hmark (by decide)⟩⟩
    exact fun c hc => ih c hc (Formula.forall_literals_conjunction h c hc)
  | disjunction cs ih =>
    rw [Formula.toList_render_disjunction, List.cons_append]
    refine List.forall_mem_cons.2
      ⟨by decide, List.forall_mem_append.2 ⟨hgroup cs ?_, hmark (by decide)⟩⟩
    exact fun c hc => ih c hc (Formula.forall_literals_disjunction h c hc)

/-- Unless it is empty, the written form of a formula begins with something that is no blank. -/
lemma exists_head_render {c : Formula String} (halways : c.isAlways = false)
    (h : ∀ l ∈ c.literals, l.Writable) :
    ∃ x rest, c.render.toList = x :: rest ∧ Text.isBlank x = false := by
  have hliteral : ∀ (l : Literal String) (negative : Bool), l.Writable →
      ∃ x rest, (l.render negative).toList = x :: rest ∧ Text.isBlank x = false := by
    intro l negative hl
    have hword := hl.literalWord negative
    obtain ⟨x, rest, htext⟩ := List.exists_cons_of_ne_nil hword.ne_nil
    have hx : Item.isItemChar x = true := hword.isItemChar x (by simp [htext])
    exact ⟨x, rest, htext, Condition.isBlank_of_isWordPart (Item.isWordPart_of_isItemChar hx)⟩
  cases c with
  | always => cases halways
  | literal l => exact hliteral l false (h l (List.mem_singleton_self l))
  | negation c =>
    rcases Formula.takesSign_cases c with rfl | ⟨l, rfl⟩ | hsign
    · exact ⟨'[', [']'], rfl, by decide⟩
    · exact hliteral l true (h l (List.mem_singleton_self l))
    · rw [Formula.render_negation hsign, String.toList_append]
      exact ⟨'-', c.render.toList, rfl, by decide⟩
  | conjunction cs => exact ⟨'(', _, Formula.toList_render_conjunction cs, by decide⟩
  | disjunction cs => exact ⟨'[', _, Formula.toList_render_disjunction cs, by decide⟩

lemma isBlank_head_render {c : Formula String} (h : ∀ l ∈ c.literals, l.Writable) :
    ∀ x ∈ c.render.toList.head?, Text.isBlank x = false := by
  by_cases halways : c.isAlways = true
  · cases c with
    | always => simp [Formula.render]
    | _ => cases halways
  · obtain ⟨x, rest, htext, hx⟩ := exists_head_render (by simpa using halways) h
    simpa [htext] using hx

lemma forall_mem_line {p : Char → Prop} {condition outputs : List Char}
    (hcondition : ∀ x ∈ condition, p x) (hcolon : p ':') (houtputs : ∀ x ∈ outputs, p x) :
    ∀ x ∈ condition ++ ':' :: outputs, p x := by
  intro x hx
  rcases List.mem_append.1 hx with hx | hx
  · exact hcondition x hx
  · rcases List.mem_cons.1 hx with rfl | hx
    · exact hcolon
    · exact houtputs x hx

lemma single_line {condition outputs : List Char} (hcondition : ∀ x ∈ condition, isReserved x = false)
    (houtputs : ∀ x ∈ outputs, isReserved x = false) :
    condition ++ ':' :: outputs ≠ [] ∧
      ∀ x ∈ condition ++ ':' :: outputs, Text.isEnding x = false := by
  have hnone : ∀ {part : List Char}, (∀ x ∈ part, isReserved x = false) →
      ∀ x ∈ part, Text.isEnding x = false := by
    intro part hpart x hx
    exact (ne_of_not_isReserved (hpart x hx)).2.2
  refine ⟨by simp, forall_mem_line (hnone hcondition) ?_ (hnone houtputs)⟩
  rfl

lemma withoutComment_colon {condition outputs : List Char}
    (hcondition : ∀ x ∈ condition, isReserved x = false)
    (houtputs : ∀ x ∈ outputs, isReserved x = false) :
    Statement.withoutComment (condition ++ ':' :: outputs) = condition ++ ':' :: outputs := by
  have hmark : ∀ {part : List Char}, (∀ x ∈ part, isReserved x = false) →
      ∀ x ∈ part, (x != '#') = true := by
    intro part hpart x hx
    simp [(ne_of_not_isReserved (hpart x hx)).1]
  exact List.takeWhile_eq_self_iff.2 (forall_mem_line (hmark hcondition) rfl (hmark houtputs))

lemma indentOf_colon {condition : List Char} (hhead : ∀ x ∈ condition.head?, Text.isBlank x = false)
    (outputs : List Char) : Statement.indentOf (condition ++ ':' :: outputs) = 0 := by
  cases condition with
  | nil => rfl
  | cons c cs =>
    have hc : Text.isBlank c = false := hhead c rfl
    rw [Statement.indentOf, List.cons_append, List.takeWhile_cons_of_neg (by simp [hc]),
      List.length_nil]

lemma splitColon_colon {condition : List Char} (hcondition : ∀ x ∈ condition, isReserved x = false)
    (outputs : List Char) :
    Statement.splitColon (condition ++ ':' :: outputs) = (some condition, outputs) := by
  have hcolon : ∀ x ∈ condition, (x != ':') = true := by
    intro x hx
    simp [(ne_of_not_isReserved (hcondition x hx)).2.1]
  unfold Statement.splitColon
  rw [List.dropWhile_append_of_pos hcolon, List.takeWhile_append_of_pos hcolon]
  simp

/-- The statement on a line that has a condition, outputs, and neither an indent nor a comment. -/
lemma ofLine?_colon (number : Nat) {condition outputs : List Char}
    (hcondition : ∀ x ∈ condition, isReserved x = false)
    (houtputs : ∀ x ∈ outputs, isReserved x = false)
    (hhead : ∀ x ∈ condition.head?, Text.isBlank x = false) :
    Statement.ofLine? number (condition ++ ':' :: outputs) =
      some ⟨number, 0, some condition, outputs⟩ := by
  -- With its colon the line is not blank, even if it has nothing else.
  have hblank : ¬ (condition ++ ':' :: outputs).all Text.isBlank = true := by
    intro hall
    have hcolon := List.all_eq_true.1 hall ':' (by simp)
    exact absurd hcolon (by decide)
  simp only [Statement.ofLine?, withoutComment_colon hcondition houtputs, if_neg hblank,
    indentOf_colon hhead, splitColon_colon hcondition]

end RuleText

/-- The statement that a rule is written as. -/
def Rule.statement (number : Nat) (r : Rule String) : RuleText.Statement :=
  ⟨number, 0, some r.condition.render.toList, ' ' :: r.outputsText⟩

lemma Rule.toList_render (r : Rule String) :
    r.render.toList = r.condition.render.toList ++ ':' :: ' ' :: r.outputsText := by
  rw [Rule.render, String.toList_append, String.toList_append, String.toList_intercalate,
    List.map_map, List.append_assoc]
  rfl

namespace RuleText

lemma isReserved_of_mem_outputsText {r : Rule String} (h : r.Spelled) :
    ∀ x ∈ ' ' :: r.outputsText, isReserved x = false := by
  have hword : ∀ o ∈ r.outputs, ∀ x ∈ o.render.toList, isReserved x = false := by
    intro o ho x hx
    obtain ⟨hrange, hname⟩ := h.outputs o ho
    exact isReserved_of_isItemChar (isItemChar_render hrange hname x hx)
  have hspace : ∀ x ∈ [' '], isReserved x = false := List.forall_mem_singleton.2 rfl
  refine List.forall_mem_cons.2 ⟨rfl, ?_⟩
  exact Text.forall_mem_intercalate hspace (List.forall_mem_map.2 hword)

/-- The line of a rule is its statement. -/
lemma ofLine?_render {r : Rule String} (h : r.Spelled) (number : Nat) :
    Statement.ofLine? number r.render.toList = some (r.statement number) := by
  rw [Rule.toList_render]
  exact ofLine?_colon number (isReserved_of_mem_render h.literals)
    (isReserved_of_mem_outputsText h) (isBlank_head_render h.literals)

lemma isEnding_of_mem_render {r : Rule String} (h : r.Spelled) :
    r.render.toList ≠ [] ∧ ∀ x ∈ r.render.toList, Text.isEnding x = false := by
  rw [Rule.toList_render]
  exact single_line (isReserved_of_mem_render h.literals) (isReserved_of_mem_outputsText h)

/-! ## Statements -/

/-- What has been read after the statement of one more written rule. -/
def Progress.addWritten (p : Progress) (r : Rule String) : Progress :=
  { p with scopes := [⟨0, r.condition⟩] : Progress }.addRule r.condition r.outputs

lemma enclosing_zero (scopes : List Scope) : enclosing 0 scopes = [] :=
  List.dropWhile_eq_nil_iff.2 fun _ _ => decide_eq_true (Nat.zero_le _)

/-- A statement without an indent makes a rule of the condition and the outputs on it. -/
lemma advance_rule (p : Progress) (number : Nat) {text outputs : List Char} {r : Rule String}
    (hcondition : Condition.readFormula text =
      ⟨r.condition.literals.map (·.signal), .ok r.condition⟩)
    (houtputs : readOutputs outputs = ⟨r.outputs.map (·.signal), .ok r.outputs⟩)
    (hne : Text.words outputs ≠ []) :
    p.advance ⟨number, 0, some text, outputs⟩ = ⟨r.signals, .ok (p.addWritten r)⟩ := by
  have hscope : readScope [] ⟨number, 0, some text, outputs⟩ =
      ⟨r.condition.literals.map (·.signal), .ok (r.condition, [⟨0, r.condition⟩])⟩ := by
    simp [readScope, hcondition]
  have hhas : Statement.hasOutputs ⟨number, 0, some text, outputs⟩ = true := by
    rw [Statement.hasOutputs, Bool.not_eq_true', ← Bool.not_eq_true, List.all_eq_true]
    exact fun hblank => hne (Text.words_eq_nil hblank)
  -- No scope is open, so the condition in force is the one on the line.
  rw [Progress.advance, enclosing_zero, hscope]
  simp [hhas, houtputs, Rule.signals, Progress.addWritten]

lemma words_outputsText_ne_nil {r : Rule String} (h : r.Writable) :
    Text.words (' ' :: r.outputsText) ≠ [] := by
  rw [words_outputsText h.spelled]
  exact fun hnil => h.outputs_ne_nil (List.map_eq_nil_iff.1 hnil)

lemma advance_statement (p : Progress) {r : Rule String} (h : r.Writable)
    (hnesting : r.condition.nesting ≤ Condition.maxDepth) (number : Nat) :
    p.advance (r.statement number) = ⟨r.signals, .ok (p.addWritten r)⟩ :=
  advance_rule p number (Formula.readFormula_render h.normal h.literals_writable hnesting)
    (readOutputs_render h) (words_outputsText_ne_nil h)

lemma advance_statement_too_deep (p : Progress) {r : Rule String} (h : r.Writable)
    (hnesting : Condition.maxDepth < r.condition.nesting) (number : Nat) :
    Condition.TooDeep (p.advance (r.statement number)) := by
  obtain ⟨token, hcondition⟩ :=
    Formula.readFormula_render_too_deep h.normal h.literals_writable hnesting
  have hscope : (readScope [] (r.statement number)).outcome = .error ⟨token, .nestedTooDeeply⟩ :=
    Reading.outcome_bind_of_error hcondition _
  refine ⟨token, ?_⟩
  rw [Progress.advance, Rule.statement, enclosing_zero]
  exact Reading.outcome_bind_of_error hscope _

lemma statements_render {r : Rule String} (h : r.Spelled) (number : Nat)
    (lines : List (List Char)) :
    statements number (r.render.toList :: lines) =
      r.statement number :: statements (number + 1) lines := by
  rw [statements, ofLine?_render h]

lemma readStatements_render {rules : List (Rule String)} (h : ∀ r ∈ rules, r.Writable)
    (hnesting : ∀ r ∈ rules, r.condition.nesting ≤ Condition.maxDepth) (p : Progress)
    (number : Nat) :
    readStatements p (statements number (rules.map fun r => r.render.toList)) =
      ⟨rules.flatMap Rule.signals, .ok (rules.foldl Progress.addWritten p)⟩ := by
  induction rules generalizing p number with
  | nil => rfl
  | cons r rules ih =>
    obtain ⟨hr, hrules⟩ := List.forall_mem_cons.1 h
    obtain ⟨hrnesting, hrulesnesting⟩ := List.forall_mem_cons.1 hnesting
    rw [List.map_cons, statements_render hr.spelled, readStatements, advance_statement p hr hrnesting]
    simp [Reading.mapError, Except.mapError, ih hrules hrulesnesting]

/-- The first rule that is nested too deeply is refused for that. -/
lemma readStatements_render_too_deep {rules : List (Rule String)} (h : ∀ r ∈ rules, r.Writable)
    (hnesting : ∃ r ∈ rules, Condition.maxDepth < r.condition.nesting) (p : Progress)
    (number : Nat) :
    ∃ line token, line < number + rules.length ∧ number ≤ line ∧
      (readStatements p (statements number (rules.map fun r => r.render.toList))).outcome =
        .error ⟨line, ⟨token, .nestedTooDeeply⟩⟩ := by
  induction rules generalizing p number with
  | nil => simp at hnesting
  | cons r rules ih =>
    obtain ⟨hr, hrules⟩ := List.forall_mem_cons.1 h
    rw [List.map_cons, statements_render hr.spelled, readStatements]
    -- Either this rule is the first one that is too deep, or it is read and another one is.
    by_cases hdeep : Condition.maxDepth < r.condition.nesting
    · obtain ⟨token, hadvance⟩ := advance_statement_too_deep p hr hdeep number
      have hfirst := Reading.outcome_mapError_of_error hadvance (SyntaxError.mk number)
      refine ⟨number, token, by simp, le_rfl, ?_⟩
      exact Reading.outcome_bind_of_error hfirst _
    · have hrest : ∃ r ∈ rules, Condition.maxDepth < r.condition.nesting := by
        simpa [hdeep] using hnesting
      obtain ⟨line, token, hlt, hle, hread⟩ := ih hrules hrest (p.addWritten r) (number + 1)
      refine ⟨line, token, by simp; omega, by omega, ?_⟩
      rw [advance_statement p hr (not_lt.1 hdeep)]
      simpa [Reading.mapError, Except.mapError] using hread

/-! ## Text -/

/-- The largest step of the outputs of a rule, or a step that was there before. -/
def deepen {σ : Type} (depth : Nat) (r : Rule σ) : Nat :=
  r.outputs.foldl (fun depth o => max depth o.step) depth

lemma foldl_addWritten (rules : List (Rule String)) (p : Progress) :
    (rules.foldl Progress.addWritten p).listing =
      ⟨p.rules.reverse ++ rules, rules.foldl deepen p.lookahead⟩ := by
  induction rules generalizing p with
  | nil => simp [Progress.listing]
  | cons r rules ih =>
    rw [List.foldl_cons, ih]
    simp [Progress.addWritten, Progress.addRule, deepen]

end RuleText

/-- The listing of rules, with the largest step of their outputs. -/
def Listing.ofRules (rules : List (Rule σ)) : Listing σ := ⟨rules, rules.foldl RuleText.deepen 0⟩

namespace RuleText

lemma lines_render {rules : List (Rule String)} (h : ∀ r ∈ rules, r.Spelled) :
    Text.lines ("\n".intercalate (rules.map Rule.render)).toList =
      rules.map fun r => r.render.toList := by
  rw [String.toList_intercalate, List.map_map]
  exact Text.lines_intercalate (List.forall_mem_map.2 fun r hr => isEnding_of_mem_render (h r hr))

/-- **Written rules are read again**, with the signals that they mention, in order. -/
theorem read_render {rules : List (Rule String)} (h : ∀ r ∈ rules, r.Writable)
    (hnesting : ∀ r ∈ rules, r.condition.nesting ≤ Condition.maxDepth) :
    read ("\n".intercalate (rules.map Rule.render)) =
      ⟨rules.flatMap Rule.signals, .ok (.ofRules rules)⟩ := by
  rw [read, lines_render fun r hr => (h r hr).spelled, readStatements_render h hnesting]
  simp [foldl_addWritten, Progress.start, Listing.ofRules]

/-- Written rules are refused if a condition among them is nested too deeply. -/
theorem read_render_too_deep {rules : List (Rule String)} (h : ∀ r ∈ rules, r.Writable)
    (hnesting : ∃ r ∈ rules, Condition.maxDepth < r.condition.nesting) :
    ∃ line token, 1 ≤ line ∧ line ≤ rules.length ∧
      (read ("\n".intercalate (rules.map Rule.render))).outcome =
        .error ⟨line, ⟨token, .nestedTooDeeply⟩⟩ := by
  obtain ⟨line, token, hlt, hle, hread⟩ := readStatements_render_too_deep h hnesting .start 1
  refine ⟨line, token, hle, by omega, ?_⟩
  rw [read, lines_render fun r hr => (h r hr).spelled]
  exact Reading.outcome_bind_of_error hread _

end RuleText
end StripAutomata
