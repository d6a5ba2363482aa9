import Mathlib.Data.List.Forall2
import Mathlib.Order.Monotone.Basic
import StripAutomata.Proofs.RuleText.Concatenation
import StripAutomata.Proofs.Text.Blanks

/-!
# Layout

A text can be laid out anew (`Relaid`): lines that say nothing are put between its lines, blanks and
comments after them, lines are ended in another way, and they are indented by other blanks, in which
the order of the indents stays the same.  Nothing of this changes what is read.  The line of an
error moves by the lines that were put before it, and that is all (`readInto_relaid`).

Of a line the reader uses what is left of it without its comment and without the blanks around it
(`Statement.core`), and its indent.  So the statements of the two texts differ in their lines and
indents only (`Statement.Relaid`).  Indents are only compared with each other, in the reader as well
as here: two runs of the reader stay side by side, one with the scopes of the other but for their
indents (`readStatements_relaid`).
-/

namespace StripAutomata

/-- How many lines are put before or between some first lines, where it is given how many are put
before each line. -/
def linesBefore : List Nat → Nat → Nat
  | gap :: gaps, line + 1 => gap + linesBefore gaps line
  | _, _ => 0

@[simp] lemma linesBefore_zero (gaps : List Nat) : linesBefore gaps 0 = 0 := by
  cases gaps <;> rfl

/-- The same error, on the line to which its own is moved when lines are put before some lines. -/
def SyntaxError.move (gaps : List Nat) (e : SyntaxError) : SyntaxError :=
  { e with line := e.line + linesBefore gaps e.line }

namespace RuleText

/-! ## Lines laid out anew -/

/-- Whether a line says nothing: without its comment it is blank. -/
def isIdle (cs : List Char) : Bool := (Statement.withoutComment cs).all Text.isBlank

lemma isIdle_iff {cs : List Char} :
    isIdle cs = true ↔ ∀ c ∈ Statement.withoutComment cs, Text.isBlank c = true :=
  List.all_eq_true

/-- Whether a line is another one with other blanks before it, and with blanks or a comment after
it.  The width of the blanks before a line that says something is mapped by `f`. -/
inductive RelaidLine (f : Nat → Nat) : List Char → List Char → Prop
  | intro {lead lead' body trail : List Char} (hlead : lead.all Text.isBlank = true)
      (hlead' : lead'.all Text.isBlank = true) (hbody : body.head?.any Text.isBlank = false)
      (htrail : isIdle trail = true) (hindent : isIdle body = true ∨ lead'.length = f lead.length) :
      RelaidLine f (lead ++ body) (lead' ++ (body ++ trail))

/-- The ways in which a line is ended. -/
def endings : List (List Char) := [['\n'], ['\r', '\n']]

/-- Whether a text is another one laid out anew.  The numbers say how many lines that say nothing
were put before each of its lines. -/
inductive Relaid (f : Nat → Nat) : List Nat → List Char → List Char → Prop
  | last {l l' : List Char} (hl : '\n' ∉ l) (hl' : '\n' ∉ l') (h : RelaidLine f l l') :
      Relaid f [0] l l'
  | line {gaps : List Nat} {l l' ending ending' rest rest' : List Char} (hl : '\n' ∉ l)
      (hl' : '\n' ∉ l') (h : RelaidLine f l l') (hending : ending ∈ endings)
      (hending' : ending' ∈ endings) (hrest : Relaid f gaps rest rest') :
      Relaid f (0 :: gaps) (l ++ (ending ++ rest)) (l' ++ (ending' ++ rest'))
  | insert {gap : Nat} {gaps : List Nat} {l ending old new : List Char} (hl : '\n' ∉ l)
      (hidle : isIdle l = true) (hending : ending ∈ endings) (h : Relaid f (gap :: gaps) old new) :
      Relaid f ((gap + 1) :: gaps) old (l ++ (ending ++ new))

/-! ## What a line says -/

namespace Statement

/-- What is left of a line without its comment and without the blanks around it. -/
def core (raw : List Char) : List Char := Text.trim (withoutComment raw)

lemma core_eq_nil_iff {raw : List Char} : core raw = [] ↔ isIdle raw = true :=
  Text.trim_eq_nil_iff.trans isIdle_iff.symm

lemma exists_withoutComment_append {trail : List Char} (h : isIdle trail = true) (raw : List Char) :
    ∃ blanks, withoutComment (raw ++ trail) = withoutComment raw ++ blanks ∧
      ∀ c ∈ blanks, Text.isBlank c = true := by
  rw [withoutComment, List.takeWhile_append]
  split
  next hall =>
    refine ⟨withoutComment trail, ?_, isIdle_iff.1 h⟩
    rw [withoutComment, withoutComment, (List.takeWhile_prefix _).eq_of_length hall]
  next => exact ⟨[], (List.append_nil _).symm, List.forall_mem_nil _⟩

lemma withoutComment_blank_append {lead : List Char} (h : ∀ c ∈ lead, Text.isBlank c = true)
    (raw : List Char) : withoutComment (lead ++ raw) = lead ++ withoutComment raw :=
  List.takeWhile_append_of_pos (Text.bne_of_blank (by decide) h)

lemma core_append_idle {trail : List Char} (h : isIdle trail = true) (raw : List Char) :
    core (raw ++ trail) = core raw := by
  obtain ⟨blanks, hraw, hblanks⟩ := exists_withoutComment_append h raw
  rw [core, hraw, Text.trim_append_blank _ hblanks, core]

lemma core_blank_append {lead : List Char} (h : ∀ c ∈ lead, Text.isBlank c = true)
    (raw : List Char) : core (lead ++ raw) = core raw := by
  rw [core, withoutComment_blank_append h, Text.trim_blank_append h, core]

/-- The indent of a line that says something is not touched by what comes after it. -/
lemma indentOf_append_idle {raw trail : List Char} (h : isIdle trail = true)
    (hraw : core raw ≠ []) :
    indentOf (withoutComment (raw ++ trail)) = indentOf (withoutComment raw) := by
  obtain ⟨blanks, hwhole, -⟩ := exists_withoutComment_append h raw
  rw [hwhole, indentOf, indentOf, List.takeWhile_append, if_neg]
  intro hall
  refine hraw (core_eq_nil_iff.2 (isIdle_iff.2 fun c hc => ?_))
  rw [← (List.takeWhile_prefix _).eq_of_length hall] at hc
  exact List.mem_takeWhile_imp hc

lemma indentOf_blank_append {lead body : List Char} (hlead : ∀ c ∈ lead, Text.isBlank c = true)
    (hbody : ∀ c ∈ body.head?, Text.isBlank c = false) :
    indentOf (withoutComment (lead ++ body)) = lead.length := by
  have hnone : (withoutComment body).takeWhile Text.isBlank = [] := by
    cases body with
    | nil => rfl
    | cons c body =>
      have hc : Text.isBlank c = false := hbody c rfl
      rw [withoutComment, List.takeWhile_cons]
      split
      · exact List.takeWhile_cons_of_neg (by simp [hc])
      · rfl
  rw [withoutComment_blank_append hlead, indentOf, List.takeWhile_append_of_pos hlead, hnone,
    List.append_nil]

lemma splitColon_append {lead trail : List Char} (hlead : ∀ c ∈ lead, Text.isBlank c = true)
    (htrail : ∀ c ∈ trail, Text.isBlank c = true) (cs : List Char) :
    splitColon (lead ++ (cs ++ trail)) =
      match splitColon cs with
      | (none, outputs) => (none, lead ++ (outputs ++ trail))
      | (some condition, outputs) => (some (lead ++ condition), outputs ++ trail) := by
  have hcolon : Text.isBlank ':' = false := by decide
  have hdrop : (lead ++ (cs ++ trail)).dropWhile (· != ':') =
      (cs ++ trail).dropWhile (· != ':') :=
    List.dropWhile_append_of_pos (Text.bne_of_blank hcolon hlead)
  have htake : (lead ++ (cs ++ trail)).takeWhile (· != ':') =
      lead ++ (cs ++ trail).takeWhile (· != ':') :=
    List.takeWhile_append_of_pos (Text.bne_of_blank hcolon hlead)
  unfold splitColon
  rw [hdrop, htake, List.dropWhile_append, List.takeWhile_append]
  rcases hrest : cs.dropWhile (· != ':') with _ | ⟨c, rest⟩
  · -- Without a colon in the middle there is none: blanks are no colons.
    have hnone : trail.dropWhile (· != ':') = [] :=
      List.dropWhile_eq_nil_iff.2 (Text.bne_of_blank hcolon htrail)
    simp [hnone]
  · -- The first colon of the middle is the first one of all.
    have hlength : (cs.takeWhile (· != ':')).length ≠ cs.length := by
      intro hall
      have hsplit := List.takeWhile_append_dropWhile (p := (· != ':')) (l := cs)
      rw [(List.takeWhile_prefix _).eq_of_length hall, hrest] at hsplit
      simp at hsplit
    simp [hlength]

/-- Whether a statement is another one laid out anew. -/
structure Relaid (f : Nat → Nat) (s t : Statement) : Prop where
  indent : t.indent = f s.indent
  condition : t.condition.map Condition.Token.scan = s.condition.map Condition.Token.scan
  words : Text.words t.outputs = Text.words s.outputs
  trim : Text.trim t.outputs = Text.trim s.outputs

lemma ofLine?_eq_none {raw : List Char} (h : core raw = []) (number : Nat) :
    ofLine? number raw = none :=
  if_pos (core_eq_nil_iff.1 h)

lemma ofLine?_eq_some {raw : List Char} (h : core raw ≠ []) (number : Nat) :
    ofLine? number raw = some ⟨number, indentOf (withoutComment raw),
      (splitColon (withoutComment raw)).1, (splitColon (withoutComment raw)).2⟩ :=
  if_neg fun hidle => h (core_eq_nil_iff.2 hidle)

/-- A line is divided as its core is divided, but for blanks. -/
lemma splitColon_withoutComment (raw : List Char) :
    (splitColon (withoutComment raw)).1.map Condition.Token.scan =
        (splitColon (core raw)).1.map Condition.Token.scan ∧
      Text.words (splitColon (withoutComment raw)).2 = Text.words (splitColon (core raw)).2 ∧
      Text.trim (splitColon (withoutComment raw)).2 = Text.trim (splitColon (core raw)).2 := by
  obtain ⟨trail, hraw, htrail⟩ := Text.exists_eq_trim (withoutComment raw)
  have hlead : ∀ c ∈ (withoutComment raw).takeWhile Text.isBlank, Text.isBlank c = true :=
    fun c hc => List.mem_takeWhile_imp hc
  have hsplit := splitColon_append hlead htrail (core raw)
  rw [core, ← hraw, ← core] at hsplit
  rw [hsplit]
  rcases splitColon (core raw) with ⟨_ | condition, outputs⟩
  · refine ⟨rfl, ?_, ?_⟩
    · exact (Text.words_blank_append hlead _).trans (Text.words_append_blank outputs htrail)
    · exact (Text.trim_blank_append hlead _).trans (Text.trim_append_blank outputs htrail)
  · exact ⟨congrArg some (Condition.Token.scan_blank_append hlead condition),
      Text.words_append_blank outputs htrail, Text.trim_append_blank outputs htrail⟩

/-- Lines with the same core have no statements, or statements that differ in their lines and
indents only. -/
lemma ofLine?_relaid {f : Nat → Nat} {raw raw' : List Char} (hcore : core raw' = core raw)
    (hindent : core raw ≠ [] →
      indentOf (withoutComment raw') = f (indentOf (withoutComment raw))) (number number' : Nat) :
    ofLine? number raw = none ∧ ofLine? number' raw' = none ∨
      ∃ s t, ofLine? number raw = some s ∧ ofLine? number' raw' = some t ∧ s.line = number ∧
        t.line = number' ∧ s.Relaid f t := by
  -- Both lines say nothing, or both say the same.
  by_cases hidle : core raw = []
  · exact Or.inl ⟨ofLine?_eq_none hidle number, ofLine?_eq_none (hcore.trans hidle) number'⟩
  · obtain ⟨hcondition, hwords, htrim⟩ := splitColon_withoutComment raw
    obtain ⟨hcondition', hwords', htrim'⟩ := splitColon_withoutComment raw'
    rw [hcore] at hcondition' hwords' htrim'
    refine Or.inr ⟨_, _, ofLine?_eq_some hidle number,
      ofLine?_eq_some (fun h => hidle (hcore.symm.trans h)) number', rfl, rfl, ?_⟩
    exact ⟨hindent hidle, hcondition'.trans hcondition.symm, hwords'.trans hwords.symm,
      htrim'.trans htrim.symm⟩

end Statement

open Statement

variable {f : Nat → Nat}

lemma RelaidLine.core {l l' : List Char} (h : RelaidLine f l l') :
    Statement.core l' = Statement.core l ∧ (Statement.core l ≠ [] →
      indentOf (withoutComment l') = f (indentOf (withoutComment l))) := by
  obtain ⟨hlead, hlead', hbody, htrail, hindent⟩ := h
  rename_i lead lead' body trail
  rw [List.all_eq_true] at hlead hlead'
  rw [Option.any_eq_false] at hbody
  have hold : Statement.core (lead ++ body) = Statement.core body := core_blank_append hlead body
  have hnew : Statement.core (lead' ++ (body ++ trail)) = Statement.core body := by
    rw [core_blank_append hlead', core_append_idle htrail]
  refine ⟨hnew.trans hold.symm, fun hbusy => ?_⟩
  -- A line that says something has its indent from its own leading blanks.
  rw [hold] at hbusy
  have hbusy' : Statement.core (lead' ++ body) ≠ [] := by rwa [core_blank_append hlead']
  rw [← List.append_assoc, indentOf_append_idle htrail hbusy', indentOf_blank_append hlead' hbody,
    indentOf_blank_append hlead hbody]
  exact hindent.resolve_left fun hidle => hbusy (core_eq_nil_iff.2 hidle)

/-- A line is cut off with its ending.  Whether a carriage return is part of the ending or of the
line makes no difference. -/
lemma exists_lines_append {l ending : List Char} (hl : '\n' ∉ l) (hending : ending ∈ endings)
    (cs : List Char) : ∃ line, Text.lines (l ++ (ending ++ cs)) = line :: Text.lines cs ∧
      Statement.core line = Statement.core l ∧ (Statement.core l ≠ [] →
        indentOf (withoutComment line) = indentOf (withoutComment l)) := by
  have hreturn : isIdle ['\r'] = true := by decide
  simp only [endings, List.mem_cons, List.not_mem_nil, or_false] at hending
  rcases hending with rfl | rfl
  · -- A line feed alone: what is before it may end in a carriage return that the reader takes off.
    obtain ⟨line, hline, rfl | rfl⟩ := Text.exists_lines_append_feed hl cs
    · exact ⟨l, hline, rfl, fun _ => rfl⟩
    · rw [core_append_idle hreturn]
      exact ⟨line, hline, rfl, fun hbusy => (indentOf_append_idle hreturn hbusy).symm⟩
  · -- Both: the carriage return belongs to the line or to its ending.
    have hl' : '\n' ∉ l ++ ['\r'] := by simp [hl]
    obtain ⟨line, hline, hends⟩ := Text.exists_lines_append_feed hl' cs
    rw [List.append_assoc] at hline
    refine ⟨line, hline, ?_⟩
    rcases hends with rfl | hsame
    · exact ⟨core_append_idle hreturn l, fun hbusy => indentOf_append_idle hreturn hbusy⟩
    · rw [List.append_cancel_right hsame]
      exact ⟨rfl, fun _ => rfl⟩

/-! ## Statements laid out anew -/

/-- Whether a statement of a text is moved to another line when lines are put before some lines.
Line numbers count from the ones given. -/
def Moved (gaps : List Nat) (number number' : Nat) (s t : Statement) : Prop :=
  ∃ i, s.line = number + i ∧ t.line = number' + i + linesBefore gaps (i + 1)

variable {gap : Nat} {gaps : List Nat} {number number' : Nat}

/-- One line more stands before both statements. -/
lemma Moved.line {s t : Statement} (h : Moved gaps (number + 1) (number' + 1) s t) :
    Moved (0 :: gaps) number number' s t := by
  obtain ⟨i, hi, hi'⟩ := h
  refine ⟨i + 1, by omega, ?_⟩
  rw [hi', linesBefore]
  omega

/-- One line more was put before the second statement. -/
lemma Moved.insert {s t : Statement} (h : Moved (gap :: gaps) number (number' + 1) s t) :
    Moved ((gap + 1) :: gaps) number number' s t := by
  obtain ⟨i, hi, hi'⟩ := h
  refine ⟨i, hi, ?_⟩
  rw [hi', linesBefore, linesBefore]
  omega

lemma statements_cons (number : Nat) (raw : List Char) (lines : List (List Char)) :
    statements number (raw :: lines) =
      (ofLine? number raw).toList ++ statements (number + 1) lines := by
  rw [statements]
  rcases ofLine? number raw with _ | s <;> rfl

lemma statements_of_not_mem {l : List Char} (hl : '\n' ∉ l) (number : Nat) :
    statements number (Text.lines l) = (ofLine? number l).toList := by
  by_cases hnil : l = []
  · subst hnil
    rfl
  · rw [Text.lines_of_not_mem hnil hl, statements_cons, statements, List.append_nil]

/-- Two lines with the same core give a statement each, or none. -/
lemma forall₂_ofLine? {raw raw' : List Char} (hcore : Statement.core raw' = Statement.core raw)
    (hindent : Statement.core raw ≠ [] →
      indentOf (withoutComment raw') = f (indentOf (withoutComment raw))) (number number' : Nat) :
    List.Forall₂ (fun s t => s.Relaid f t ∧ Moved (0 :: gaps) number number' s t)
      (ofLine? number raw).toList (ofLine? number' raw').toList := by
  obtain ⟨hs, ht⟩ | ⟨s, t, hs, ht, hline, hline', hsame⟩ :=
    ofLine?_relaid hcore hindent number number'
  · rw [hs, ht]
    exact .nil
  · rw [hs, ht]
    exact .cons ⟨hsame, 0, hline, by simp [hline', linesBefore]⟩ .nil

/-- A text and the same one laid out anew have the same statements, but for lines and indents. -/
lemma Relaid.statements {old new : List Char} (h : Relaid f gaps old new) (number number' : Nat) :
    List.Forall₂ (fun s t => s.Relaid f t ∧ Moved gaps number number' s t)
      (statements number (Text.lines old)) (statements number' (Text.lines new)) := by
  induction h generalizing number number' with
  | @last l l' hl hl' h =>
    obtain ⟨hcore, hindent⟩ := h.core
    rw [statements_of_not_mem hl, statements_of_not_mem hl']
    exact forall₂_ofLine? hcore hindent number number'
  | @line gaps l l' ending ending' rest rest' hl hl' h hending hending' _ ih =>
    obtain ⟨line, hlines, hcore, hindent⟩ := exists_lines_append hl hending rest
    obtain ⟨line', hlines', hcore', hindent'⟩ := exists_lines_append hl' hending' rest'
    obtain ⟨hsame, hmapped⟩ := h.core
    -- A carriage return that stays with its line says nothing, so the lines are still alike.
    have hcores : Statement.core line' = Statement.core line := by rw [hcore', hsame, hcore]
    have hindents : Statement.core line ≠ [] →
        indentOf (withoutComment line') = f (indentOf (withoutComment line)) := by
      intro hbusy
      rw [hcore] at hbusy
      rw [hindent' (by rwa [hsame]), hmapped hbusy, hindent hbusy]
    have hrest := (ih (number + 1) (number' + 1)).imp fun s t hst => And.imp_right Moved.line hst
    rw [hlines, hlines', statements_cons, statements_cons]
    exact List.rel_append (forall₂_ofLine? hcores hindents number number') hrest
  | @insert gap gaps l ending old new hl hidle hending _ ih =>
    -- A line that was put in gives no statement, but moves the others by one.
    obtain ⟨line, hlines, hcore, -⟩ := exists_lines_append hl hending new
    have hnone := ofLine?_eq_none (hcore.trans (core_eq_nil_iff.2 hidle)) number'
    rw [hlines, statements_cons, hnone]
    exact (ih number (number' + 1)).imp fun s t hst => And.imp_right Moved.insert hst

/-! ## Reading with other indents -/

/-- The scope with its indent mapped. -/
def Scope.reindent (f : Nat → Nat) (scope : Scope) : Scope :=
  { scope with indent := f scope.indent }

/-- The progress with the indents of its scopes mapped. -/
def Progress.reindent (f : Nat → Nat) (p : Progress) : Progress :=
  { p with scopes := p.scopes.map (Scope.reindent f) }

variable {indents : Set Nat} {scopes : List Scope} {p q : Progress} {s t : Statement}

lemma enclosing_reindent (hf : StrictMonoOn f indents) (hs : s.indent ∈ indents)
    (hscopes : ∀ scope ∈ scopes, scope.indent ∈ indents) :
    enclosing (f s.indent) (scopes.map (Scope.reindent f)) =
      (enclosing s.indent scopes).map (Scope.reindent f) := by
  induction scopes with
  | nil => rfl
  | cons scope scopes ih =>
    obtain ⟨hscope, hrest⟩ := List.forall_mem_cons.1 hscopes
    have hle : f s.indent ≤ f scope.indent ↔ s.indent ≤ scope.indent := hf.le_iff_le hs hscope
    rw [enclosing, List.map_cons, List.dropWhile_cons, enclosing, List.dropWhile_cons]
    -- An indent is mapped below another exactly if it was below it, so the same scopes close.
    by_cases hclosed : s.indent ≤ scope.indent
    · rw [if_pos (by simpa [Scope.reindent, hle] using hclosed), if_pos (by simpa using hclosed)]
      exact ih hrest
    · rw [if_neg (by simpa [Scope.reindent, hle] using hclosed), if_neg (by simpa using hclosed)]
      rfl

lemma readScope_relaid (h : s.Relaid f t) (scopes : List Scope) :
    readScope (scopes.map (Scope.reindent f)) t =
      (fun x => (x.1, x.2.map (Scope.reindent f))) <$> readScope scopes s := by
  obtain ⟨hindent, hcondition, -, htrim⟩ := h
  obtain ⟨line, indent, _ | text, outputs⟩ := s <;>
    obtain ⟨line', indent', _ | text', outputs'⟩ := t
  · obtain rfl : indent' = f indent := hindent
    have htrim : Text.trim outputs' = Text.trim outputs := htrim
    cases scopes <;> simp [readScope, Reading.fail, Reading.done, htrim, Except.map, Scope.reindent]
  · simp at hcondition
  · simp at hcondition
  · obtain rfl : indent' = f indent := hindent
    have hscan : Condition.Token.scan text' = Condition.Token.scan text := by simpa using hcondition
    have hread : Condition.readFormula text' = Condition.readFormula text := by
      rw [Condition.readFormula, Condition.readFormula, Condition.read, Condition.read, hscan]
    simp only [readScope, hread]
    rcases Condition.readFormula text with ⟨mentioned, error | own⟩
    · rfl
    · cases scopes <;> rfl

lemma hasOutputs_relaid (h : s.Relaid f t) : t.hasOutputs = s.hasOutputs := by
  rw [Bool.eq_iff_iff, hasOutputs_iff, hasOutputs_iff, h.words]

/-- A statement that is laid out anew is read alike, from the same scopes with other indents. -/
lemma advance_relaid (hf : StrictMonoOn f indents) (hs : s.indent ∈ indents)
    (hp : ∀ scope ∈ p.scopes, scope.indent ∈ indents) (h : s.Relaid f t) :
    (p.reindent f).advance t = Progress.reindent f <$> p.advance s := by
  have hscopes : enclosing t.indent (p.reindent f).scopes =
      (enclosing s.indent p.scopes).map (Scope.reindent f) := by
    rw [h.indent]
    exact enclosing_reindent hf hs hp
  have houtputs : readOutputs t.outputs = readOutputs s.outputs := by
    rw [readOutputs, readOutputs, h.words]
  rw [Progress.advance, Progress.advance, hscopes, readScope_relaid h, Reading.bind_map,
    Reading.map_bind]
  -- From here on, both go by what was read of the scope and by the same outputs.
  refine congrArg _ (funext fun x => ?_)
  rw [houtputs, hasOutputs_relaid h]
  by_cases hany : s.hasOutputs = true
  · simp only [hany, if_true, Reading.map_bind]
    rfl
  · simp only [hany]
    rfl

lemma indents_of_advance (hs : s.indent ∈ indents)
    (hp : ∀ scope ∈ p.scopes, scope.indent ∈ indents) (h : (p.advance s).outcome = .ok q) :
    ∀ scope ∈ q.scopes, scope.indent ∈ indents := by
  obtain ⟨condition, hscope⟩ := scopes_of_advance h
  have hleft : ∀ scope ∈ enclosing s.indent p.scopes, scope.indent ∈ indents := fun scope hmem =>
    hp scope ((List.dropWhile_sublist _).mem hmem)
  generalize enclosing s.indent p.scopes = left at hscope hleft
  generalize q.scopes = scopes at hscope ⊢
  unfold readScope at hscope
  split at hscope
  next text _ =>
    obtain ⟨own, -, hdone⟩ := Reading.outcome_bind_eq_ok_iff.1 hscope
    cases hdone
    exact List.forall_mem_cons.2 ⟨hs, hleft⟩
  next =>
    cases left with
    | nil => cases hscope
    | cons scope left =>
      cases hscope
      exact hleft

/-- **Statements that are laid out anew are read alike**, but for the line of an error. -/
theorem readStatements_relaid {gaps : List Nat} {ss ts : List Statement}
    (hf : StrictMonoOn f indents) (hss : ∀ s ∈ ss, s.indent ∈ indents)
    (hp : ∀ scope ∈ p.scopes, scope.indent ∈ indents)
    (h : List.Forall₂ (fun s t => s.Relaid f t ∧ t.line = s.line + linesBefore gaps s.line) ss ts) :
    readStatements (p.reindent f) ts =
      (Progress.reindent f <$> readStatements p ss).mapError (SyntaxError.move gaps) := by
  induction h generalizing p with
  | nil => rfl
  | @cons s t ss ts hst _ ih =>
    obtain ⟨hsame, hline⟩ := hst
    obtain ⟨hs, hrest⟩ := List.forall_mem_cons.1 hss
    rw [readStatements, readStatements, advance_relaid hf hs hp hsame, hline]
    rcases hadvance : p.advance s with ⟨mentioned, fault | q⟩
    · -- A statement that is refused is refused on its own line, in either text.
      rfl
    · have hq : ∀ scope ∈ q.scopes, scope.indent ∈ indents :=
        indents_of_advance hs hp (by rw [hadvance])
      have hnext := ih hrest hq
      simp only [Reading.map_eq, Reading.mapError, Except.map, Except.mapError, Reading.bind_ok]
      rw [hnext]
      rfl

/-! ## Texts -/

/-- **Layout does not matter, but for the order of indents.**  Let a text be laid out anew: with
lines that say nothing put before some lines, with blanks and comments behind lines, with other line
endings, and with other blanks before the lines that say something, of which the widths are mapped
so that the greater one stays the greater one.  It is then read into any lexicon as before, with the
same rules, the same lookahead and the same names, or refused for the same fault, on the line on
which the refused line is now. -/
theorem readInto_relaid {gaps : List Nat} {old new : String}
    (hf : StrictMonoOn f {indent | ∃ s ∈ statementsOf old, s.indent = indent})
    (h : Relaid f gaps old.toList new.toList) (lexicon : Lexicon) :
    readInto lexicon new =
      ((readInto lexicon old).1, (readInto lexicon old).2.mapError (SyntaxError.move gaps)) := by
  have hlines : List.Forall₂
      (fun s t => s.Relaid f t ∧ t.line = s.line + linesBefore gaps s.line)
      (statementsOf old) (statementsOf new) := by
    refine List.Forall₂.imp (fun s t hst => ?_) (h.statements 1 1)
    obtain ⟨hst, i, hi, hi'⟩ := hst
    refine ⟨hst, ?_⟩
    rw [hi, hi', Nat.add_comm 1 i]
  have hread := readStatements_relaid (p := .start) hf (fun s hs => ⟨s, hs, rfl⟩)
    (List.forall_mem_nil _) hlines
  have hstart : Progress.start.reindent f = Progress.start := rfl
  rw [hstart] at hread
  rw [readInto, readInto, read_eq_map, read_eq_map, hread]
  rcases readStatements .start (statementsOf old) with ⟨mentioned, error | p⟩ <;> rfl

/-- A text of four lines, the last of which has a word that is no output. -/
def plainLayout : String := "A:\n    B: C\n\n    D: 1.5"

/-- The same text with a line before the first and the last one, comments, and tabs. -/
def otherLayout : String := "# ...\nA: # B:\r\n\tB: C \n  \n\r\n\tD: 1.5#"

/-- Both texts are refused for the same word, on the fourth and on the sixth line. -/
theorem readInto_relaid_otherLayout :
    StrictMonoOn (· / 4) {indent | ∃ s ∈ statementsOf plainLayout, s.indent = indent} ∧
    Relaid (· / 4) [1, 0, 0, 1] plainLayout.toList otherLayout.toList ∧
    (readInto ∅ plainLayout).2 = .error ⟨4, ⟨"1.5", .malformedOutputItem⟩⟩ ∧
    readInto ∅ otherLayout =
      ((readInto ∅ plainLayout).1, .error ⟨6, ⟨"1.5", .malformedOutputItem⟩⟩) := by
  have hindents : ∀ s ∈ statementsOf plainLayout, s.indent = 0 ∨ s.indent = 4 := by decide
  have hf : StrictMonoOn (· / 4) {indent | ∃ s ∈ statementsOf plainLayout, s.indent = indent} := by
    rintro m ⟨s, hs, rfl⟩ n ⟨t, ht, rfl⟩ hlt
    have hs := hindents s hs
    have ht := hindents t ht
    show s.indent / 4 < t.indent / 4
    omega
  have hscope : RelaidLine (· / 4) "A:".toList "A: # B:".toList :=
    @RelaidLine.intro (· / 4) [] [] "A:".toList " # B:".toList rfl rfl rfl rfl (Or.inr rfl)
  have hrule : RelaidLine (· / 4) "    B: C".toList "\tB: C ".toList :=
    @RelaidLine.intro (· / 4) "    ".toList ['\t'] "B: C".toList [' '] rfl rfl rfl rfl (Or.inr rfl)
  have hblank : RelaidLine (· / 4) [] "  ".toList :=
    @RelaidLine.intro (· / 4) [] "  ".toList [] [] rfl rfl rfl rfl (Or.inl rfl)
  have hrefused : RelaidLine (· / 4) "    D: 1.5".toList "\tD: 1.5#".toList :=
    @RelaidLine.intro (· / 4) "    ".toList ['\t'] "D: 1.5".toList ['#'] rfl rfl rfl rfl
      (Or.inr rfl)
  have hlast := Relaid.last (by decide) (by decide) hrefused
  have hthird := Relaid.line (by decide) (by decide) hblank (List.mem_cons_self ..)
    (List.mem_cons_self ..) (Relaid.insert (by decide) (rfl : isIdle [] = true)
      (by decide : ['\r', '\n'] ∈ endings) hlast)
  have hsecond := Relaid.line (by decide) (by decide) hrule (List.mem_cons_self ..)
    (List.mem_cons_self ..) hthird
  have hwhole := Relaid.insert (by decide) (rfl : isIdle "# ...".toList = true)
    (List.mem_cons_self ..) (Relaid.line (by decide) (by decide) hscope (List.mem_cons_self ..)
      (by decide : ['\r', '\n'] ∈ endings) hsecond)
  have hrelaid : Relaid (· / 4) [1, 0, 0, 1] plainLayout.toList otherLayout.toList := hwhole
  have herror : (readInto ∅ plainLayout).2 = .error ⟨4, ⟨"1.5", .malformedOutputItem⟩⟩ := by rfl
  refine ⟨hf, hrelaid, herror, ?_⟩
  rw [readInto_relaid hf hrelaid, herror]
  rfl

end RuleText
end StripAutomata
