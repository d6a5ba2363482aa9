import StripAutomata.Proofs.Lexicon
import StripAutomata.Proofs.RuleText.Invariant
import StripAutomata.Proofs.RuleText.Refusal

/-!
# Texts that are put together

Let a text be cut behind a line feed.  Its lines are then those of the first part and those of the
second part, with greater numbers (`statementsOf_append`), and the reader goes on with the second
part from what it has when the first part ends: the open scopes, the rules, and the largest step.

* If the first part is refused, the second part is never looked at, and the text is refused for the
  same fault, with the same names taken into the lexicon.
* Of the rules and the largest step so far, reading makes no use; it only adds to them.  So what is
  read after some progress is what is read without it, put behind that progress
  (`readStatements_followedBy`).
* The open scopes do matter, but not to a statement without an indent, which closes them all, and
  then not to what comes after it (`readStatements_unindented`).

The handles of the first part stay, as a lexicon that takes more names in keeps those it has
(`Lexicon.handle_insertAll`).  `readInto_append` is what this comes to for texts that are read into
a lexicon.
-/

namespace StripAutomata

/-- A listing with the rules of another one behind its own. -/
def Listing.append {σ : Type} (l m : Listing σ) : Listing σ :=
  ⟨l.rules ++ m.rules, max l.lookahead m.lookahead⟩

/-- The same fault, some lines further on. -/
def SyntaxError.shift (lines : Nat) (e : SyntaxError) : SyntaxError :=
  { e with line := e.line + lines }

/-! ## Taking readings into a lexicon -/

namespace Lexicon

lemma take_eq_ok {ε : Type} {lexicon last : Lexicon} {r : Reading ε (Listing String)}
    {m : Listing Signal} (h : lexicon.take r = (last, .ok m)) :
    ∃ named, r.outcome = .ok named ∧ named.map (lexicon.insertAll r.mentioned).handle = m := by
  obtain ⟨mentioned, error | named⟩ := r
  · cases h
  · cases h
    exact ⟨named, rfl, rfl⟩

lemma take_eq_error {ε : Type} {lexicon last : Lexicon} {r : Reading ε (Listing String)} {e : ε}
    (h : lexicon.take r = (last, .error e)) : r.outcome = .error e := by
  obtain ⟨mentioned, error | named⟩ := r
  · cases h
    rfl
  · cases h

end Lexicon

namespace RuleText

/-! ## Statements further on -/

/-- The statement on a line that is some lines further on. -/
def Statement.shift (lines : Nat) (s : Statement) : Statement := { s with line := s.line + lines }

/-- The number of lines of a text. -/
def lineCount (text : String) : Nat := (Text.lines text.toList).length

lemma statements_append (number : Nat) (lines more : List (List Char)) :
    statements number (lines ++ more) =
      statements number lines ++ statements (number + lines.length) more := by
  induction lines generalizing number with
  | nil => rfl
  | cons raw lines ih =>
    have hnumber : number + (raw :: lines).length = number + 1 + lines.length := by
      rw [List.length_cons]
      omega
    rw [List.cons_append, statements, statements, ih, hnumber]
    split <;> rfl

lemma ofLine?_add (number k : Nat) (raw : List Char) :
    Statement.ofLine? (number + k) raw =
      (Statement.ofLine? number raw).map (Statement.shift k) := by
  unfold Statement.ofLine?
  by_cases hblank : (Statement.withoutComment raw).all Text.isBlank = true
  · simp only [if_pos hblank, Option.map_none]
  · simp only [if_neg hblank, Option.map_some]
    rfl

lemma statements_add (number k : Nat) (lines : List (List Char)) :
    statements (number + k) lines = (statements number lines).map (Statement.shift k) := by
  induction lines generalizing number with
  | nil => rfl
  | cons raw lines ih =>
    have hnext : number + k + 1 = number + 1 + k := Nat.add_right_comm number k 1
    rw [statements, statements, ofLine?_add, hnext, ih]
    rcases Statement.ofLine? number raw with _ | s <;> rfl

/-- Behind a line feed the statements of a text are those of what stands there. -/
lemma statementsOf_append {before : String} (h : ∀ c ∈ before.toList.getLast?, c = '\n')
    (after : String) :
    statementsOf (before ++ after) =
      statementsOf before ++ (statementsOf after).map (Statement.shift (lineCount before)) := by
  have hlines : Text.lines (before ++ after).toList =
      Text.lines before.toList ++ Text.lines after.toList := by
    rw [String.toList_append]
    -- The line feed at the end of the first part belongs to its last line.
    rcases List.eq_nil_or_concat before.toList with hnil | ⟨pre, c, hconcat⟩
    · rw [hnil]
      rfl
    · have hc : c = '\n' := h c (by simp [hconcat])
      rw [hconcat, hc, List.concat_eq_append, List.append_assoc]
      exact Text.lines_append_of_feed pre after.toList
  rw [statementsOf, hlines, statements_append, statements_add]
  rfl

lemma readStatements_shift (p : Progress) (k : Nat) (ss : List Statement) :
    readStatements p (ss.map (Statement.shift k)) =
      (readStatements p ss).mapError (SyntaxError.shift k) := by
  induction ss generalizing p with
  | nil => rfl
  | cons s rest ih =>
    have hfirst : (p.advance (s.shift k)).mapError (SyntaxError.mk (s.shift k).line) =
        ((p.advance s).mapError (SyntaxError.mk s.line)).mapError (SyntaxError.shift k) := by
      show (p.advance s).mapError _ = _
      rcases p.advance s with ⟨mentioned, fault | q⟩ <;> rfl
    rw [List.map_cons, readStatements, readStatements, Reading.mapError_bind, hfirst]
    exact congrArg _ (funext ih)

/-! ## Progress behind progress -/

/-- What has been read when other progress was made first. -/
def Progress.followedBy (base p : Progress) : Progress :=
  ⟨p.scopes, p.rules ++ base.rules, max base.lookahead p.lookahead⟩

lemma Progress.listing_followedBy (base p : Progress) :
    (base.followedBy p).listing = base.listing.append p.listing := by
  simp [followedBy, listing, Listing.append]

lemma Progress.followedBy_scopes (p : Progress) : p.followedBy ⟨p.scopes, [], 0⟩ = p := by
  simp [followedBy]

lemma Progress.addRule_followedBy (base p : Progress) (condition : Formula String)
    (outputs : List (Output String)) :
    (base.followedBy p).addRule condition outputs =
      base.followedBy (p.addRule condition outputs) := by
  have hmax : ∀ depth, outputs.foldl (fun depth o => max depth o.step) (max base.lookahead depth) =
      max base.lookahead (outputs.foldl (fun depth o => max depth o.step) depth) := by
    induction outputs with
    | nil => exact fun _ => rfl
    | cons o outputs ih =>
      intro depth
      rw [List.foldl_cons, List.foldl_cons, max_assoc, ih]
  -- The larger of the steps is the same in whatever order they are compared.
  simp only [addRule, followedBy, hmax, List.cons_append]

lemma advance_followedBy (base p : Progress) (s : Statement) :
    (base.followedBy p).advance s = base.followedBy <$> p.advance s := by
  have hscopes : (base.followedBy p).scopes = p.scopes := rfl
  rw [Progress.advance, Progress.advance, Reading.map_bind, hscopes]
  refine congrArg _ (funext fun x => ?_)
  by_cases houtputs : s.hasOutputs = true
  · simp only [houtputs, if_true, Reading.map_bind]
    refine congrArg _ (funext fun outputs => ?_)
    exact congrArg Reading.done (Progress.addRule_followedBy base ⟨x.2, p.rules, p.lookahead⟩ _ _)
  · simp only [houtputs]
    rfl

/-- What is read after some progress is what is read without it, put behind that progress. -/
lemma readStatements_followedBy (base p : Progress) (ss : List Statement) :
    readStatements (base.followedBy p) ss = base.followedBy <$> readStatements p ss := by
  induction ss generalizing p with
  | nil => rfl
  | cons s rest ih =>
    have hfirst : ((base.followedBy p).advance s).mapError (SyntaxError.mk s.line) =
        base.followedBy <$> (p.advance s).mapError (SyntaxError.mk s.line) := by
      rw [advance_followedBy]
      rcases p.advance s with ⟨mentioned, fault | q⟩ <;> rfl
    rw [readStatements, readStatements, hfirst, Reading.bind_map, Reading.map_bind]
    exact congrArg _ (funext ih)

/-- A statement without an indent closes all scopes, so those that are open before it do not matter
to what it and the statements after it say. -/
lemma readStatements_unindented (base : Progress) {ss : List Statement}
    (h : ∀ s ∈ ss.head?, s.indent = 0) :
    Progress.listing <$> readStatements base ss =
      base.listing.append <$> Progress.listing <$> readStatements .start ss := by
  cases ss with
  | nil =>
    have hsame : base.listing = base.listing.append Progress.start.listing := by
      rw [← Progress.listing_followedBy]
      simp [Progress.followedBy, Progress.listing, Progress.start]
    exact congrArg Reading.done hsame
  | cons s rest =>
    have hindent : s.indent = 0 := h s rfl
    have hadvance : base.advance s = (base.followedBy .start).advance s := by
      have hclosed : enclosing s.indent base.scopes =
          enclosing s.indent (base.followedBy .start).scopes := by
        rw [hindent, enclosing_zero, enclosing_zero]
      rw [Progress.advance, Progress.advance, hclosed]
      simp [Progress.followedBy, Progress.start]
    -- So the reader may as well begin anew here, and put what it reads behind the rest.
    have hrest : readStatements base (s :: rest) =
        base.followedBy <$> readStatements .start (s :: rest) := by
      rw [← readStatements_followedBy, readStatements, hadvance, readStatements]
    rw [hrest]
    rcases readStatements .start (s :: rest) with ⟨mentioned, error | q⟩
    · rfl
    · simp [Except.map, Progress.listing_followedBy]

lemma exists_append_of_readStatements {base : Progress} {ss : List Statement} {m : Listing String}
    (h : (Progress.listing <$> readStatements base ss).outcome = .ok m) :
    ∃ l, m = base.listing.append l := by
  obtain ⟨q, hread, rfl⟩ := Reading.outcome_map_eq_ok_iff.1 h
  rw [← base.followedBy_scopes, readStatements_followedBy] at hread
  obtain ⟨p, -, rfl⟩ := Reading.outcome_map_eq_ok_iff.1 hread
  exact ⟨p.listing, Progress.listing_followedBy base p⟩

/-! ## Texts -/

lemma read_eq_map (text : String) :
    read text = Progress.listing <$> readStatements .start (statementsOf text) := by
  rw [read, statementsOf]
  rcases readStatements .start (statements 1 (Text.lines text.toList)) with
    ⟨mentioned, error | p⟩
  · rfl
  · simp [Except.map]

/-- The second part of a text is read from the progress that is made with the first one. -/
lemma read_append {before : String} (h : ∀ c ∈ before.toList.getLast?, c = '\n')
    (after : String) :
    read (before ++ after) = readStatements .start (statementsOf before) >>= fun base =>
      (Progress.listing <$> readStatements base (statementsOf after)).mapError
        (SyntaxError.shift (lineCount before)) := by
  rw [read_eq_map, statementsOf_append h, readStatements_append, Reading.map_bind]
  refine congrArg _ (funext fun base => ?_)
  rw [readStatements_shift]
  rcases readStatements base (statementsOf after) with ⟨mentioned, error | p⟩ <;> rfl

/-- A text is refused behind the first part of it for a line behind the first part. -/
lemma lineCount_lt_of_error {base : Progress} {before after : String} {e : SyntaxError}
    (h : ((Progress.listing <$> readStatements base (statementsOf after)).mapError
      (SyntaxError.shift (lineCount before))).outcome = .error e) : lineCount before < e.line := by
  obtain ⟨f, hf, rfl⟩ := Reading.outcome_mapError_eq_error_iff.1 h
  have hrefused := Reading.outcome_map_eq_error_iff.1 hf
  -- The line of the error is that of a statement, and lines are numbered from one.
  obtain ⟨first, s, rest, q, hsplit, -, -, hline⟩ := readStatements_error_iff.1 hrefused
  have hmem : s ∈ statementsOf after := by simp [hsplit]
  have hone : 1 ≤ s.line := (pairwise_line_statements 1 _).2 s hmem
  show lineCount before < f.line + lineCount before
  omega

/-- The rules that are read into a lexicon have names in it, so that they stay the same when more
names are taken in. -/
lemma map_handle_insertAll {text : String} {mentioned : List String} {named : Listing String}
    (h : read text = ⟨mentioned, .ok named⟩) (lexicon : Lexicon) (more : List String) :
    named.map ((lexicon.insertAll mentioned).insertAll more).handle =
      named.map (lexicon.insertAll mentioned).handle := by
  obtain ⟨hmade, -⟩ := madeOf_of_read h
  refine congrArg (Listing.mk · named.lookahead) (List.map_congr_left fun r hr => ?_)
  refine Rule.map_congr fun name hname => Lexicon.handle_insertAll ?_ more
  exact Lexicon.mem_names_insertAll.2 (Or.inr ((hmade r hr).2 hname))

lemma Listing.map_append {σ τ : Type} (f : σ → τ) (l m : Listing σ) :
    (l.append m).map f = (l.map f).append (m.map f) := by
  simp [Listing.map, Listing.append]

/-- Behind a part that is accepted, a text is read from the progress that was made with that part,
into the lexicon that the part leaves. -/
lemma readInto_append_of_read {before : String} (hends : ∀ c ∈ before.toList.getLast?, c = '\n')
    {mentioned : List String} {base : Progress}
    (hbefore : readStatements .start (statementsOf before) = ⟨mentioned, .ok base⟩)
    (lexicon : Lexicon) (after : String) :
    readInto lexicon (before ++ after) = (lexicon.insertAll mentioned).take
      ((Progress.listing <$> readStatements base (statementsOf after)).mapError
        (SyntaxError.shift (lineCount before))) := by
  rw [readInto, read_append hends after, hbefore, Reading.bind_ok, Lexicon.take,
    Lexicon.insertAll_append]
  rfl

/-- **Texts are read part by part.**  Let a text be cut behind a line feed, or before its first
line.  If the first part is refused, the whole is refused for the same reason and with the same
lexicon.  If it is not, its rules are the first ones of the whole, or the whole is refused for a
line behind the first part.  If, moreover, the first statement of the second part has no indent, or
there is none (blank lines and comments are no statements), then the whole is what the second part
is, read into the lexicon of the first one and put behind it: with the rules of both, the larger of
the lookaheads, the same lexicon, and the same fault as many lines further on as the first part has.
-/
theorem readInto_append (lexicon : Lexicon) {before : String}
    (hends : ∀ c ∈ before.toList.getLast?, c = '\n') (after : String) :
    (∀ e, (readInto lexicon before).2 = .error e →
      readInto lexicon (before ++ after) = readInto lexicon before) ∧
    ∀ middle l, readInto lexicon before = (middle, .ok l) →
      (∀ last m, readInto lexicon (before ++ after) = (last, .ok m) → l.rules <+: m.rules) ∧
      (∀ last e, readInto lexicon (before ++ after) = (last, .error e) →
        lineCount before < e.line) ∧
      ((∀ s ∈ (statementsOf after).head?, s.indent = 0) →
        readInto lexicon (before ++ after) =
          ((readInto middle after).1, ((readInto middle after).2.map l.append).mapError
            (SyntaxError.shift (lineCount before)))) := by
  have hfirst := read_eq_map before
  rcases hbefore : readStatements .start (statementsOf before) with ⟨mentioned, error | base⟩
  · rw [hbefore] at hfirst
    refine ⟨fun e _ => ?_, fun middle l h => ?_⟩
    · rw [readInto, readInto, read_append hends after, hbefore, hfirst]
      rfl
    · rw [readInto, hfirst] at h
      cases h
  · rw [hbefore] at hfirst
    -- More names do not touch the handles of the first rules.
    have hkeep := map_handle_insertAll hfirst lexicon
    refine ⟨fun e h => ?_, fun middle l h => ?_⟩
    · rw [readInto, hfirst] at h
      cases h
    · rw [readInto, hfirst] at h
      cases h
      rw [readInto_append_of_read hends hbefore]
      refine ⟨fun last m hlast => ?_, fun last e hlast => ?_, fun hindent => ?_⟩
      · obtain ⟨named, hnamed, rfl⟩ := Lexicon.take_eq_ok hlast
        obtain ⟨n, rfl⟩ :=
          exists_append_of_readStatements (Reading.outcome_mapError_eq_ok_iff.1 hnamed)
        rw [Listing.map_append, Reading.mapError, hkeep]
        exact List.prefix_append _ _
      · exact lineCount_lt_of_error (Lexicon.take_eq_error hlast)
      · rw [readStatements_unindented base hindent, ← read_eq_map, readInto]
        rcases read after with ⟨more, error | named⟩
        · rfl
        · show (_, Except.ok _) = (_, Except.ok _)
          rw [Listing.map_append, hkeep]
          rfl

/-- A text that ends with a scope open, and with a comment. -/
def opening : String := "A:\r\n B: C\r\n# D\r\n"

/-- The rule of `opening`, with the handles that the names get in the order of the text. -/
def openingListing : Listing Signal :=
  ⟨[⟨.conjunction [.literal ⟨⟨0⟩, 0, 0⟩, .literal ⟨⟨1⟩, 0, 0⟩], [⟨0, ⟨2⟩, 1⟩]⟩], 1⟩

/-- A text that begins with a blank line and a comment, and then closes all scopes. -/
def closing : String := "\n  # D\nC: D"

/-- A text that is refused on its first line. -/
def refused : String := "A\nB: C\n"

/-- Behind `opening`, a line with an indent adds a rule, outputs without a condition are refused on
the fourth line, and `closing` is read as it is read alone; nothing helps behind `refused`. -/
theorem readInto_append_seam :
    (∀ c ∈ opening.toList.getLast?, c = '\n') ∧ (∀ c ∈ refused.toList.getLast?, c = '\n') ∧
    (∀ s ∈ (statementsOf closing).head?, s.indent = 0) ∧
    (∃ middle, readInto .empty opening = (middle, .ok openingListing) ∧
      (∃ last m, readInto .empty (opening ++ " B: D") = (last, .ok m) ∧
        openingListing.rules <+: m.rules) ∧
      (∃ last e, readInto .empty (opening ++ "D") = (last, .error e) ∧ lineCount opening < e.line) ∧
      readInto .empty (opening ++ closing) =
        ((readInto middle closing).1, ((readInto middle closing).2.map openingListing.append).mapError
          (SyntaxError.shift (lineCount opening)))) ∧
    (∃ e, (readInto .empty refused).2 = .error e ∧
      readInto .empty (refused ++ closing) = readInto .empty refused) := by
  have hopening : ∀ c ∈ opening.toList.getLast?, c = '\n' := by
    have hlast : opening.toList.getLast? = some '\n' := rfl
    simp [hlast]
  have hrefused : ∀ c ∈ refused.toList.getLast?, c = '\n' := by
    have hlast : refused.toList.getLast? = some '\n' := rfl
    simp [hlast]
  have hclosing : ∀ s ∈ (statementsOf closing).head?, s.indent = 0 := by decide
  have hread : readInto .empty opening = ((readInto .empty opening).1, .ok openingListing) := rfl
  have hlonger : readInto .empty (opening ++ " B: D") =
      ((readInto .empty (opening ++ " B: D")).1, .ok ⟨openingListing.rules ++
        [⟨.conjunction [.literal ⟨⟨0⟩, 0, 0⟩, .literal ⟨⟨1⟩, 0, 0⟩], [⟨0, ⟨3⟩, 1⟩]⟩], 1⟩) := rfl
  have hbare : readInto .empty (opening ++ "D") =
      ((readInto .empty (opening ++ "D")).1, .error ⟨4, ⟨"D", .outputsWithoutCondition⟩⟩) := rfl
  have herror : (readInto .empty refused).2 = .error ⟨1, ⟨"A", .outputsWithoutCondition⟩⟩ := rfl
  have hparts := fun after => (readInto_append .empty hopening after).2 _ _ hread
  refine ⟨hopening, hrefused, hclosing, ⟨_, hread, ?_, ?_, ?_⟩, ⟨_, herror, ?_⟩⟩
  · exact ⟨_, _, hlonger, (hparts " B: D").1 _ _ hlonger⟩
  · exact ⟨_, _, hbare, (hparts "D").2.1 _ _ hbare⟩
  · exact (hparts closing).2.2 hclosing
  · exact (readInto_append .empty hrefused closing).1 _ herror

end RuleText
end StripAutomata
