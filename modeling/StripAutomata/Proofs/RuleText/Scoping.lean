import Mathlib.Data.List.Forall2
import StripAutomata.Proofs.RuleText.Invariant
import StripAutomata.Proofs.RuleText.Refusal

/-!
# Scopes are what indentation says

The reader keeps a stack of scopes, which statements close and open as they come.  What it computes
can be said of the lines of a text without a stack: a statement with a condition governs itself and
the statements after it up to the first one that is not indented deeper (`governing`), and the
condition of a rule is the conjunction of the conditions that the statements which govern its line
have of their own, in the order of the lines.

`scopesOf` is the stack that governing statements make.  Their indents go up
(`pairwise_indent_governing`), so the scopes that a statement closes, which are taken off from the
top, are all those that do not enclose it, wherever they are in the stack
(`Opened.statements_enclosing`).  The reader joins conditions two at a time; that the result is one
conjunction of them all is `Formula.all_all_cons`, for conditions that are normal, as those that are
read are.

The invariant of the reader is `Scoped`.  A statement keeps it (`Scoped.advance`), and so it holds
wherever reading gets to (`scoped_of_readStatements`).
-/

namespace StripAutomata

lemma Condition.normal_of_readFormula {text : List Char} {own : Formula String}
    (h : (readFormula text).outcome = .ok own) : own.Normal := by
  have hread : readFormula text = ⟨(readFormula text).mentioned, .ok own⟩ := by rw [← h]
  exact (madeOf_of_readFormula hread (List.Subset.refl _)).normal

namespace RuleText

/-! ## The statements that govern a statement -/

/-- The statements with a condition that govern the last statement of a list: all that come after
them are indented deeper.  The last statement governs itself if it has a condition. -/
def governing : List Statement → List Statement
  | [] => []
  | s :: rest =>
    if s.condition.isSome && rest.all (fun t => decide (s.indent < t.indent)) then
      s :: governing rest
    else governing rest

lemma governing_sublist (ss : List Statement) : (governing ss).Sublist ss := by
  induction ss with
  | nil => exact List.Sublist.refl _
  | cons s rest ih =>
    rw [governing]
    split
    · exact ih.cons_cons s
    · exact ih.cons s

/-- The statements that govern a statement stand inside one another. -/
lemma pairwise_indent_governing (ss : List Statement) :
    (governing ss).Pairwise (·.indent < ·.indent) := by
  induction ss with
  | nil => exact List.Pairwise.nil
  | cons s rest ih =>
    rw [governing]
    split
    next hs =>
      simp only [Bool.and_eq_true, List.all_eq_true, decide_eq_true_eq] at hs
      exact List.Pairwise.cons (fun t ht => hs.2 t ((governing_sublist rest).mem ht)) ih
    next => exact ih

lemma governing_concat (ss : List Statement) (s : Statement) :
    governing (ss ++ [s]) =
      (governing ss).filter (fun t => decide (t.indent < s.indent)) ++
        if s.condition.isSome then [s] else [] := by
  induction ss with
  | nil => simp [governing]
  | cons t ss ih =>
    rw [List.cons_append, governing, governing, ih, List.all_append, ← Bool.and_assoc]
    -- The first statement governed the others already, and governs one more that is deeper.
    by_cases hgoverns : (t.condition.isSome && ss.all fun u => decide (t.indent < u.indent)) = true
    · by_cases hindent : t.indent < s.indent <;> simp [hgoverns, hindent]
    · simp [hgoverns]

/-! ## The scopes that they open -/

/-- Whether a formula is the condition that a statement has of its own. -/
def Statement.Requires (s : Statement) (own : Formula String) : Prop :=
  ∃ text, s.condition = some text ∧ (Condition.readFormula text).outcome = .ok own

lemma Statement.Requires.normal {s : Statement} {own : Formula String} (h : s.Requires own) :
    own.Normal := by
  obtain ⟨text, -, hread⟩ := h
  exact Condition.normal_of_readFormula hread

/-- The condition in force inside statements that stand inside one another, the innermost first,
each with the condition that it has of its own. -/
def conditionOf (opened : List (Statement × Formula String)) : Formula String :=
  .all (opened.reverse.map Prod.snd)

/-- The scopes of statements that stand inside one another, the innermost first. -/
def scopesOf : List (Statement × Formula String) → List Scope
  | [] => []
  | x :: outer => ⟨x.1.indent, conditionOf (x :: outer)⟩ :: scopesOf outer

lemma scopesOf_eq_nil_iff {opened : List (Statement × Formula String)} :
    scopesOf opened = [] ↔ opened = [] := by
  cases opened <;> simp [scopesOf]

lemma enclosing_scopesOf (indent : Nat) (opened : List (Statement × Formula String)) :
    enclosing indent (scopesOf opened) =
      scopesOf (opened.dropWhile fun x => decide (indent ≤ x.1.indent)) := by
  induction opened with
  | nil => rfl
  | cons x outer ih =>
    by_cases hclosed : indent ≤ x.1.indent
    · rw [List.dropWhile_cons_of_pos (by simpa using hclosed), ← ih]
      exact List.dropWhile_cons_of_pos (by simpa using hclosed)
    · rw [List.dropWhile_cons_of_neg (by simpa using hclosed)]
      exact List.dropWhile_cons_of_neg (by simpa using hclosed)

lemma conditionOf_cons {opened : List (Statement × Formula String)}
    (h : ∀ x ∈ opened, x.1.Requires x.2) (x : Statement × Formula String) :
    conditionOf (x :: opened) = .all [conditionOf opened, x.2] := by
  have hnormal : ∀ c ∈ opened.reverse.map Prod.snd, c.Normal :=
    List.forall_mem_map.2 fun y hy => (h y (List.mem_reverse.1 hy)).normal
  rw [conditionOf, conditionOf, Formula.all_all_cons hnormal, List.reverse_cons, List.map_append]
  rfl

/-- The condition of a statement that opens a scope, which the reader joins to that of the innermost
scope around it if there is one. -/
lemma condition_inside {opened : List (Statement × Formula String)}
    (h : ∀ x ∈ opened, x.1.Requires x.2) {s : Statement} {own : Formula String}
    (hown : s.Requires own) :
    (match scopesOf opened with
      | [] => own
      | scope :: _ => .all [scope.condition, own]) = conditionOf ((s, own) :: opened) := by
  cases opened with
  | nil => exact (Formula.all_singleton hown.normal).symm
  | cons x outer => exact (conditionOf_cons h (s, own)).symm

/-! ## Closing and opening scopes -/

/-- Whether statements, the innermost first, are those that govern the last one of a list, each
with the condition that it has of its own. -/
structure Opened (ss : List Statement) (opened : List (Statement × Formula String)) : Prop where
  statements : opened.reverse.map Prod.fst = governing ss
  own : ∀ x ∈ opened, x.1.Requires x.2

lemma dropWhile_eq_filter_not {α : Type} {p : α → Bool} {l : List α}
    (h : l.Pairwise fun x y => p y = true → p x = true) : l.dropWhile p = l.filter (!p ·) := by
  induction l with
  | nil => rfl
  | cons x l ih =>
    obtain ⟨hx, hl⟩ := List.pairwise_cons.1 h
    by_cases hp : p x = true
    · rw [List.dropWhile_cons_of_pos hp, List.filter_cons_of_neg (by simp [hp]), ih hl]
    · have hkeep : ∀ y ∈ l, (!p y) = true := by
        intro y hy
        simpa using fun hpy => hp (hx y hy hpy)
      rw [List.dropWhile_cons_of_neg hp, List.filter_cons_of_pos (by simp [hp]),
        List.filter_eq_self.2 hkeep]

/-- What is left of the stack at an indent are the governing statements that are indented less. -/
lemma Opened.statements_enclosing {ss : List Statement} {opened : List (Statement × Formula String)}
    (h : Opened ss opened) (indent : Nat) :
    (opened.dropWhile fun x => decide (indent ≤ x.1.indent)).reverse.map Prod.fst =
      (governing ss).filter fun t => decide (t.indent < indent) := by
  -- The indents go down the stack, so what is dropped from its top is all that is as deep.
  have hpairwise : opened.Pairwise fun x y => y.1.indent < x.1.indent := by
    have hup := pairwise_indent_governing ss
    rwa [← h.statements, List.pairwise_map, List.pairwise_reverse] at hup
  have hdrop : (opened.dropWhile fun x => decide (indent ≤ x.1.indent)) =
      opened.filter fun x => decide (x.1.indent < indent) := by
    rw [dropWhile_eq_filter_not]
    · refine List.filter_congr fun x _ => ?_
      by_cases hle : indent ≤ x.1.indent
      · simp [hle]
      · simp [hle, Nat.lt_of_not_le hle]
    · refine hpairwise.imp fun hlt hle => ?_
      simp only [decide_eq_true_eq] at hle ⊢
      omega
  rw [hdrop, ← h.statements, ← List.filter_reverse, List.filter_map]
  rfl

/-- The scopes after a statement are those of the statements that govern it, and the condition in
force for it is the innermost of them. -/
lemma Opened.next {ss : List Statement} {opened : List (Statement × Formula String)}
    {s : Statement} {condition : Formula String} {scopes : List Scope} (h : Opened ss opened)
    (hread : (readScope (enclosing s.indent (scopesOf opened)) s).outcome =
      .ok (condition, scopes)) :
    ∃ after, Opened (ss ++ [s]) after ∧ scopes = scopesOf after ∧
      condition = conditionOf after := by
  have hstatements := h.statements_enclosing s.indent
  have hown : ∀ x ∈ opened.dropWhile fun x => decide (s.indent ≤ x.1.indent),
      x.1.Requires x.2 := fun x hx => h.own x ((List.dropWhile_sublist _).mem hx)
  rw [enclosing_scopesOf] at hread
  generalize opened.dropWhile (fun x => decide (s.indent ≤ x.1.indent)) = left at *
  unfold readScope at hread
  split at hread
  next text htext =>
    -- The statement opens a scope inside those that are left.
    obtain ⟨own, hformula, hdone⟩ := Reading.outcome_bind_eq_ok_iff.1 hread
    have hrequires : s.Requires own := ⟨text, htext, hformula⟩
    obtain ⟨rfl, rfl⟩ := Prod.mk.inj (Except.ok.inj hdone)
    have hcondition := condition_inside hown hrequires
    refine ⟨(s, own) :: left, ⟨?_, List.forall_mem_cons.2 ⟨hrequires, hown⟩⟩, ?_, hcondition⟩
    · rw [governing_concat, ← hstatements, htext, List.reverse_cons, List.map_append]
      rfl
    · exact congrArg (Scope.mk s.indent · :: scopesOf left) hcondition
  next hnone =>
    -- It opens none, so the innermost of those that are left is in force.
    cases left with
    | nil => cases hread
    | cons y outer =>
      cases hread
      refine ⟨y :: outer, ⟨?_, hown⟩, rfl, rfl⟩
      rw [governing_concat, ← hstatements, hnone]
      simp

/-- No scope is open for outputs exactly if no statement governs them. -/
lemma Opened.enclosing_eq_nil_iff {ss : List Statement}
    {opened : List (Statement × Formula String)} {s : Statement} (h : Opened ss opened)
    (hnone : s.condition = none) :
    enclosing s.indent (scopesOf opened) = [] ↔ governing (ss ++ [s]) = [] := by
  rw [enclosing_scopesOf, scopesOf_eq_nil_iff, governing_concat, ← h.statements_enclosing, hnone]
  simp

/-! ## The invariant of the reader -/

/-- The statements of a list that make rules, each with the number of statements before it. -/
def ruling (ss : List Statement) : List (Statement × Nat) :=
  ss.zipIdx.filter (·.1.hasOutputs)

lemma ruling_concat (ss : List Statement) (s : Statement) :
    ruling (ss ++ [s]) = ruling ss ++ if s.hasOutputs then [(s, ss.length)] else [] := by
  rw [ruling, List.zipIdx_append, List.filter_append, List.zipIdx_singleton, Nat.zero_add]
  by_cases h : s.hasOutputs = true <;> simp [ruling, h]

/-- Whether a rule is the one that the last statement of a list makes: its condition is the
conjunction of those that the governing statements have of their own, and its outputs are those of
the statement. -/
structure RuleOf {σ : Type} (f : String → σ) (ss : List Statement) (s : Statement) (r : Rule σ) :
    Prop where
  condition : ∃ owns, List.Forall₂ Statement.Requires (governing ss) owns ∧
    r.condition = .all (owns.map (Formula.map f))
  outputs : ∃ outputs, (readOutputs s.outputs).outcome = .ok outputs ∧
    r.outputs = outputs.map (Output.map f)

/-- Whether the open scopes and the rules are those of the first statements of a list. -/
structure Scoped {σ : Type} (f : String → σ) (ss : List Statement) (n : Nat) (p : Progress) :
    Prop where
  scopes : ∃ opened, Opened (ss.take n) opened ∧ p.scopes = scopesOf opened
  rules : List.Forall₂ (fun x r => RuleOf f (ss.take (x.2 + 1)) x.1 (r.map f))
    (ruling (ss.take n)) p.rules.reverse

variable {σ : Type} {f : String → σ} {ss : List Statement}

lemma Opened.forall₂ {opened : List (Statement × Formula String)} (h : Opened ss opened) :
    List.Forall₂ Statement.Requires (governing ss) (opened.reverse.map Prod.snd) := by
  rw [← h.statements, List.forall₂_map_left_iff, List.forall₂_map_right_iff, List.forall₂_same]
  exact fun x hx => h.own x (List.mem_reverse.1 hx)

lemma scoped_start : Scoped f ss 0 .start where
  scopes := ⟨[], ⟨rfl, List.forall_mem_nil _⟩, rfl⟩
  rules := List.Forall₂.nil

/-- A statement keeps the invariant. -/
lemma Scoped.advance {p q : Progress} {n : Nat} {s : Statement} (hp : Scoped f ss n p)
    (hs : ss[n]? = some s) (h : (p.advance s).outcome = .ok q) : Scoped f ss (n + 1) q := by
  obtain ⟨⟨opened, hopened, hscopes⟩, hrules⟩ := hp
  obtain ⟨condition, scopes, hscope, hrest⟩ := advance_cases h
  rw [hscopes] at hscope
  obtain ⟨after, hafter, rfl, rfl⟩ := hopened.next hscope
  obtain ⟨hlt, rfl⟩ := List.getElem?_eq_some_iff.1 hs
  have htake := List.take_succ_eq_append_getElem hlt
  have hlength : (ss.take n).length = n := List.length_take_of_le hlt.le
  rw [← htake] at hafter
  obtain ⟨houtputs, outputs, hread, rfl⟩ | ⟨hnone, rfl⟩ := hrest
  · -- The statement makes a rule, which comes after the others.
    refine ⟨⟨after, hafter, rfl⟩, ?_⟩
    have hrule : RuleOf f (ss.take (n + 1)) ss[n] (Rule.map f ⟨conditionOf after, outputs⟩) :=
      ⟨⟨_, hafter.forall₂, Formula.map_all f _⟩, ⟨outputs, hread, rfl⟩⟩
    rw [htake, ruling_concat, if_pos houtputs, hlength]
    show List.Forall₂ _ _ (⟨conditionOf after, outputs⟩ :: p.rules).reverse
    rw [List.reverse_cons]
    exact List.rel_append hrules (List.Forall₂.cons hrule List.Forall₂.nil)
  · refine ⟨⟨after, hafter, rfl⟩, ?_⟩
    rw [htake, ruling_concat, if_neg (Bool.eq_false_iff.1 hnone), List.append_nil]
    exact hrules

/-- The invariant holds wherever reading gets to. -/
lemma scoped_of_readStatements {p : Progress} {n : Nat} (hn : n ≤ ss.length)
    (h : (readStatements .start (ss.take n)).outcome = .ok p) : Scoped f ss n p := by
  induction n generalizing p with
  | zero =>
    cases h
    exact scoped_start
  | succ n ih =>
    have hs : ss[n]? = some ss[n] := List.getElem?_eq_getElem hn
    rw [List.take_succ_eq_append_getElem hn] at h
    obtain ⟨m, hm, hadvance⟩ := readStatements_concat_ok_iff.1 h
    exact (ih (Nat.le_of_succ_le hn) hm).advance hs hadvance

/-! ## Outputs that no statement governs -/

/-- Outputs that no statement governs are refused on their line, if nothing before them is. -/
lemma exists_error_of_ungoverned {i : Nat} {s : Statement} (hs : ss[i]? = some s)
    (hlines : ss.Pairwise (·.line < ·.line)) (hnone : s.condition = none)
    (hungoverned : governing (ss.take (i + 1)) = []) :
    ∃ e, (readStatements .start ss).outcome = .error e ∧
      ((readStatements .start (ss.take i)).outcome = .error e ∧ e.line < s.line ∨
        e = ⟨s.line, ⟨String.ofList (Text.trim s.outputs), .outputsWithoutCondition⟩⟩) := by
  obtain ⟨hlt, hget⟩ := List.getElem?_eq_some_iff.1 hs
  have hsplit : ss = ss.take i ++ s :: ss.drop (i + 1) := by
    rw [← hget, ← List.drop_eq_getElem_cons hlt, List.take_append_drop]
  rcases hbefore : (readStatements .start (ss.take i)).outcome with e | p
  · -- An earlier statement is refused, which is on an earlier line.
    refine ⟨e, ?_, Or.inl ⟨rfl, ?_⟩⟩
    · rw [hsplit, readStatements_append]
      exact Reading.outcome_bind_of_error hbefore _
    · obtain ⟨first, t, later, q, htake, -, -, hline⟩ := readStatements_error_iff.1 hbefore
      have ht : t ∈ ss.take i := by simp [htake]
      rw [hsplit, List.pairwise_append] at hlines
      rw [hline]
      exact hlines.2.2 t ht s (List.mem_cons_self ..)
  · have hscoped : Scoped id ss i p := scoped_of_readStatements hlt.le hbefore
    obtain ⟨⟨opened, hopened, hscopes⟩, -⟩ := hscoped
    rw [List.take_succ_eq_append_getElem hlt, hget] at hungoverned
    have hclosed : enclosing s.indent p.scopes = [] := by
      rw [hscopes]
      exact (hopened.enclosing_eq_nil_iff hnone).2 hungoverned
    refine ⟨_, readStatements_error_iff.2 ?_, Or.inr rfl⟩
    exact ⟨_, s, _, p, hsplit, hbefore, advance_unscoped_iff.2 ⟨hnone, hclosed, rfl⟩, rfl⟩

/-- A line is refused for want of a condition only if it has none and no statement governs it. -/
lemma ungoverned_of_error {i : Nat} {s : Statement} {token : String} (hs : ss[i]? = some s)
    (hlines : ss.Pairwise (·.line < ·.line))
    (h : (readStatements .start ss).outcome =
      .error ⟨s.line, ⟨token, .outputsWithoutCondition⟩⟩) :
    s.condition = none ∧ governing (ss.take (i + 1)) = [] := by
  obtain ⟨before, t, later, p, rfl, hbefore, hadvance, hline⟩ := readStatements_error_iff.1 h
  have ht : (before ++ t :: later)[before.length]? = some t := by simp
  -- No two statements have one line, so the one that was refused is the one that is asked for.
  obtain rfl : i = before.length := index_eq_of_line_eq hlines hs ht hline
  obtain rfl : t = s := Option.some.inj (ht.symm.trans hs)
  have htake : (before ++ t :: later).take before.length = before := List.take_left
  have htake' : (before ++ t :: later).take (before.length + 1) = before ++ [t] := by
    rw [List.take_length_add_append, List.take_succ_cons, List.take_zero]
  obtain ⟨hnone, hclosed, -⟩ := advance_unscoped_iff.1 hadvance
  have hscoped : Scoped id (before ++ t :: later) before.length p := by
    apply scoped_of_readStatements
    · simp
    · rwa [htake]
  obtain ⟨⟨opened, hopened, hscopes⟩, -⟩ := hscoped
  rw [htake] at hopened
  rw [hscopes] at hclosed
  rw [htake']
  exact ⟨hnone, (hopened.enclosing_eq_nil_iff hnone).1 hclosed⟩

/-! ## Text -/

/-- **Scopes are what indentation says.**  In a text that is accepted, the statements with outputs
make the rules, one each and in order, and the condition of a rule is the conjunction of those that
the statements which govern its own have.  Outputs that no statement governs are refused on their
line, unless a line before them is refused; nothing else is refused for want of a condition. -/
theorem readInto_scoping (lexicon : Lexicon) (text : String) :
    (∀ after listing, readInto lexicon text = (after, .ok listing) →
      List.Forall₂ (fun x r => RuleOf after.handle ((statementsOf text).take (x.2 + 1)) x.1 r)
        (ruling (statementsOf text)) listing.rules) ∧
    (∀ i s, (statementsOf text)[i]? = some s → s.condition = none →
      governing ((statementsOf text).take (i + 1)) = [] →
      ∃ e, (readInto lexicon text).2 = .error e ∧
        ((readStatements .start ((statementsOf text).take i)).outcome = .error e ∧
            e.line < s.line ∨
          e = ⟨s.line, ⟨String.ofList (Text.trim s.outputs), .outputsWithoutCondition⟩⟩)) ∧
    (∀ i s token, (statementsOf text)[i]? = some s →
      (readInto lexicon text).2 = .error ⟨s.line, ⟨token, .outputsWithoutCondition⟩⟩ →
      s.condition = none ∧ governing ((statementsOf text).take (i + 1)) = []) := by
  have hlines := pairwise_line_statementsOf text
  refine ⟨?_, ?_, ?_⟩
  · intro after listing h
    obtain ⟨p, hread, hrules⟩ := exists_of_readInto h
    have hscoped : Scoped after.handle (statementsOf text) (statementsOf text).length p := by
      apply scoped_of_readStatements le_rfl
      rwa [List.take_length]
    have hall := hscoped.rules
    rw [List.take_length] at hall
    rw [hrules, List.forall₂_map_right_iff]
    exact hall
  · intro i s hs hnone hungoverned
    obtain ⟨e, herror, hcases⟩ := exists_error_of_ungoverned hs hlines hnone hungoverned
    exact ⟨e, readInto_error_iff.2 herror, hcases⟩
  · intro i s token hs herror
    exact ungoverned_of_error hs hlines (readInto_error_iff.1 herror)

/-- A text in which the first line governs all others, and the second one itself alone. -/
def dedented : String := "A:\n  B: C\n D"

/-- The rules of `dedented`, with the handles that the names get in the order of the text. -/
def dedentedListing : Listing Signal :=
  ⟨[⟨.conjunction [.literal ⟨⟨0⟩, 0, 0⟩, .literal ⟨⟨1⟩, 0, 0⟩], [⟨0, ⟨2⟩, 1⟩]⟩,
    ⟨.literal ⟨⟨0⟩, 0, 0⟩, [⟨0, ⟨3⟩, 1⟩]⟩], 1⟩

/-- A text in which the outputs of the second line are not indented deeper than the first line. -/
def ungoverned : String := "  A: B\n C D"

/-- In the one text the outputs of the last line belong to the first line alone, and in the other
one to none. -/
theorem readInto_scoping_dedented :
    (∃ after, readInto .empty dedented = (after, .ok dedentedListing) ∧
      List.Forall₂ (fun x r => RuleOf after.handle ((statementsOf dedented).take (x.2 + 1)) x.1 r)
        (ruling (statementsOf dedented)) dedentedListing.rules) ∧
    governing (statementsOf dedented) = [⟨1, 0, some ['A'], []⟩] ∧
    (statementsOf ungoverned)[1]? = some ⟨2, 1, none, " C D".toList⟩ ∧
    governing ((statementsOf ungoverned).take 2) = [] ∧
    (∃ e, (readInto .empty ungoverned).2 = .error e ∧
      ((readStatements .start ((statementsOf ungoverned).take 1)).outcome = .error e ∧ e.line < 2 ∨
        e = ⟨2, ⟨"C D", .outputsWithoutCondition⟩⟩)) ∧
    (readInto .empty ungoverned).2 = .error ⟨2, ⟨"C D", .outputsWithoutCondition⟩⟩ ∧
    governing ((statementsOf ungoverned).take (1 + 1)) = [] := by
  have hread : readInto .empty dedented = ((readInto .empty dedented).1, .ok dedentedListing) := rfl
  have hline : (statementsOf ungoverned)[1]? = some ⟨2, 1, none, " C D".toList⟩ := by decide
  have hungoverned : governing ((statementsOf ungoverned).take 2) = [] := by decide
  have herror : (readInto .empty ungoverned).2 =
      .error ⟨2, ⟨"C D", .outputsWithoutCondition⟩⟩ := rfl
  refine ⟨⟨_, hread, (readInto_scoping .empty dedented).1 _ _ hread⟩, by decide, hline,
    hungoverned, ?_, herror, ?_⟩
  · exact (readInto_scoping .empty ungoverned).2.1 1 _ hline rfl hungoverned
  · exact ((readInto_scoping .empty ungoverned).2.2 1 _ "C D" hline herror).2

end RuleText
end StripAutomata
