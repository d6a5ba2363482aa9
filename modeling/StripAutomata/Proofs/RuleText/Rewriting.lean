import Mathlib.Data.List.Forall2
import StripAutomata.Proofs.Formula.Legible
import StripAutomata.Proofs.RuleText.Written

/-!
# What is read of the written form of any rules

Rules that were put together by hand need not be the rules that are read of their written form, and
may not be read at all.  But if they are, what is read does what they do, provided that each
condition says what it says when it is written (`Rule.Legible`): statement by statement, the reader
adds a rule that is alike, or none where there are no outputs (`alike_of_readStatements`).
-/

namespace StripAutomata

/-- Whether the written form of a rule says what the rule does. -/
structure Rule.Legible (r : Rule String) : Prop extends Rule.Spelled r where
  condition : r.condition.Legible

lemma Rule.Writable.legible {r : Rule String} (h : r.Writable) : r.Legible where
  toSpelled := h.spelled
  condition := h.normal.legible

namespace RuleText

/-! ## Outputs -/

/-- The written form of an output is read as that output or not at all. -/
lemma eq_of_readOutput {o q : Output String} (hrange : o.InRange)
    (hname : Item.isName o.signal.toList = true) (h : readOutput o.render.toList = .ok q) :
    q = o := by
  obtain ⟨step, offset, hstep, hoffset, htext⟩ := exists_parts_render hrange
  rw [htext, readOutput_parts hstep hoffset hname, String.ofList_toList] at h
  -- An output of the same step at another cell is not read at all.
  split at h
  · cases h
  · exact (Except.ok.inj h).symm

lemma eq_of_readWords {outputs read : List (Output String)}
    (hspelled : ∀ o ∈ outputs, o.InRange ∧ Item.isName o.signal.toList = true)
    (h : (readWords (outputs.map fun o => o.render.toList)).outcome = .ok read) :
    read = outputs := by
  induction outputs generalizing read with
  | nil => exact (Except.ok.inj h).symm
  | cons o outputs ih =>
    obtain ⟨⟨hrange, hname⟩, houtputs⟩ := List.forall_mem_cons.1 hspelled
    rw [List.map_cons, readWords] at h
    cases hread : readOutput o.render.toList with
    | error cause =>
      rw [hread] at h
      cases h
    | ok q =>
      obtain rfl := eq_of_readOutput hrange hname hread
      rw [hread] at h
      obtain ⟨-, -, hrest⟩ := Reading.outcome_bind_eq_ok_iff.1 h
      obtain ⟨rest, htail, rfl⟩ := Reading.outcome_map_eq_ok_iff.1 hrest
      rw [ih houtputs htail]

lemma eq_of_readOutputs {r : Rule String} (h : r.Spelled) {outputs : List (Output String)}
    (hread : (readOutputs (' ' :: r.outputsText)).outcome = .ok outputs) : outputs = r.outputs := by
  rw [readOutputs, words_outputsText h] at hread
  exact eq_of_readWords h.outputs hread

lemma hasOutputs_statement {r : Rule String} (h : r.Spelled) (number : Nat) :
    (r.statement number).hasOutputs = r.acts := by
  have hblank : (' ' :: r.outputsText).all Text.isBlank = r.outputs.isEmpty := by
    rw [Bool.eq_iff_iff, List.all_eq_true, ← Text.words_eq_nil_iff, words_outputsText h,
      List.map_eq_nil_iff, List.isEmpty_iff]
  exact congrArg (!·) hblank

/-! ## Statements -/

/-- Of the statement of a legible rule a rule is read that does the same, or none if the rule has no
outputs. -/
lemma alike_of_advance {r : Rule String} (h : r.Legible) (number : Nat) {p q : Progress}
    (hread : (p.advance (r.statement number)).outcome = .ok q) :
    ∃ new, q.rules = new.reverse ++ p.rules ∧
      List.Forall₂ Rule.Alike ([r].filter Rule.acts) new := by
  have hindent : enclosing (r.statement number).indent p.scopes = [] := enclosing_zero p.scopes
  rw [Progress.advance, hindent] at hread
  obtain ⟨⟨condition, scopes⟩, hscope, hread⟩ := Reading.outcome_bind_eq_ok_iff.1 hread
  obtain ⟨own, hown, hsame⟩ := Reading.outcome_bind_eq_ok_iff.1 hscope
  obtain rfl : own = condition := (Prod.mk.inj (Except.ok.inj hsame)).1
  simp only [hasOutputs_statement h.toSpelled] at hread
  -- Only a rule with outputs adds to what was read before.
  by_cases hacts : r.acts = true
  · rw [if_pos hacts] at hread
    obtain ⟨outputs, houtputs, hq⟩ := Reading.outcome_bind_eq_ok_iff.1 hread
    obtain rfl := eq_of_readOutputs h.toSpelled houtputs
    obtain rfl := Except.ok.inj hq
    refine ⟨[⟨own, r.outputs⟩], rfl, ?_⟩
    rw [List.filter_cons_of_pos hacts]
    refine List.Forall₂.cons ⟨fun present => ?_, rfl⟩ List.Forall₂.nil
    exact (Formula.holds_of_readFormula h.condition h.literals hown).symm
  · rw [if_neg hacts] at hread
    obtain rfl := Except.ok.inj hread
    refine ⟨[], rfl, ?_⟩
    rw [List.filter_cons_of_neg hacts]
    exact List.Forall₂.nil

/-- Of the lines of legible rules rules are read that do the same, but for rules without outputs. -/
lemma alike_of_readStatements {rules : List (Rule String)} (h : ∀ r ∈ rules, r.Legible)
    {p q : Progress} (number : Nat)
    (hread : (readStatements p (statements number (rules.map fun r => r.render.toList))).outcome =
      .ok q) :
    ∃ new, q.rules = new.reverse ++ p.rules ∧
      List.Forall₂ Rule.Alike (rules.filter Rule.acts) new := by
  induction rules generalizing p number with
  | nil =>
    obtain rfl := Except.ok.inj hread
    exact ⟨[], rfl, List.Forall₂.nil⟩
  | cons r rules ih =>
    obtain ⟨hr, hrules⟩ := List.forall_mem_cons.1 h
    rw [List.map_cons, statements_render hr.toSpelled, readStatements] at hread
    obtain ⟨middle, hfirst, hrest⟩ := Reading.outcome_bind_eq_ok_iff.1 hread
    obtain ⟨new, hnew, halike⟩ := alike_of_advance hr number
      (Reading.outcome_mapError_eq_ok_iff.1 hfirst)
    obtain ⟨more, hmore, halikes⟩ := ih hrules (number + 1) hrest
    refine ⟨new ++ more, by rw [hmore, hnew, List.reverse_append, List.append_assoc], ?_⟩
    have hsplit : (r :: rules).filter Rule.acts =
        [r].filter Rule.acts ++ rules.filter Rule.acts := by
      rw [← List.filter_append, List.singleton_append]
    rw [hsplit]
    exact List.rel_append halike halikes

/-- **Written rules are read as rules that do the same**, if they are read, and if they are legible.
Rules without outputs are left out. -/
theorem alike_of_read_render {rules : List (Rule String)} (h : ∀ r ∈ rules, r.Legible)
    {listing : Listing String}
    (hread : (read ("\n".intercalate (rules.map Rule.render))).outcome = .ok listing) :
    List.Forall₂ Rule.Alike (rules.filter Rule.acts) listing.rules := by
  rw [read, lines_render fun r hr => (h r hr).toSpelled] at hread
  obtain ⟨p, hstatements, hp⟩ := Reading.outcome_bind_eq_ok_iff.1 hread
  obtain rfl := Except.ok.inj hp
  obtain ⟨new, hnew, halike⟩ := alike_of_readStatements h 1 hstatements
  rw [Progress.listing, hnew]
  simpa [Progress.start] using halike

end RuleText
end StripAutomata
