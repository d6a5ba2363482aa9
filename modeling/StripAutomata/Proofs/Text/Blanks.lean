import Mathlib.Data.List.TakeWhile
import StripAutomata.Proofs.Text.Cutting

/-!
# Blanks around text

Blanks before and after a text change neither its words nor its units, and they are what is trimmed
of it.  A text is therefore some blanks, what is left when it is trimmed, and some blanks again
(`exists_eq_trim`).

A line is cut off at the first line feed, whatever other characters are in it; a carriage return
before the line feed is cut off, too (`exists_lines_append_feed`).
-/

namespace StripAutomata

namespace Text

variable {keep : Char → Bool} {cs lead trail rest : List Char}

/-- What is no blank does not stand among blanks. -/
lemma bne_of_blank {mark : Char} (hmark : isBlank mark = false) (h : ∀ c ∈ cs, isBlank c = true) :
    ∀ c ∈ cs, (c != mark) = true := by
  intro c hc
  rw [bne_iff_ne]
  rintro rfl
  rw [h c hc] at hmark
  cases hmark

/-! ## Words and units -/

/-- A text is cut in two where the second part does not go on with a run. -/
lemma pieces_append (cs : List Char) (h : ∀ c ∈ rest.head?, keep c = false) :
    pieces keep (cs ++ rest) = pieces keep cs ++ pieces keep rest := by
  induction cs with
  | nil => rfl
  | cons c cs ih =>
    rw [List.cons_append, pieces, pieces, ih]
    by_cases hc : keep c = true
    · rw [if_pos hc, if_pos hc]
      rcases hpieces : pieces keep cs with _ | ⟨r | m, ps⟩
      · rw [List.nil_append]
        split
        next r ps hrun => exact absurd hrun (pieces_ne_run h r ps)
        next => rfl
      · rfl
      · rfl
    · rw [if_neg hc, if_neg hc]
      rfl

/-- Of blanks nothing is left, if they are marks that are not looked at. -/
lemma filterMap_pieces_blank {α : Type} {f : Piece → Option α}
    (hkeep : ∀ c, isBlank c = true → keep c = false)
    (hf : ∀ c, isBlank c = true → f (.mark c) = none) (h : ∀ c ∈ cs, isBlank c = true) :
    (pieces keep cs).filterMap f = [] := by
  induction cs with
  | nil => rfl
  | cons c cs ih =>
    obtain ⟨hc, hcs⟩ := List.forall_mem_cons.1 h
    rw [pieces_mark (hkeep c hc), List.filterMap_cons, hf c hc]
    exact ih hcs

/-- Blanks after a text do not matter to what is made of its pieces. -/
lemma filterMap_pieces_append {α : Type} {f : Piece → Option α}
    (hkeep : ∀ c, isBlank c = true → keep c = false)
    (hf : ∀ c, isBlank c = true → f (.mark c) = none) (cs : List Char)
    (h : ∀ c ∈ trail, isBlank c = true) :
    (pieces keep (cs ++ trail)).filterMap f = (pieces keep cs).filterMap f := by
  rw [pieces_append cs fun c hc => hkeep c (h c (List.mem_of_mem_head? hc)), List.filterMap_append,
    filterMap_pieces_blank hkeep hf h, List.append_nil]

lemma words_blank_append (h : ∀ c ∈ lead, isBlank c = true) (cs : List Char) :
    words (lead ++ cs) = words cs := by
  induction lead with
  | nil => rfl
  | cons c lead ih =>
    obtain ⟨hc, hlead⟩ := List.forall_mem_cons.1 h
    rw [List.cons_append, words_blank hc, ih hlead]

lemma words_append_blank (cs : List Char) (h : ∀ c ∈ trail, isBlank c = true) :
    words (cs ++ trail) = words cs :=
  filterMap_pieces_append (fun c hc => by simp [hc]) (fun _ _ => rfl) cs h

/-! ## Trimming -/

lemma trimEnd_append_blank (cs : List Char) (h : ∀ c ∈ trail, isBlank c = true) :
    trimEnd (cs ++ trail) = trimEnd cs := by
  rw [trimEnd, trimEnd, List.reverse_append, List.dropWhile_append_of_pos]
  exact fun c hc => h c (List.mem_reverse.1 hc)

/-- Nothing is trimmed off before a character that is no blank. -/
lemma trimEnd_append (hne : cs ≠ []) (h : ∀ c ∈ cs, isBlank c = false) (pre rest : List Char) :
    trimEnd (pre ++ (cs ++ rest)) = pre ++ (cs ++ trimEnd rest) := by
  have hkeep : (cs.reverse ++ pre.reverse).dropWhile isBlank = cs.reverse ++ pre.reverse := by
    obtain ⟨c, more, hcs⟩ := List.exists_cons_of_ne_nil (List.reverse_ne_nil_iff.2 hne)
    have hc : isBlank c = false := h c (List.mem_reverse.1 (hcs ▸ List.mem_cons_self ..))
    rw [hcs, List.cons_append, List.dropWhile_cons_of_neg (by simp [hc])]
  rw [trimEnd, trimEnd, List.reverse_append, List.reverse_append, List.append_assoc,
    List.dropWhile_append, hkeep]
  split
  next hempty => simp [List.isEmpty_iff.1 hempty]
  next => simp

/-- What is trimmed off a text are blanks. -/
lemma exists_eq_trimEnd (cs : List Char) :
    ∃ trail, cs = trimEnd cs ++ trail ∧ ∀ c ∈ trail, isBlank c = true := by
  refine ⟨(cs.reverse.takeWhile isBlank).reverse, ?_, fun c hc =>
    List.mem_takeWhile_imp (List.mem_reverse.1 hc)⟩
  rw [trimEnd, ← List.reverse_append, List.takeWhile_append_dropWhile, List.reverse_reverse]

lemma words_trimEnd (cs : List Char) : words (trimEnd cs) = words cs := by
  obtain ⟨trail, hcs, htrail⟩ := exists_eq_trimEnd cs
  conv_rhs => rw [hcs, words_append_blank _ htrail]

lemma trim_blank_append (h : ∀ c ∈ lead, isBlank c = true) (cs : List Char) :
    trim (lead ++ cs) = trim cs := by
  rw [trim, trim, List.dropWhile_append_of_pos h]

lemma trim_append_blank (cs : List Char) (h : ∀ c ∈ trail, isBlank c = true) :
    trim (cs ++ trail) = trim cs := by
  rw [trim, trim, List.dropWhile_append]
  split
  next hempty =>
    have hnone : trail.dropWhile isBlank = [] := List.dropWhile_eq_nil_iff.2 h
    rw [hnone, List.isEmpty_iff.1 hempty]
  next => exact trimEnd_append_blank _ h

/-- A text is what is left when it is trimmed, with the blanks at its beginning before it and blanks
after it. -/
lemma exists_eq_trim (cs : List Char) :
    ∃ trail, cs = cs.takeWhile isBlank ++ (trim cs ++ trail) ∧ ∀ c ∈ trail, isBlank c = true := by
  obtain ⟨trail, hrest, htrail⟩ := exists_eq_trimEnd (cs.dropWhile isBlank)
  refine ⟨trail, ?_, htrail⟩
  rw [trim, ← hrest, List.takeWhile_append_dropWhile]

lemma trim_eq_nil_iff : trim cs = [] ↔ ∀ c ∈ cs, isBlank c = true := by
  constructor
  · intro h
    obtain ⟨trail, hcs, htrail⟩ := exists_eq_trim cs
    rw [h, List.nil_append] at hcs
    rw [hcs]
    exact List.forall_mem_append.2 ⟨fun c hc => List.mem_takeWhile_imp hc, htrail⟩
  · intro h
    rw [trim, List.dropWhile_eq_nil_iff.2 h]
    rfl

/-! ## Lines -/

/-- A line ends at the first line feed. -/
lemma exists_lines_append_feed {l : List Char} (h : '\n' ∉ l) (cs : List Char) :
    ∃ line, lines (l ++ '\n' :: cs) = line :: lines cs ∧ (l = line ∨ l = line ++ ['\r']) := by
  induction l with
  | nil => exact ⟨[], by simp [lines], Or.inl rfl⟩
  | cons c l ih =>
    have hc : c ≠ '\n' := fun heq => h (heq ▸ List.mem_cons_self ..)
    have hl : '\n' ∉ l := fun hmem => h (List.mem_cons_of_mem c hmem)
    obtain ⟨line, hline, hends⟩ := ih hl
    rw [List.cons_append, lines, if_neg hc, hline]
    by_cases hreturn : c = '\r' ∧ (l ++ '\n' :: cs).head? = some '\n'
    · obtain ⟨rfl, hhead⟩ := hreturn
      have hnil : l = [] := by
        cases l with
        | nil => rfl
        | cons d l =>
          rw [List.cons_append, List.head?_cons, Option.some.injEq] at hhead
          exact absurd (hhead ▸ List.mem_cons_self ..) hl
      subst hnil
      have hempty : line = [] := by
        rcases hends with heq | heq
        · exact heq.symm
        · simp at heq
      rw [if_pos ⟨rfl, hhead⟩, hempty]
      exact ⟨[], rfl, Or.inr rfl⟩
    · rw [if_neg hreturn]
      refine ⟨c :: line, rfl, ?_⟩
      rcases hends with rfl | rfl
      · exact Or.inl rfl
      · exact Or.inr rfl

/-- A text without a line feed is one line, if it is not empty. -/
lemma lines_of_not_mem {l : List Char} (hne : l ≠ []) (h : '\n' ∉ l) : lines l = [l] := by
  induction l with
  | nil => exact absurd rfl hne
  | cons c l ih =>
    have hc : c ≠ '\n' := fun heq => h (heq ▸ List.mem_cons_self ..)
    have hl : '\n' ∉ l := fun hmem => h (List.mem_cons_of_mem c hmem)
    have hhead : ¬ (c = '\r' ∧ l.head? = some '\n') := fun hreturn =>
      hl (List.mem_of_mem_head? hreturn.2)
    rw [lines, if_neg hc, if_neg hhead]
    by_cases hnil : l = []
    · rw [hnil]
      rfl
    · rw [ih hnil hl]

end Text

namespace Condition.Token

variable {lead trail : List Char}

lemma scan_blank_append (h : ∀ c ∈ lead, Text.isBlank c = true) (cs : List Char) :
    scan (lead ++ cs) = scan cs := by
  induction lead with
  | nil => rfl
  | cons c lead ih =>
    obtain ⟨hc, hlead⟩ := List.forall_mem_cons.1 h
    rw [List.cons_append, scan_blank hc, ih hlead]

lemma scan_append_blank (cs : List Char) (h : ∀ c ∈ trail, Text.isBlank c = true) :
    scan (cs ++ trail) = scan cs :=
  Text.filterMap_pieces_append (fun c hc => by simp [isWordPart, hc])
    (fun _ hc => ofBracket?_of_isBlank hc) cs h

end Condition.Token
end StripAutomata
