import Mathlib.Tactic.Common
import StripAutomata.Condition.Token
import StripAutomata.Text.Line
import StripAutomata.Text.WordChar

/-!
# Cutting text that was put together

Written text is put together from words, units and lines with a separator between them.  This
module says that cutting gives the parts back: `words_intercalate` for words between spaces,
`lines_intercalate` for lines, and the `scan` lemmas for the units of a condition, one at a time.

What makes the cut unique is which characters a part may hold.  A word character is neither a blank
nor one of the marks of rule text, so a name can never be cut in two.
-/

namespace StripAutomata

namespace Text

/-! ## Classes of characters -/

/-- A blank does not go on with a name. -/
lemma isWordChar_of_isBlank {c : Char} (h : isBlank c = true) : isWordChar c = false := by
  have hmem : c.toNat ∈ [0x9, 0xA, 0xB, 0xC, 0xD, 0x20, 0x85, 0xA0, 0x1680, 0x2000, 0x2001, 0x2002,
      0x2003, 0x2004, 0x2005, 0x2006, 0x2007, 0x2008, 0x2009, 0x200A, 0x2028, 0x2029, 0x202F,
      0x205F, 0x3000] := by
    simp only [isBlank, Bool.or_eq_true, Bool.and_eq_true, decide_eq_true_eq, beq_iff_eq] at h
    simp only [List.mem_cons, List.not_mem_nil, or_false]
    omega
  rw [← Char.ofNat_toNat c]
  revert hmem
  generalize c.toNat = n
  revert n
  -- The class of word characters is a table, so the few blanks are looked up in it.
  decide +kernel

lemma isBlank_space : isBlank ' ' = true := by decide

lemma isBlank_of_isWordChar {c : Char} (h : isWordChar c = true) : isBlank c = false := by
  by_contra hb
  rw [Bool.not_eq_false] at hb
  rw [isWordChar_of_isBlank hb] at h
  exact Bool.false_ne_true h

lemma toNat_of_isDigit {c : Char} (h : c.isDigit = true) : 48 ≤ c.toNat ∧ c.toNat ≤ 57 := by
  simp only [Char.isDigit, Bool.and_eq_true, decide_eq_true_eq, UInt32.le_iff_toNat_le] at h
  exact h

lemma isWordChar_of_isDigit {c : Char} (h : c.isDigit = true) : isWordChar c = true := by
  have hc := toNat_of_isDigit h
  rw [isWordChar, if_pos (by omega)]
  simp [Char.isAlphanum, h]

/-- The first character of a name is a letter of ASCII or an underscore. -/
lemma toNat_of_isNameStart {c : Char} (h : isNameStart c = true) :
    65 ≤ c.toNat ∧ c.toNat ≤ 90 ∨ 97 ≤ c.toNat ∧ c.toNat ≤ 122 ∨ c.toNat = 95 := by
  have hletter : (decide (65 ≤ c.val ∧ c.val ≤ 90) ||
      (decide (97 ≤ c.val) && decide (c.val ≤ 122)) || c == '_') = true := h
  simp only [Bool.or_eq_true, Bool.and_eq_true, decide_eq_true_eq, UInt32.le_iff_toNat_le,
    beq_iff_eq] at hletter
  rcases hletter with (h | h) | rfl
  · exact Or.inl h
  · exact Or.inr (Or.inl h)
  · exact Or.inr (Or.inr rfl)

lemma isWordChar_of_isNameStart {c : Char} (h : isNameStart c = true) : isWordChar c = true := by
  have hc := toNat_of_isNameStart h
  rw [isWordChar, if_pos (by omega)]
  simp only [isNameStart, Bool.or_eq_true] at h
  rcases h with h | h
  · simp [Char.isAlphanum, h]
  · simp [h]

/-- The first character of a name is no digit. -/
lemma isDecimalDigit_of_isNameStart {c : Char} (h : isNameStart c = true) :
    isDecimalDigit c = false := by
  have hc := toNat_of_isNameStart h
  rw [isDecimalDigit, if_pos (by omega)]
  by_contra hd
  rw [Bool.not_eq_false] at hd
  have hdigit := toNat_of_isDigit hd
  omega

/-! ## Pieces -/

lemma pieces_mark {keep : Char → Bool} {c : Char} (h : keep c = false) (cs : List Char) :
    pieces keep (c :: cs) = .mark c :: pieces keep cs := by
  simp [pieces, h]

/-- Text that does not begin with a character of a run begins with no run. -/
lemma pieces_ne_run {keep : Char → Bool} {cs : List Char} (h : ∀ c ∈ cs.head?, keep c = false)
    (r : List Char) (ps : List Piece) : pieces keep cs ≠ .run r :: ps := by
  cases cs with
  | nil => simp [pieces]
  | cons c cs => simp [pieces, h c rfl]

/-- A run ends where the text after it does not go on with one. -/
lemma pieces_run_append {keep : Char → Bool} {r rest : List Char} (hr : r ≠ [])
    (hkeep : ∀ c ∈ r, keep c = true) (hrest : ∀ c ∈ rest.head?, keep c = false) :
    pieces keep (r ++ rest) = .run r :: pieces keep rest := by
  induction r with
  | nil => exact absurd rfl hr
  | cons c cs ih =>
    have hc : keep c = true := hkeep c (List.mem_cons_self ..)
    by_cases hcs : cs = []
    · subst hcs
      simp only [List.cons_append, List.nil_append, pieces, hc, if_true]
      split
      next r ps h => exact absurd h (pieces_ne_run hrest r ps)
      next => rfl
    · have htail := ih hcs fun d hd => hkeep d (List.mem_cons_of_mem _ hd)
      simp [pieces, hc, htail]

/-! ## Words -/

/-- What holds of the separator and of the parts holds of what is put together from them. -/
lemma forall_mem_intercalate {p : Char → Prop} {sep : List Char} {parts : List (List Char)}
    (hsep : ∀ c ∈ sep, p c) (hparts : ∀ part ∈ parts, ∀ c ∈ part, p c) :
    ∀ c ∈ sep.intercalate parts, p c := by
  induction parts with
  | nil => exact List.forall_mem_nil _
  | cons part parts ih =>
    obtain ⟨hpart, hrest⟩ := List.forall_mem_cons.1 hparts
    cases parts with
    | nil => rwa [List.intercalate_singleton]
    | cons next more =>
      rw [List.intercalate_cons_cons]
      exact List.forall_mem_append.2 ⟨List.forall_mem_append.2 ⟨hpart, hsep⟩, ih hrest⟩

lemma words_blank {c : Char} (h : isBlank c = true) (cs : List Char) :
    words (c :: cs) = words cs := by
  rw [words, runs, pieces_mark (by simp [h])]
  rfl

lemma words_eq_nil {cs : List Char} (h : ∀ c ∈ cs, isBlank c = true) : words cs = [] := by
  induction cs with
  | nil => rfl
  | cons c cs ih =>
    obtain ⟨hc, hcs⟩ := List.forall_mem_cons.1 h
    rw [words_blank hc, ih hcs]

lemma words_append {w rest : List Char} (hw : w ≠ []) (hblank : ∀ c ∈ w, isBlank c = false)
    (hrest : ∀ c ∈ rest.head?, isBlank c = true) : words (w ++ rest) = w :: words rest := by
  rw [words, runs, pieces_run_append hw (fun c hc => by simp [hblank c hc])
    (fun c hc => by simp [hrest c hc])]
  rfl

lemma words_eq_nil_iff {cs : List Char} : words cs = [] ↔ ∀ c ∈ cs, isBlank c = true := by
  refine ⟨fun h => ?_, words_eq_nil⟩
  induction cs with
  | nil => exact List.forall_mem_nil _
  | cons c cs ih =>
    by_cases hc : isBlank c = true
    · rw [words_blank hc] at h
      exact List.forall_mem_cons.2 ⟨hc, ih h⟩
    · -- The first character goes on with a word, or is a word by itself.
      rw [words, runs, pieces, if_pos (by simpa using hc)] at h
      split at h <;> simp [Piece.run?] at h

/-- Words put together with spaces are the words of the text. -/
theorem words_intercalate {ws : List (List Char)}
    (h : ∀ w ∈ ws, w ≠ [] ∧ ∀ c ∈ w, isBlank c = false) : words ([' '].intercalate ws) = ws := by
  induction ws with
  | nil => rfl
  | cons w ws ih =>
    obtain ⟨hne, hblank⟩ := h w (List.mem_cons_self ..)
    have htail := ih fun v hv => h v (List.mem_cons_of_mem _ hv)
    cases ws with
    | nil =>
      have hw : words (w ++ []) = w :: words [] := words_append hne hblank (by simp)
      rw [List.append_nil] at hw
      rw [List.intercalate_singleton, hw]
      rfl
    | cons v vs =>
      rw [List.intercalate_cons_cons, List.append_assoc,
        words_append hne hblank (by simp [isBlank_space]), List.singleton_append,
        words_blank isBlank_space, htail]

/-! ## Lines -/

/-- The characters that end a line, or may. -/
def isEnding (c : Char) : Bool := c == '\n' || c == '\r'

/-- What ends a line is a blank. -/
lemma isEnding_of_isBlank_eq_false {c : Char} (h : isBlank c = false) : isEnding c = false := by
  rw [isEnding, Bool.or_eq_false_iff, beq_eq_false_iff_ne, beq_eq_false_iff_ne]
  constructor <;> rintro rfl <;> exact absurd h (by decide)

lemma lines_cons {c : Char} (h : isEnding c = false) (cs : List Char) :
    lines (c :: cs) =
      match lines cs with
      | [] => [[c]]
      | l :: ls => (c :: l) :: ls := by
  simp only [isEnding, Bool.or_eq_false_iff, beq_eq_false_iff_ne] at h
  exact (if_neg h.1).trans (if_neg fun hr => h.2 hr.1)

lemma lines_append_feed {l : List Char} (h : ∀ c ∈ l, isEnding c = false) (cs : List Char) :
    lines (l ++ '\n' :: cs) = l :: lines cs := by
  induction l with
  | nil => simp [lines]
  | cons c l ih =>
    rw [List.cons_append, lines_cons (h c (List.mem_cons_self ..)),
      ih fun d hd => h d (List.mem_cons_of_mem _ hd)]

/-- Lines that each have a line feed after them are the lines of the text. -/
lemma lines_flatMap_feed {ls : List (List Char)} (h : ∀ l ∈ ls, ∀ c ∈ l, isEnding c = false) :
    lines (ls.flatMap (· ++ ['\n'])) = ls := by
  induction ls with
  | nil => rfl
  | cons l ls ih =>
    obtain ⟨hl, hls⟩ := List.forall_mem_cons.1 h
    rw [List.flatMap_cons, List.append_assoc, List.singleton_append, lines_append_feed hl, ih hls]

lemma lines_singleton {l : List Char} (hne : l ≠ []) (h : ∀ c ∈ l, isEnding c = false) :
    lines l = [l] := by
  induction l with
  | nil => exact absurd rfl hne
  | cons c l ih =>
    rw [lines_cons (h c (List.mem_cons_self ..))]
    by_cases hl : l = []
    · subst hl
      rfl
    · rw [ih hl fun d hd => h d (List.mem_cons_of_mem _ hd)]

/-- A line feed ends the lines before it, so the text after it has lines of its own. -/
lemma lines_append_of_feed (pre post : List Char) :
    lines (pre ++ '\n' :: post) = lines (pre ++ ['\n']) ++ lines post := by
  induction pre with
  | nil => simp [lines]
  | cons c pre ih =>
    have hhead : (pre ++ '\n' :: post).head? = (pre ++ ['\n']).head? := by cases pre <;> rfl
    have hne : lines (pre ++ ['\n']) ≠ [] := fun h => by simpa using lines_eq_nil_iff.1 h
    obtain ⟨l, ls, hlines⟩ := List.exists_cons_of_ne_nil hne
    rw [List.cons_append, List.cons_append, lines, lines, hhead, ih, hlines]
    by_cases hfeed : c = '\n'
    · rw [if_pos hfeed, if_pos hfeed]
      rfl
    · rw [if_neg hfeed, if_neg hfeed]
      by_cases hreturn : c = '\r' ∧ (pre ++ ['\n']).head? = some '\n'
      · rw [if_pos hreturn, if_pos hreturn]
      · rw [if_neg hreturn, if_neg hreturn]
        rfl

/-- Lines put together with line feeds are the lines of the text. -/
theorem lines_intercalate {ls : List (List Char)}
    (h : ∀ l ∈ ls, l ≠ [] ∧ ∀ c ∈ l, isEnding c = false) : lines (['\n'].intercalate ls) = ls := by
  induction ls with
  | nil => rfl
  | cons l ls ih =>
    obtain ⟨hne, hending⟩ := h l (List.mem_cons_self ..)
    have htail := ih fun v hv => h v (List.mem_cons_of_mem _ hv)
    cases ls with
    | nil => rw [List.intercalate_singleton, lines_singleton hne hending]
    | cons k ks =>
      rw [List.intercalate_cons_cons, List.append_assoc, List.singleton_append,
        lines_append_feed hending, htail]

end Text

/-! ## The units of a condition -/

namespace Condition

lemma isWordPart_of_isWordChar {c : Char} (h : Text.isWordChar c = true) :
    isWordPart c = true := by
  have hb := Text.isBlank_of_isWordChar h
  simp only [isWordPart, hb, Bool.false_or, Bool.not_eq_true', Bool.or_eq_false_iff,
    beq_eq_false_iff_ne]
  refine ⟨⟨⟨?_, ?_⟩, ?_⟩, ?_⟩ <;> rintro rfl <;> exact absurd h (by decide)

lemma isBlank_of_isWordPart {c : Char} (h : isWordPart c = true) : Text.isBlank c = false := by
  simp only [isWordPart, Bool.not_eq_true', Bool.or_eq_false_iff] at h
  exact h.1.1.1.1

namespace Token

lemma ofBracket?_of_isBlank {c : Char} (h : Text.isBlank c = true) : ofBracket? c = none := by
  unfold ofBracket?
  split <;> first | rfl | exact absurd h (by decide)

lemma scan_blank {c : Char} (h : Text.isBlank c = true) (cs : List Char) :
    scan (c :: cs) = scan cs := by
  have hpart : isWordPart c = false := by simp [isWordPart, h]
  rw [scan, Text.pieces_mark hpart, List.filterMap_cons, ofPiece?, ofBracket?_of_isBlank h]
  rfl

/-- A bracket is a unit by itself. -/
lemma scan_bracket {c : Char} {t : Token} (h : ofBracket? c = some t) (cs : List Char) :
    scan (c :: cs) = t :: scan cs := by
  have hpart : isWordPart c = false := by
    unfold ofBracket? at h
    split at h <;> first | rfl | cases h
  rw [scan, Text.pieces_mark hpart, List.filterMap_cons, ofPiece?, h]
  rfl

lemma ofBracket?_opening (b : Bracket) : ofBracket? b.opening = some (opening b) := by
  cases b <;> rfl

lemma ofBracket?_closing (b : Bracket) : ofBracket? b.closing = some (closing b) := by
  cases b <;> rfl

lemma scan_opening (b : Bracket) (cs : List Char) :
    scan (b.opening :: cs) = .opening b :: scan cs :=
  scan_bracket (ofBracket?_opening b) cs

lemma scan_closing (b : Bracket) (cs : List Char) :
    scan (b.closing :: cs) = .closing b :: scan cs :=
  scan_bracket (ofBracket?_closing b) cs

/-- A word ends where the text after it does not go on with one. -/
lemma scan_word {w rest : List Char} (hw : w ≠ []) (hpart : ∀ c ∈ w, isWordPart c = true)
    (hrest : ∀ c ∈ rest.head?, isWordPart c = false) :
    scan (w ++ rest) = .word (String.ofList w) :: scan rest := by
  rw [scan, Text.pieces_run_append hw hpart hrest, List.filterMap_cons]
  rfl

end Token
end Condition
end StripAutomata
