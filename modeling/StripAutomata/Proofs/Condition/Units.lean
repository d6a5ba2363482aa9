import Mathlib.Data.List.Basic
import StripAutomata.Proofs.Text.Blanks

/-!
# The units of a text

Cutting a condition into units loses nothing of the text but its blanks, and makes nothing up.  The
other way around, `LaidOut` tells how a text is put together from units: blanks stand anywhere but
inside a word, and no word stands directly before another one.  A text is laid out from its own
units and from no others (`scan_eq_iff`).

A unit has its place in the text: the units before it are those of the text before it, and the units
after it are those of the text after it (`scan_eq_append_iff`).  At the place of a word, the word is
as long as it can be (`WordBetween`).  Since a bracket is cut off from whatever stands beside it,
blanks there do not matter (`Respaced`).
-/

namespace StripAutomata.Condition

variable {c : Char} {cs pre post rest w : List Char} {t : Token} {ts before after : List Token}

/-! ## What separates words -/

/-- The characters that are brackets. -/
def brackets : List Char := ['(', ')', '[', ']']

/-- Whether a character separates words: it is a blank or a bracket. -/
def Separates (c : Char) : Prop := Text.isBlank c = true ∨ c ∈ brackets

lemma isWordPart_eq_false_iff : isWordPart c = false ↔ Separates c := by
  simp only [isWordPart, Separates, brackets, Bool.not_eq_false', Bool.or_eq_true, beq_iff_eq,
    List.mem_cons, List.not_mem_nil, or_false, or_assoc]

lemma isWordPart_iff : isWordPart c = true ↔ ¬ Separates c := by
  rw [← isWordPart_eq_false_iff, Bool.not_eq_false]

lemma separates_of_isBlank (h : Text.isBlank c = true) : Separates c := Or.inl h

lemma mem_brackets_iff : c ∈ brackets ↔ ∃ t, Token.ofBracket? c = some t := by
  unfold Token.ofBracket?
  split <;> simp_all [brackets]

lemma separates_of_ofBracket? (h : Token.ofBracket? c = some t) : Separates c :=
  Or.inr (mem_brackets_iff.2 ⟨t, h⟩)

/-- A bracket is no blank. -/
lemma isBlank_of_mem_brackets (h : c ∈ brackets) : Text.isBlank c = false := by
  simp only [brackets, List.mem_cons, List.not_mem_nil, or_false] at h
  rcases h with rfl | rfl | rfl | rfl <;> decide

/-- A stretch of characters that are neither blanks nor brackets, which does not go on in the text
before or after it. -/
structure WordBetween (pre w post : List Char) : Prop where
  ne_nil : w ≠ []
  unseparated : ∀ c ∈ w, ¬ Separates c
  before : ∀ c ∈ pre.getLast?, Separates c
  after : ∀ c ∈ post.head?, Separates c

namespace Token

/-- The unit of a bracket has that character only. -/
lemma characters_of_ofBracket? (h : ofBracket? c = some t) : t.characters = [c] := by
  unfold ofBracket? at h
  split at h <;> cases h <;> rfl

/-! ## Cutting a text in two -/

/-- The units of two texts are found apart if the second one does not go on with a word. -/
lemma scan_append (cs : List Char) (h : ∀ c ∈ rest.head?, Separates c) :
    scan (cs ++ rest) = scan cs ++ scan rest := by
  rw [scan, Text.pieces_append cs fun c hc => isWordPart_eq_false_iff.2 (h c hc),
    List.filterMap_append]
  rfl

/-- The units on both sides of a bracket are found apart. -/
lemma scan_append_bracket (h : ofBracket? c = some t) (pre post : List Char) :
    scan (pre ++ c :: post) = scan pre ++ t :: scan post := by
  have hc : Separates c := separates_of_ofBracket? h
  rw [scan_append pre (by simpa using hc), scan_bracket h]

lemma scan_append_of_getLast (h : ∀ c ∈ pre.getLast?, Separates c) (cs : List Char) :
    scan (pre ++ cs) = scan pre ++ scan cs := by
  rcases pre.eq_nil_or_concat' with rfl | ⟨init, c, rfl⟩
  · rfl
  · have hc : Separates c := h c (by simp)
    -- The last character is a unit or a blank, whatever follows it.
    have hcut : scan (c :: cs) = scan [c] ++ scan cs := by
      rcases hc with hblank | hbracket
      · rw [scan_blank hblank, scan_blank hblank]
        rfl
      · obtain ⟨t, ht⟩ := mem_brackets_iff.1 hbracket
        rw [scan_bracket ht, scan_bracket ht]
        rfl
    rw [List.append_assoc, List.singleton_append, scan_append init (by simpa using hc), hcut,
      scan_append init (by simpa using hc), List.append_assoc]

end Token

/-! ## Layouts -/

/-- Whether a text is put together from units, with blanks between them where words would meet. -/
inductive LaidOut : List Token → List Char → Prop
  | nil : LaidOut [] []
  | blank {ts : List Token} {c : Char} {cs : List Char} : Text.isBlank c = true → LaidOut ts cs →
    LaidOut ts (c :: cs)
  | bracket {t : Token} {ts : List Token} {c : Char} {cs : List Char} :
    Token.ofBracket? c = some t → LaidOut ts cs → LaidOut (t :: ts) (c :: cs)
  | word {w : List Char} {ts : List Token} {cs : List Char} : w ≠ [] → (∀ c ∈ w, ¬ Separates c) →
    (∀ c ∈ cs.head?, Separates c) → LaidOut ts cs →
    LaidOut (.word (String.ofList w) :: ts) (w ++ cs)

namespace LaidOut

/-- The units of a text are those that it is laid out from. -/
lemma scan_eq (h : LaidOut ts cs) : Token.scan cs = ts := by
  induction h with
  | nil => rfl
  | blank hc _ ih => rw [Token.scan_blank hc, ih]
  | bracket hc _ ih => rw [Token.scan_bracket hc, ih]
  | word hne hw hrest _ ih =>
    rw [Token.scan_word hne (fun c hc => isWordPart_iff.2 (hw c hc))
      fun c hc => isWordPart_eq_false_iff.2 (hrest c hc), ih]

lemma exists_laidOut (cs : List Char) : ∃ ts, LaidOut ts cs := by
  induction cs with
  | nil => exact ⟨[], .nil⟩
  | cons c cs ih =>
    obtain ⟨ts, h⟩ := ih
    by_cases hblank : Text.isBlank c = true
    · exact ⟨ts, .blank hblank h⟩
    by_cases hbracket : c ∈ brackets
    · obtain ⟨t, ht⟩ := mem_brackets_iff.1 hbracket
      exact ⟨t :: ts, .bracket ht h⟩
    -- The character begins the word that the rest begins with, or is a word by itself.
    have hc : ¬ Separates c := not_or.2 ⟨hblank, hbracket⟩
    have hword : ∀ d ∈ [c], ¬ Separates d := by simpa using hc
    cases h with
    | nil => exact ⟨_, .word (List.cons_ne_nil c []) hword (by simp) .nil⟩
    | blank hd h =>
      have hseparates := separates_of_isBlank hd
      exact ⟨_, .word (List.cons_ne_nil c []) hword (by simpa using hseparates) (.blank hd h)⟩
    | bracket hd h =>
      have hseparates := separates_of_ofBracket? hd
      exact ⟨_, .word (List.cons_ne_nil c []) hword (by simpa using hseparates) (.bracket hd h)⟩
    | word _ hw hrest h =>
      exact ⟨_, .word (List.cons_ne_nil c _) (List.forall_mem_cons.2 ⟨hc, hw⟩) hrest h⟩

/-- The characters of the units are those of the text that are no blanks. -/
lemma flatMap_characters (h : LaidOut ts cs) :
    ts.flatMap Token.characters = cs.filter fun c => !Text.isBlank c := by
  induction h with
  | nil => rfl
  | blank hc _ ih => rw [List.filter_cons_of_neg (by simp [hc]), ih]
  | bracket hc _ ih =>
    have hblank := isBlank_of_mem_brackets (mem_brackets_iff.2 ⟨_, hc⟩)
    rw [List.flatMap_cons, Token.characters_of_ofBracket? hc, ih,
      List.filter_cons_of_pos (by simp [hblank]), List.singleton_append]
  | @word w _ _ _ hw _ _ ih =>
    have hkept : w.filter (fun c => !Text.isBlank c) = w := by
      refine List.filter_eq_self.2 fun c hc => ?_
      simp [isBlank_of_isWordPart (isWordPart_iff.2 (hw c hc))]
    rw [List.flatMap_cons, ih, List.filter_append, hkept, Token.characters, String.toList_ofList]

end LaidOut

/-- **A text is laid out from its units, and from no others.** -/
theorem scan_eq_iff : Token.scan cs = ts ↔ LaidOut ts cs := by
  refine ⟨?_, LaidOut.scan_eq⟩
  rintro rfl
  obtain ⟨ts, h⟩ := LaidOut.exists_laidOut cs
  rwa [h.scan_eq]

/-! ## The place of a unit -/

/-- A word is as long as it can be with more text to the left, too, unless it would stand directly
after a word there. -/
lemma WordBetween.append_left {more : List Char} (h : WordBetween pre w post)
    (hmore : pre = [] → ∀ c ∈ more.getLast?, Separates c) : WordBetween (more ++ pre) w post := by
  refine ⟨h.ne_nil, h.unseparated, ?_, h.after⟩
  by_cases hpre : pre = []
  · subst hpre
    rw [List.append_nil]
    exact hmore rfl
  · rw [List.getLast?_append_of_ne_nil _ hpre]
    exact h.before

namespace Token

/-- Whether a unit may stand between two texts: a word must not go on in them. -/
def Between : Token → List Char → List Char → Prop
  | word w, pre, post => WordBetween pre w.toList post
  | _, _, _ => True

lemma between_of_ofBracket? (h : ofBracket? c = some t) : t.Between pre post := by
  unfold ofBracket? at h
  split at h <;> cases h <;> trivial

lemma Between.append_left {more : List Char} (h : t.Between pre post)
    (hmore : ∀ w, t = word w → pre = [] → ∀ c ∈ more.getLast?, Separates c) :
    t.Between (more ++ pre) post := by
  cases t with
  | word w => exact WordBetween.append_left h (hmore w rfl)
  | _ => trivial

end Token

/-- A unit of a layout has its characters in the text, and the units before and after it are laid
out on their sides. -/
lemma LaidOut.exists_place (h : LaidOut ts cs) (hts : ts = before ++ t :: after) :
    ∃ pre post, cs = pre ++ (t.characters ++ post) ∧ t.Between pre post ∧ LaidOut before pre ∧
      LaidOut after post := by
  induction h generalizing before with
  | nil => simp at hts
  | @blank _ c _ hc _ ih =>
    obtain ⟨pre, post, rfl, hbetween, hbefore, hafter⟩ := ih hts
    refine ⟨[c] ++ pre, post, rfl, hbetween.append_left fun _ _ _ => ?_, .blank hc hbefore, hafter⟩
    simpa using separates_of_isBlank hc
  | @bracket u _ c cs hc h ih =>
    cases before with
    | nil =>
      obtain ⟨rfl, rfl⟩ := List.cons.inj hts
      refine ⟨[], cs, ?_, Token.between_of_ofBracket? hc, .nil, h⟩
      rw [Token.characters_of_ofBracket? hc]
      rfl
    | cons v before =>
      obtain ⟨rfl, htail⟩ := List.cons.inj hts
      obtain ⟨pre, post, rfl, hbetween, hbefore, hafter⟩ := ih htail
      refine ⟨[c] ++ pre, post, rfl, hbetween.append_left fun _ _ _ => ?_, .bracket hc hbefore,
        hafter⟩
      simpa using separates_of_ofBracket? hc
  | @word w _ cs hne hw hrest h ih =>
    cases before with
    | nil =>
      obtain ⟨rfl, rfl⟩ := List.cons.inj hts
      refine ⟨[], cs, ?_, ?_, .nil, h⟩
      · rw [Token.characters, String.toList_ofList]
        rfl
      · show WordBetween [] (String.ofList w).toList cs
        rw [String.toList_ofList]
        exact ⟨hne, hw, by simp, hrest⟩
    | cons v before =>
      obtain ⟨rfl, htail⟩ := List.cons.inj hts
      obtain ⟨pre, post, rfl, hbetween, hbefore, hafter⟩ := ih htail
      refine ⟨w ++ pre, post, (List.append_assoc ..).symm, hbetween.append_left ?_,
        .word hne hw (fun c hc => hrest c (List.mem_head?_append_of_mem_head? hc)) hbefore, hafter⟩
      -- Two words do not meet, so there is something between them.
      rintro u rfl rfl
      obtain ⟨c, more, hu⟩ := List.exists_cons_of_ne_nil hbetween.ne_nil
      have hc : c ∈ ([] ++ ((Token.word u).characters ++ post)).head? := by
        simp [Token.characters, hu]
      exact absurd (hrest c hc) (hbetween.unseparated c (hu ▸ List.mem_cons_self ..))

/-- **The units stand where their characters stand.** -/
theorem scan_eq_append_iff : Token.scan cs = before ++ t :: after ↔ ∃ pre post,
    cs = pre ++ (t.characters ++ post) ∧ t.Between pre post ∧ Token.scan pre = before ∧
      Token.scan post = after := by
  constructor
  · intro h
    obtain ⟨pre, post, hcs, hbetween, hbefore, hafter⟩ := (scan_eq_iff.1 h).exists_place rfl
    exact ⟨pre, post, hcs, hbetween, hbefore.scan_eq, hafter.scan_eq⟩
  · rintro ⟨pre, post, rfl, hbetween, rfl, rfl⟩
    cases t with
    | opening b => exact Token.scan_append_bracket (Token.ofBracket?_opening b) pre post
    | closing b => exact Token.scan_append_bracket (Token.ofBracket?_closing b) pre post
    | word w =>
      have hpart : ∀ c ∈ w.toList, isWordPart c = true := fun c hc =>
        isWordPart_iff.2 (hbetween.unseparated c hc)
      rw [Token.scan_append_of_getLast hbetween.before, Token.characters,
        Token.scan_word hbetween.ne_nil hpart fun c hc =>
          isWordPart_eq_false_iff.2 (hbetween.after c hc), String.ofList_toList]

/-! ## Blanks between units -/

namespace Token

lemma Between.alone (h : t.Between pre post) : t.Between [] [] := by
  cases t with
  | word w => exact ⟨WordBetween.ne_nil h, WordBetween.unseparated h, by simp, by simp⟩
  | _ => trivial

lemma Between.before_separator (h : t.Between [] []) (hpost : ∀ c ∈ post.head?, Separates c) :
    t.Between [] post := by
  cases t with
  | word w => exact ⟨WordBetween.ne_nil h, WordBetween.unseparated h, by simp, hpost⟩
  | _ => trivial

lemma alone_of_mem_scan (h : t ∈ scan cs) : t.Between [] [] := by
  obtain ⟨before, after, hscan⟩ := List.append_of_mem h
  obtain ⟨_, _, _, hbetween, _, _⟩ := scan_eq_append_iff.1 hscan
  exact hbetween.alone

lemma scan_characters_append (h : t.Between [] post) :
    scan (t.characters ++ post) = t :: scan post := by
  have hscan : scan (t.characters ++ post) = [] ++ t :: scan post :=
    scan_eq_append_iff.2 ⟨[], post, rfl, h, rfl, rfl⟩
  exact hscan

/-- Units with a space between them are the units of the text. -/
lemma scan_intercalate (h : ∀ t ∈ ts, t.Between [] []) :
    scan ([' '].intercalate (ts.map characters)) = ts := by
  induction ts with
  | nil => rfl
  | cons t ts ih =>
    obtain ⟨ht, hts⟩ := List.forall_mem_cons.1 h
    cases ts with
    | nil =>
      have hscan : scan (t.characters ++ []) = [t] := scan_characters_append ht
      rw [List.append_nil] at hscan
      rwa [List.map_cons, List.map_nil, List.intercalate_singleton]
    | cons u ts =>
      have hspace : Separates ' ' := separates_of_isBlank Text.isBlank_space
      rw [List.map_cons, List.map_cons, List.intercalate_cons_cons, List.append_assoc,
        scan_characters_append (ht.before_separator (by simpa using hspace)),
        List.singleton_append, scan_blank Text.isBlank_space, ← List.map_cons, ih hts]

end Token

/-- Whether a text comes from another one by putting blanks beside brackets. -/
inductive Respaced : List Char → List Char → Prop
  | refl (cs : List Char) : Respaced cs cs
  | trans {cs ds es : List Char} : Respaced cs ds → Respaced ds es → Respaced cs es
  | before {c : Char} (pre blanks post : List Char) : c ∈ brackets →
    (∀ b ∈ blanks, Text.isBlank b = true) →
    Respaced (pre ++ c :: post) (pre ++ (blanks ++ c :: post))
  | after {c : Char} (pre blanks post : List Char) : c ∈ brackets →
    (∀ b ∈ blanks, Text.isBlank b = true) →
    Respaced (pre ++ c :: post) (pre ++ c :: (blanks ++ post))

/-- Blanks beside brackets change no units. -/
lemma Respaced.scan_eq {ds : List Char} (h : Respaced cs ds) : Token.scan ds = Token.scan cs := by
  induction h with
  | refl => rfl
  | trans _ _ ihl ihr => rw [ihr, ihl]
  | before pre blanks post hc hblanks =>
    obtain ⟨t, ht⟩ := mem_brackets_iff.1 hc
    rw [← List.append_assoc, Token.scan_append_bracket ht, Token.scan_append_bracket ht,
      Token.scan_append_blank pre hblanks]
  | after pre blanks post hc hblanks =>
    obtain ⟨t, ht⟩ := mem_brackets_iff.1 hc
    rw [Token.scan_append_bracket ht, Token.scan_append_bracket ht,
      Token.scan_blank_append hblanks]

/-- **Nothing is lost of a text but its blanks, and nothing is made up.**

The characters of the units are those of the text that are no blanks.  The words among the units are
the longest stretches of the text without a blank or a bracket, each bracket is a unit, and all of
them stand where they stand in the text.  The units are found again if they are written with a space
between them, and if blanks are put beside brackets in that text or in the given one. -/
theorem scan_faithful (cs : List Char) :
    (Token.scan cs).flatMap Token.characters = cs.filter (fun c => !Text.isBlank c) ∧
    (∀ w before after, Token.scan cs = before ++ .word w :: after ↔ ∃ pre post,
      cs = pre ++ (w.toList ++ post) ∧ WordBetween pre w.toList post ∧ Token.scan pre = before ∧
        Token.scan post = after) ∧
    (∀ b before after, Token.scan cs = before ++ .opening b :: after ↔ ∃ pre post,
      cs = pre ++ b.opening :: post ∧ Token.scan pre = before ∧ Token.scan post = after) ∧
    (∀ b before after, Token.scan cs = before ++ .closing b :: after ↔ ∃ pre post,
      cs = pre ++ b.closing :: post ∧ Token.scan pre = before ∧ Token.scan post = after) ∧
    Token.scan ([' '].intercalate ((Token.scan cs).map Token.characters)) = Token.scan cs ∧
    ∀ text ∈ [cs, [' '].intercalate ((Token.scan cs).map Token.characters)], ∀ respaced,
      Respaced text respaced → Token.scan respaced = Token.scan cs := by
  have hjoined := Token.scan_intercalate fun t (ht : t ∈ Token.scan cs) =>
    Token.alone_of_mem_scan ht
  refine ⟨(scan_eq_iff.1 rfl).flatMap_characters, fun w before after => scan_eq_append_iff,
    fun b before after => ?_, fun b before after => ?_, hjoined, ?_⟩
  · simp [scan_eq_append_iff, Token.characters, Token.Between]
  · simp [scan_eq_append_iff, Token.characters, Token.Between]
  · intro text htext respaced h
    rw [h.scan_eq]
    rcases List.mem_pair.1 htext with rfl | rfl
    · rfl
    · exact hjoined

/-- A text with brackets, signs, and letters of several scripts. -/
def scripts : List Char := ['(', 'é', ' ', '-', '1', '.', '漢', ')', '[', 'C', ']']

/-- The text with a wide blank between the groups. -/
def scriptsApart : List Char :=
  ['(', 'é', ' ', '-', '1', '.', '漢', ')', '\u3000', '[', 'C', ']']

/-- Words end at a blank or a bracket, whatever characters they have, and the wide blank changes
nothing. -/
theorem scan_faithful_scripts :
    Token.scan scripts = [.opening .round, .word "é", .word "-1.漢", .closing .round,
      .opening .square, .word "C", .closing .square] ∧
    Respaced scripts scriptsApart ∧ Token.scan scriptsApart = Token.scan scripts := by
  obtain ⟨-, -, -, -, -, hrespaced⟩ := scan_faithful scripts
  have hblank : ∀ b ∈ ['\u3000'], Text.isBlank b = true :=
    List.forall_mem_singleton.2 (by decide)
  have hapart : Respaced scripts scriptsApart :=
    .after ['(', 'é', ' ', '-', '1', '.', '漢'] ['\u3000'] ['[', 'C', ']'] (by decide) hblank
  exact ⟨by decide, hapart, hrespaced _ (List.mem_cons_self ..) _ hapart⟩

end StripAutomata.Condition
