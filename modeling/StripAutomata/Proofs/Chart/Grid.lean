import StripAutomata.Chart.Grid
import StripAutomata.Proofs.Chart.Names
import StripAutomata.Proofs.Text.Blanks

/-!
# Grids are read back

A chart that is written as a grid can be read back, cell by cell, and its columns stand under one
another.  Both come from how a row is put together.  A column is at least as wide as each of its
cells (`Covers`), so the cells before a column fill the same room in every row (`columnStart`);
and the blanks that fill a column, or that are left out at the end of a line, do not change the
words of the line.  `exists_split_cells` cuts a row at a column and says both.

Reading back needs names that do not run into what is put between them: without blanks and commas,
not empty, and other than the point of an empty cell (`IsPlain`).

A column has 16 bits for its width.  `Diagram.text?_reads_back` says that a diagram with plain names
has a text unless the names of some cell are longer than that, and that the text then gives every
cell back, each in its column.
-/

namespace StripAutomata

namespace Grid

open Text

variable {widths : List Nat} {text next : List Char} {texts row : List (List Char)}
  {rows : List (List (List Char))} {bound width labelWidth time k : Nat}

/-! ## Columns -/

/-- Whether columns are there for all the texts of a row and are wide enough for them. -/
def Covers : List Nat → List (List Char) → Prop
  | _, [] => True
  | [], _ :: _ => False
  | width :: widths, text :: texts => text.length ≤ width ∧ Covers widths texts

lemma covers_widen (widths : List Nat) (texts : List (List Char)) :
    Covers (widen widths texts) texts := by
  induction widths, texts using widen.induct with
  | case1 widths => cases widths <;> trivial
  | case2 text texts ih => exact ⟨Nat.le_max_right .., ih⟩
  | case3 width widths text texts ih => exact ⟨Nat.le_max_right .., ih⟩

lemma Covers.widen (h : Covers widths texts) (more : List (List Char)) :
    Covers (widen widths more) texts := by
  induction widths, more using Grid.widen.induct generalizing texts with
  | case1 widths => rwa [Grid.widen]
  | case2 text more ih =>
    cases texts with
    | nil => trivial
    | cons _ _ => exact h.elim
  | case3 width widths text more ih =>
    cases texts with
    | nil => trivial
    | cons _ _ => exact ⟨Nat.le_trans h.1 (Nat.le_max_left ..), ih h.2⟩

lemma Covers.exists_cons (h : Covers widths (text :: texts)) :
    ∃ width rest, widths = width :: rest ∧ text.length ≤ width ∧ Covers rest texts := by
  rcases widths with _ | ⟨width, rest⟩
  · exact h.elim
  · exact ⟨width, rest, rfl, h⟩

lemma covers_foldl_widen (h : row ∈ rows ∨ Covers widths row) :
    Covers (rows.foldl widen widths) row := by
  induction rows generalizing widths with
  | nil => exact h.resolve_left List.not_mem_nil
  | cons first rows ih =>
    apply ih
    -- Either the row is the next one, and the columns are made wide enough for it, or they are so
    -- already and stay so.
    rcases h with h | h
    · rcases List.mem_cons.1 h with rfl | h
      · exact Or.inr (covers_widen ..)
      · exact Or.inl h
    · exact Or.inr (h.widen first)

lemma covers_columnWidths (h : row ∈ rows) : Covers (columnWidths rows) row :=
  covers_foldl_widen (Or.inl h)

lemma forall_mem_widen_le_iff (hbound : 1 ≤ bound) :
    (∀ w ∈ widen widths texts, w ≤ bound) ↔
      (∀ w ∈ widths, w ≤ bound) ∧ ∀ text ∈ texts, text.length ≤ bound := by
  induction widths, texts using widen.induct with
  | case1 widths => simp [widen]
  | case2 text texts ih =>
    rw [widen, List.forall_mem_cons, List.forall_mem_cons, ih, Nat.max_le]
    simp [hbound]
  | case3 width widths text texts ih =>
    rw [widen, List.forall_mem_cons, List.forall_mem_cons, List.forall_mem_cons, ih, Nat.max_le]
    exact and_and_and_comm

lemma forall_mem_foldl_widen_le_iff (hbound : 1 ≤ bound) :
    (∀ w ∈ rows.foldl widen widths, w ≤ bound) ↔
      (∀ w ∈ widths, w ≤ bound) ∧ ∀ row ∈ rows, ∀ text ∈ row, text.length ≤ bound := by
  induction rows generalizing widths with
  | nil => simp
  | cons row rows ih =>
    rw [List.foldl_cons, ih, forall_mem_widen_le_iff hbound, List.forall_mem_cons, and_assoc]

/-- No column of a grid is wider than a bound exactly if no text in it is longer. -/
lemma forall_mem_columnWidths_le_iff (hbound : 1 ≤ bound) :
    (∀ w ∈ columnWidths rows, w ≤ bound) ↔ ∀ row ∈ rows, ∀ text ∈ row, text.length ≤ bound := by
  rw [columnWidths, forall_mem_foldl_widen_le_iff hbound]
  exact and_iff_right (List.forall_mem_nil _)

/-! ## The cells of a row -/

/-- Where a column starts, counted from the first one: each column before it is filled and has a
space after it. -/
def columnStart : List Nat → Nat → Nat
  | width :: widths, k + 1 => width + 1 + columnStart widths k
  | _, _ => 0

/-- The texts of a row, each set in its column. -/
def cells (widths : List Nat) (texts : List (List Char)) : List Char :=
  [' '].intercalate (widths.zipWith padEnd texts)

/-- Whether a text is one word. -/
def IsWord (text : List Char) : Prop := text ≠ [] ∧ ∀ c ∈ text, isBlank c = false

lemma isBlank_of_mem_replicate {n : Nat} {c : Char} (h : c ∈ List.replicate n ' ') :
    isBlank c = true := by
  rw [List.eq_of_mem_replicate h]
  exact isBlank_space

lemma length_padEnd (h : text.length ≤ width) :
    (padEnd width text).length = width := by
  rw [padEnd, List.length_append, List.length_replicate]
  omega

/-- A text that is a word remains one when blanks are put after it. -/
lemma words_padEnd_append {rest : List Char} (h : IsWord text)
    (hrest : ∀ c ∈ rest.head?, isBlank c = true) :
    words (padEnd width text ++ rest) = text :: words rest := by
  have hhead : ∀ c ∈ (List.replicate (width - text.length) ' ' ++ rest).head?,
      isBlank c = true := by
    intro c hc
    cases hn : width - text.length with
    | zero =>
      rw [hn] at hc
      exact hrest c hc
    | succ n =>
      rw [hn] at hc
      cases hc
      exact isBlank_space
  rw [padEnd, List.append_assoc, words_append h.1 h.2 hhead,
    words_blank_append fun c hc => isBlank_of_mem_replicate hc]

lemma cells_cons_cons (width : Nat) (text : List Char) (h : Covers widths (next :: texts)) :
    cells (width :: widths) (text :: next :: texts) =
      padEnd width text ++ ' ' :: cells widths (next :: texts) := by
  obtain ⟨w, ws, rfl, -⟩ := h.exists_cons
  simp [cells, List.intercalate_cons_cons]

/-- A row begins with its first text, and its other words are those of the rest of the row. -/
lemma exists_cells_cons_eq (width : Nat) (text : List Char) (h : Covers widths texts) :
    ∃ rest, cells (width :: widths) (text :: texts) = padEnd width text ++ rest ∧
      (∀ c ∈ rest.head?, isBlank c = true) ∧ words rest = words (cells widths texts) := by
  rcases texts with _ | ⟨next, texts⟩
  · exact ⟨[], by simp [cells], by simp, by simp [cells]⟩
  · exact ⟨_, cells_cons_cons width text h, by simp [isBlank_space], words_blank isBlank_space _⟩

/-- The words of a row are its texts. -/
lemma words_cells (hcovers : Covers widths texts) (htexts : ∀ text ∈ texts, IsWord text) :
    words (cells widths texts) = texts := by
  induction texts generalizing widths with
  | nil => simp [cells, words_eq_nil]
  | cons text texts ih =>
    obtain ⟨htext, hrest⟩ := List.forall_mem_cons.1 htexts
    obtain ⟨width, widths, rfl, -, hcovers⟩ := hcovers.exists_cons
    obtain ⟨rest, hcells, hhead, hwords⟩ := exists_cells_cons_eq width text hcovers
    rw [hcells, words_padEnd_append htext hhead, hwords, ih hcovers hrest]

/-- A row is cut at a column: before it stand the texts of the columns before, and what they fill
does not depend on the row. -/
lemma exists_split_cells (hcovers : Covers widths texts) (htexts : ∀ text ∈ texts, IsWord text)
    (hk : texts[k]? = some text) :
    ∃ before after, cells widths texts = before ++ (text ++ after) ∧
      before.length = columnStart widths k ∧ words before = texts.take k ∧
      words (text ++ after) = texts.drop k := by
  induction texts generalizing widths k with
  | nil => simp at hk
  | cons first texts ih =>
    have hall := words_cells hcovers htexts
    obtain ⟨hfirst, hrest⟩ := List.forall_mem_cons.1 htexts
    obtain ⟨width, widths, rfl, hwidth, hcovers⟩ := hcovers.exists_cons
    cases k with
    | zero =>
      obtain rfl : first = text := by simpa using hk
      obtain ⟨rest, hcells, -⟩ := exists_cells_cons_eq width first hcovers
      rw [padEnd, List.append_assoc] at hcells
      exact ⟨[], _, hcells, rfl, words_eq_nil (List.forall_mem_nil _), hcells ▸ hall⟩
    | succ k =>
      rw [List.getElem?_cons_succ] at hk
      obtain ⟨before, after, hcells, hlength, hbefore, hafter⟩ := ih hcovers hrest hk
      -- There is a text in a column further on, so a space stands after the first one.
      obtain ⟨next, more, rfl⟩ :=
        List.exists_cons_of_ne_nil (List.ne_nil_of_mem (List.mem_of_getElem? hk))
      refine ⟨padEnd width first ++ ' ' :: before, after, ?_, ?_, ?_, hafter⟩
      · rw [cells_cons_cons width first hcovers, hcells, List.append_assoc, List.cons_append]
      · rw [List.length_append, length_padEnd hwidth, List.length_cons, hlength, columnStart]
        omega
      · rw [words_padEnd_append hfirst (by simp [isBlank_space]), words_blank isBlank_space,
          hbefore, List.take_succ_cons]

/-! ## Lines -/

lemma isWord_digits (n : Nat) : IsWord (digits n) := by
  refine ⟨Nat.toDigits_ne_nil, fun c hc => isBlank_of_isWordChar (isWordChar_of_isDigit ?_)⟩
  exact Nat.isDigit_of_mem_toDigits (by decide) (by decide) hc

/-- The number of a step that is not after the last one has room beside the number of the last. -/
lemma length_padStart_digits {last : Nat} (h : time ≤ last) :
    (padStart (digits last).length (digits time)).length = (digits last).length := by
  have hlast : last < 10 ^ (digits last).length :=
    (Nat.length_toDigits_le_iff (by decide) (Nat.length_toDigits_pos ..)).1 (Nat.le_refl _)
  have htime : (digits time).length ≤ (digits last).length :=
    (Nat.length_toDigits_le_iff (by decide) (Nat.length_toDigits_pos ..)).2
      (Nat.lt_of_le_of_lt h hlast)
  rw [padStart, List.length_append, List.length_replicate]
  omega

lemma isBlank_bar : isBlank '|' = false := by decide

/-- The words at the beginning of a line are the number of the step and the bar. -/
lemma words_padStart_append (labelWidth time : Nat) (rest : List Char) :
    words (padStart labelWidth (digits time) ++ ([' ', '|', ' '] ++ rest)) =
      digits time :: ['|'] :: words rest := by
  obtain ⟨hne, hblank⟩ := isWord_digits time
  -- The bar stands between two spaces, so it is a word of its own.
  have hbar : words (['|'] ++ ' ' :: rest) = ['|'] :: words (' ' :: rest) :=
    words_append (List.cons_ne_nil _ _) (List.forall_mem_singleton.2 isBlank_bar)
      (by simp [isBlank_space])
  rw [padStart, List.append_assoc, words_blank_append fun c hc => isBlank_of_mem_replicate hc,
    words_append hne hblank (by simp [isBlank_space]), List.cons_append, words_blank isBlank_space]
  rw [words_blank isBlank_space] at hbar
  exact congrArg _ hbar

lemma exists_line_eq (labelWidth : Nat) (widths : List Nat) (time : Nat)
    (texts : List (List Char)) :
    ∃ rest, line labelWidth widths time texts =
        padStart labelWidth (digits time) ++ ([' ', '|'] ++ rest) ∧
      words rest = words (cells widths texts) := by
  refine ⟨trimEnd (' ' :: cells widths texts), ?_, ?_⟩
  · have htrim := trimEnd_append (List.cons_ne_nil _ _) (List.forall_mem_singleton.2 isBlank_bar)
      (padStart labelWidth (digits time) ++ [' ']) (' ' :: cells widths texts)
    simpa [line, cells] using htrim
  · rw [words_trimEnd, words_blank isBlank_space]

/-- Where the text of a cell stands in a line: it begins at the offset, the texts of the cells from
there on are the words after the offset, and before it stand the number of the step, a bar and the
texts of the cells before. -/
structure CellAt (line : List Char) (time : Nat) (texts : List (List Char)) (k offset : Nat) :
    Prop where
  begins : ∃ text, texts[k]? = some text ∧ text <+: line.drop offset
  before : words (line.take offset) = digits time :: ['|'] :: texts.take k
  after : words (line.drop offset) = texts.drop k

/-- A cell starts where its column does, after the number of the step and the bar. -/
lemma cellAt_line (hcovers : Covers widths texts) (htexts : ∀ text ∈ texts, IsWord text)
    (hk : texts[k]? = some text) :
    CellAt (line labelWidth widths time texts) time texts k
      ((padStart labelWidth (digits time)).length + (3 + columnStart widths k)) := by
  obtain ⟨before, after, hcells, hlength, hbefore, hafter⟩ :=
    exists_split_cells hcovers htexts hk
  obtain ⟨hne, hblank⟩ := htexts text (List.mem_of_getElem? hk)
  -- The text of the cell is a word, so nothing of it is cut off at the end of the line.
  have hline : line labelWidth widths time texts =
      (padStart labelWidth (digits time) ++ ([' ', '|', ' '] ++ before)) ++
        (text ++ trimEnd after) := by
    have htrim := trimEnd_append hne hblank
      (padStart labelWidth (digits time) ++ ([' ', '|', ' '] ++ before)) after
    rw [← htrim, line]
    congr 1
    simp only [List.append_assoc, ← hcells]
    rfl
  have hoffset : (padStart labelWidth (digits time)).length + (3 + columnStart widths k) =
      (padStart labelWidth (digits time) ++ ([' ', '|', ' '] ++ before)).length := by
    simp only [List.length_append, List.length_cons, List.length_nil, hlength]
  rw [hline, hoffset]
  refine ⟨⟨text, hk, ?_⟩, ?_, ?_⟩
  · rw [List.drop_left]
    exact List.prefix_append ..
  · rw [List.take_left, words_padStart_append, hbefore]
  · have htrim : words (text ++ trimEnd after) = words (text ++ after) := by
      have hcut := trimEnd_append hne hblank [] after
      rw [List.nil_append, List.nil_append] at hcut
      rw [← hcut, words_trimEnd]
    rw [List.drop_left, htrim, hafter]

lemma isEnding_of_mem_replicate {n : Nat} {c : Char} (h : c ∈ List.replicate n ' ') :
    isEnding c = false := by
  rw [List.eq_of_mem_replicate h]
  rfl

lemma isEnding_of_mem_cells (widths : List Nat) (htexts : ∀ text ∈ texts, IsWord text) :
    ∀ c ∈ cells widths texts, isEnding c = false := by
  refine forall_mem_intercalate (List.forall_mem_singleton.2 rfl) fun text htext => ?_
  rw [← List.map_uncurry_zip_eq_zipWith] at htext
  obtain ⟨⟨width, inner⟩, hmem, rfl⟩ := List.mem_map.1 htext
  have hinner := htexts inner (List.of_mem_zip hmem).2
  exact List.forall_mem_append.2 ⟨fun c hc => isEnding_of_isBlank_eq_false (hinner.2 c hc),
    fun c hc => isEnding_of_mem_replicate hc⟩

/-- A line has no line feed or carriage return in it. -/
lemma isEnding_of_mem_line (labelWidth : Nat) (widths : List Nat) (time : Nat)
    (htexts : ∀ text ∈ texts, IsWord text) :
    ∀ c ∈ line labelWidth widths time texts, isEnding c = false := by
  have hlabel : ∀ c ∈ padStart labelWidth (digits time), isEnding c = false :=
    List.forall_mem_append.2 ⟨fun c hc => isEnding_of_mem_replicate hc,
      fun c hc => isEnding_of_isBlank_eq_false ((isWord_digits time).2 c hc)⟩
  have hall : ∀ c ∈ padStart labelWidth (digits time) ++ [' ', '|', ' '] ++ cells widths texts,
      isEnding c = false :=
    List.forall_mem_append.2 ⟨List.forall_mem_append.2 ⟨hlabel, by simp [isEnding]⟩,
      isEnding_of_mem_cells widths htexts⟩
  -- What is cut off at the end of a line is a part of it.
  obtain ⟨trail, htrail, -⟩ := exists_eq_trimEnd
    (padStart labelWidth (digits time) ++ [' ', '|', ' '] ++ cells widths texts)
  rw [htrail] at hall
  exact (List.forall_mem_append.1 hall).1

lemma getElem?_linesOf (rows : List (List (List Char))) (time : Nat) :
    (linesOf rows)[time]? =
      rows[time]?.map (line (digits (rows.length - 1)).length (columnWidths rows) time) := by
  rw [linesOf, List.getElem?_map, List.getElem?_zipIdx, Option.map_map, Nat.zero_add]
  rfl

/-! ## Names in a cell -/

/-- A name that can be told from what is put between names: it is not empty, is not the point of an
empty cell, and has no blank and no comma in it. -/
structure IsPlain (name : String) : Prop where
  ne_empty : name ≠ ""
  ne_point : name ≠ "."
  no_blank : ∀ c ∈ name.toList, isBlank c = false
  no_comma : ',' ∉ name.toList

lemma isPlain_iff {name : String} :
    IsPlain name ↔ name ≠ "" ∧ name ≠ "." ∧ name.toList.all (fun c => !isBlank c && c != ',') := by
  simp only [List.all_eq_true, Bool.and_eq_true, Bool.not_eq_true', bne_iff_ne]
  constructor
  · rintro ⟨hempty, hpoint, hblank, hcomma⟩
    exact ⟨hempty, hpoint, fun c hc => ⟨hblank c hc, fun heq => hcomma (heq ▸ hc)⟩⟩
  · rintro ⟨hempty, hpoint, hall⟩
    exact ⟨hempty, hpoint, fun c hc => (hall c hc).1, fun hc => (hall ',' hc).2 rfl⟩

instance (name : String) : Decidable (IsPlain name) := decidable_of_iff _ isPlain_iff.symm

/-- The names that the text of a cell gives. -/
def namesOf (text : List Char) : List String :=
  if text = ['.'] then [] else (text.splitOn ',').map String.ofList

lemma cellText_of_ne_nil {names : List String} (h : names ≠ []) :
    cellText names = [','].intercalate (names.map String.toList) := by
  rw [cellText, if_neg (by simpa using h), String.toList_intercalate]
  rfl

lemma isWord_cellText {names : List String} (h : ∀ name ∈ names, IsPlain name) :
    IsWord (cellText names) := by
  cases names with
  | nil => exact ⟨by simp [cellText], by simp [cellText]; decide⟩
  | cons name names =>
    rw [cellText_of_ne_nil (List.cons_ne_nil _ _)]
    constructor
    · obtain ⟨hname, -⟩ := List.forall_mem_cons.1 h
      have hne : name.toList ≠ [] := fun hnil => hname.ne_empty (String.toList_eq_nil_iff.1 hnil)
      cases names <;> simp [List.intercalate_cons_cons, hne]
    · refine forall_mem_intercalate (List.forall_mem_singleton.2 (by decide)) fun text htext => ?_
      obtain ⟨name, hname, rfl⟩ := List.mem_map.1 htext
      exact (h name hname).no_blank

/-- The names of a cell are read back from its text. -/
lemma namesOf_cellText {names : List String} (h : ∀ name ∈ names, IsPlain name) :
    namesOf (cellText names) = names := by
  by_cases hnames : names = []
  · subst hnames
    rfl
  · have hsplit : (cellText names).splitOn ',' = names.map String.toList := by
      rw [cellText_of_ne_nil hnames]
      refine List.splitOn_intercalate ',' (fun text htext => ?_) (by simpa using hnames)
      obtain ⟨name, hname, rfl⟩ := List.mem_map.1 htext
      exact (h name hname).no_comma
    -- A single point would be read as no names, and no plain name is a point.
    have hpoint : cellText names ≠ ['.'] := by
      intro heq
      have hone : ['.'].splitOn ',' = [['.']] := by decide
      rw [heq, hone] at hsplit
      obtain ⟨name, rfl⟩ : ∃ name, names = [name] :=
        List.length_eq_one_iff.1 (by simpa using (congrArg List.length hsplit).symm)
      have hname : name.toList = ".".toList := (List.cons.inj hsplit).1.symm
      exact (h name (List.mem_singleton_self name)).ne_point (String.toList_inj.1 hname)
    rw [namesOf, if_neg hpoint, hsplit, List.map_map]
    simp [Function.comp_def]

end Grid

/-! ## Charts -/

namespace Chart

open Text Grid

/-- Whether the names in a chart can be told from what is put between them. -/
def HasPlainNames (c : Chart) : Prop := ∀ row ∈ c.steps, ∀ names ∈ row, ∀ name ∈ names, IsPlain name

variable {c : Chart}

lemma text?_eq_none_iff :
    c.text? = none ↔
      ∃ row ∈ c.steps, ∃ names ∈ row, widestColumn < (cellText names).length := by
  have hwide : (∀ w ∈ columnWidths (c.steps.map (·.map cellText)), w ≤ widestColumn) ↔
      ∀ row ∈ c.steps.map (·.map cellText), ∀ text ∈ row, text.length ≤ widestColumn :=
    forall_mem_columnWidths_le_iff (by decide)
  simp only [List.forall_mem_map] at hwide
  simp only [text?, List.all_eq_true, decide_eq_true_eq, hwide, ite_eq_right_iff, reduceCtorEq,
    imp_false]
  simp only [not_forall, not_le, exists_prop]

lemma isWord_of_mem_row {row : List (List String)}
    (h : ∀ names ∈ row, ∀ name ∈ names, IsPlain name) : ∀ text ∈ row.map cellText, IsWord text := by
  intro text htext
  obtain ⟨names, hnames, rfl⟩ := List.mem_map.1 htext
  exact isWord_cellText (h names hnames)

/-- The widths of the columns in the text of a chart. -/
def columns (c : Chart) : List Nat := columnWidths (c.steps.map (·.map cellText))

/-- The line of a step in the text of a chart. -/
def lineOf (c : Chart) (time : Nat) (row : List (List String)) : List Char :=
  line (digits (c.steps.length - 1)).length c.columns time (row.map cellText)

/-- Where a column starts in the text of a chart. -/
def cellStart (c : Chart) (k : Nat) : Nat :=
  (digits (c.steps.length - 1)).length + (3 + columnStart c.columns k)

lemma lines_text (h : c.HasPlainNames) :
    lines c.text.toList = linesOf (c.steps.map (·.map cellText)) := by
  rw [text, String.toList_ofList]
  refine lines_flatMap_feed fun l hl => ?_
  obtain ⟨t, ht⟩ := List.mem_iff_getElem?.1 hl
  rw [getElem?_linesOf, List.getElem?_map, Option.map_map] at ht
  obtain ⟨row, hrow, rfl⟩ := Option.map_eq_some_iff.1 ht
  exact isEnding_of_mem_line _ _ _ (isWord_of_mem_row (h row (List.mem_of_getElem? hrow)))

lemma length_lines_text (h : c.HasPlainNames) :
    (lines c.text.toList).length = c.steps.length := by
  simp [lines_text h, linesOf]

lemma getElem?_lines_text (h : c.HasPlainNames) (time : Nat) :
    (lines c.text.toList)[time]? = c.steps[time]?.map (c.lineOf time) := by
  rw [lines_text h, getElem?_linesOf, List.getElem?_map, Option.map_map, List.length_map]
  rfl

lemma covers_columns {row : List (List String)} (hrow : row ∈ c.steps) :
    Covers c.columns (row.map cellText) :=
  covers_columnWidths (List.mem_map_of_mem hrow)

/-- A step is read back from its line. -/
lemma exists_lineOf_eq (h : c.HasPlainNames) {row : List (List String)} (hrow : row ∈ c.steps)
    (time : Nat) :
    ∃ rest, c.lineOf time row =
        padStart (digits (c.steps.length - 1)).length (digits time) ++ ([' ', '|'] ++ rest) ∧
      (words rest).map namesOf = row := by
  obtain ⟨rest, hline, hwords⟩ := exists_line_eq (digits (c.steps.length - 1)).length c.columns time
    (row.map cellText)
  refine ⟨rest, hline, ?_⟩
  rw [hwords, words_cells (covers_columns hrow) (isWord_of_mem_row (h row hrow)), List.map_map]
  exact (List.map_congr_left fun names hnames => namesOf_cellText (h row hrow names hnames)).trans
    (List.map_id row)

/-- A cell stands in its column, which starts at one place for all steps. -/
lemma cellAt_lineOf (h : c.HasPlainNames) {time k : Nat} {row : List (List String)}
    (hrow : c.steps[time]? = some row) (hk : k < row.length) :
    CellAt (c.lineOf time row) time (row.map cellText) k (c.cellStart k) := by
  have hmem := List.mem_of_getElem? hrow
  have htime : time ≤ c.steps.length - 1 := by
    obtain ⟨hlt, -⟩ := List.getElem?_eq_some_iff.1 hrow
    omega
  have hcell : CellAt (c.lineOf time row) time (row.map cellText) k
      ((padStart (digits (c.steps.length - 1)).length (digits time)).length +
        (3 + columnStart c.columns k)) :=
    cellAt_line (covers_columns hmem) (isWord_of_mem_row (h row hmem))
      (List.getElem?_eq_getElem (by simpa using hk))
  rwa [length_padStart_digits htime] at hcell

end Chart

namespace Diagram

open Text Grid

/-- Whether the names of the signals in a diagram can be told from what is put between them. -/
def HasPlainNames (lexicon : Lexicon) (d : Diagram) : Prop :=
  ∀ time cell, ∀ s ∈ d.signalsAt time cell, IsPlain (lexicon.nameOf s)

variable {lexicon : Lexicon} {d : Diagram}

instance : Decidable (d.HasPlainNames lexicon) := decidable_of_iff _ forall_mem_signalsAt_iff.symm

lemma HasPlainNames.chart (h : d.HasPlainNames lexicon) : (d.chart lexicon).HasPlainNames := by
  intro row hrow names hnames name hname
  obtain ⟨strip, hstrip, rfl⟩ := List.mem_map.1 hrow
  obtain ⟨set, hset, rfl⟩ := List.mem_map.1 hnames
  obtain ⟨s, hs, rfl⟩ := List.mem_map.1 (List.mem_mergeSort.1 hname)
  exact forall_mem_signalsAt_iff.1 h strip hstrip set hset s hs

/-- **Diagrams as text lose nothing and are aligned.**  A diagram with plain names has a text unless
the text of some cell is longer than the widest column.  The text then has a line for each step.
After the number of the step, which is set to the right under that of the last step, and a bar, the
words of the line give the step back: a point has no names, and commas stand between names.  And
each column starts at one place in all the lines that reach it. -/
theorem text?_reads_back (lexicon : Lexicon) (d : Diagram) (h : d.HasPlainNames lexicon) :
    ((d.chart lexicon).text? = none ↔ ∃ row ∈ (d.chart lexicon).steps, ∃ names ∈ row,
      widestColumn < (cellText names).length) ∧
    ∀ text, (d.chart lexicon).text? = some text →
      (lines text.toList).length = d.size ∧
      (∀ t line, (lines text.toList)[t]? = some line →
        ∃ rest, line = padStart (digits (d.size - 1)).length (digits t) ++ ([' ', '|'] ++ rest) ∧
          (d.chart lexicon).steps[t]? = some ((words rest).map namesOf)) ∧
      ∃ start : Nat → Nat, ∀ t line row, (lines text.toList)[t]? = some line →
        (d.chart lexicon).steps[t]? = some row →
        ∀ k < row.length, CellAt line t (row.map cellText) k (start k) := by
  have hplain := h.chart
  have hsize : (d.chart lexicon).steps.length = d.size := by simp [chart, size]
  refine ⟨Chart.text?_eq_none_iff, fun text htext => ?_⟩
  obtain rfl : (d.chart lexicon).text = text := by
    rw [Chart.text?] at htext
    split at htext
    · exact Option.some.inj htext
    · cases htext
  refine ⟨by rw [Chart.length_lines_text hplain, hsize], fun t line hline => ?_,
    (d.chart lexicon).cellStart, fun t line row hline hrow k hk => ?_⟩
  · rw [Chart.getElem?_lines_text hplain] at hline
    obtain ⟨row, hrow, rfl⟩ := Option.map_eq_some_iff.1 hline
    obtain ⟨rest, hrest, hnames⟩ :=
      Chart.exists_lineOf_eq hplain (List.mem_of_getElem? hrow) t
    exact ⟨rest, by rw [hrest, hsize], by rw [hnames, hrow]⟩
  · rw [Chart.getElem?_lines_text hplain, hrow] at hline
    cases hline
    exact Chart.cellAt_lineOf hplain hrow hk

/-- Three strips of different sizes, the last one without cells, and a signal without a name. -/
def ragged : Diagram :=
  ⟨#[⟨#[∅]⟩, ⟨#[.ofList [⟨0⟩, ⟨1⟩], ∅, .ofList [⟨5⟩]]⟩, ⟨#[]⟩]⟩

theorem text?_reads_back_ragged :
    let lexicon := (∅ : Lexicon).insertAll ["Wand", "Äther"]
    let text := "0 | .\n1 | Wand,Äther . ?\n2 |\n"
    ragged.HasPlainNames lexicon ∧ (ragged.chart lexicon).text? = some text ∧
      (lines text.toList).length = 3 ∧
      ∃ start : Nat → Nat, ∀ t line row, (lines text.toList)[t]? = some line →
        (ragged.chart lexicon).steps[t]? = some row →
        ∀ k < row.length, CellAt line t (row.map cellText) k (start k) := by
  intro lexicon text
  have hplain : ragged.HasPlainNames lexicon := by decide
  have hchart : ragged.chart lexicon = ⟨1, [[[]], [["Wand", "Äther"], [], ["?"]], []]⟩ := by
    have hpair : SignalSet.names lexicon (.ofList [⟨0⟩, ⟨1⟩]) = ["Wand", "Äther"] :=
      List.mergeSort_of_pairwise (l := ["Wand", "Äther"]) (by decide)
    have hnone : SignalSet.names lexicon ∅ = [] := List.mergeSort_nil
    have hunknown : SignalSet.names lexicon (.ofList [⟨5⟩]) = ["?"] := List.mergeSort_singleton _
    show Chart.mk 1 [[SignalSet.names lexicon ∅], [SignalSet.names lexicon (.ofList [⟨0⟩, ⟨1⟩]),
      SignalSet.names lexicon ∅, SignalSet.names lexicon (.ofList [⟨5⟩])], []] = _
    rw [hpair, hnone, hunknown]
  have htext : (ragged.chart lexicon).text? = some text := by
    rw [hchart]
    decide
  have h := (text?_reads_back lexicon ragged hplain).2 text htext
  exact ⟨hplain, htext, h.1, h.2.2⟩

/-- Names may be plain and too long for a column, and then there is no text. -/
theorem exists_text?_eq_none :
    let name := String.ofList (List.replicate 0x10000 'A')
    let lexicon : Lexicon := (∅ : Lexicon).insert name
    let d : Diagram := ⟨#[⟨#[.ofList [⟨0⟩]]⟩]⟩
    d.HasPlainNames lexicon ∧ (d.chart lexicon).text? = none := by
  intro name lexicon d
  have hletters : name.toList = List.replicate 0x10000 'A' := String.toList_ofList
  have hletter : ∀ c ∈ name.toList, c = 'A' := fun c hc =>
    List.eq_of_mem_replicate (hletters ▸ hc)
  have hlength : name.toList.length = 0x10000 := by rw [hletters, List.length_replicate]
  -- A name of a single letter, however often, is plain.
  have hplain : IsPlain name := by
    refine ⟨?_, ?_, fun c hc => ?_, fun hmem => absurd (hletter ',' hmem) (by decide)⟩
    · intro heq
      rw [heq] at hlength
      cases hlength
    · intro heq
      rw [heq] at hlength
      cases hlength
    · rw [hletter c hc]
      decide
  have hnames : SignalSet.names lexicon (.ofList [⟨0⟩]) = [name] := List.mergeSort_singleton _
  refine ⟨forall_mem_signalsAt_iff.2 fun strip hstrip set hset s hs => ?_,
    Chart.text?_eq_none_iff.2 ⟨_, List.mem_singleton_self _, _, List.mem_singleton_self _, ?_⟩⟩
  · obtain rfl : strip = ⟨#[.ofList [⟨0⟩]]⟩ := List.mem_singleton.1 hstrip
    obtain rfl : set = .ofList [⟨0⟩] := List.mem_singleton.1 hset
    obtain rfl : s = ⟨0⟩ := List.mem_singleton.1 hs
    exact hplain
  · rw [hnames, cellText_of_ne_nil (List.cons_ne_nil _ _), List.map_singleton,
      List.intercalate_singleton, hlength]
    decide

end Diagram
end StripAutomata
