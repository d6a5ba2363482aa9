import StripAutomata.Json.Printer
import StripAutomata.Json.Reader
import StripAutomata.Proofs.Item.Numbers

/-!
# Written lexemes

The printer writes a number as an atom and a text as a string.  This file is about such a lexeme by
itself: what it is written with stands for what was written (`ofAtom?_numeral`, `text?_inside`).

* A number is written without needless zeros, so it is read again, if all its digits are kept
  (`JsonNumber.IsKept`).  A number that is read has no others, but one that is only a value may.
* A character is written inside a string in one of three ways, which `Escaped` lists.  In each of
  them it is one unit for the reader and never ends the string.

How a text is cut up into its lexemes is said of a piece of text and of whatever follows it:
`Scans` asks only that the rest does not go on with an atom.  Pieces of text are put together by
the lemmas in the namespace `Scans`, which are all that the layout of a text needs.
-/

namespace StripAutomata

/-- Whether a number has no digits but those that are kept. -/
def JsonNumber.IsKept : JsonNumber → Prop
  | .integer _ magnitude => magnitude < JsonNumber.bound
  | .decimal _ significand _ => significand < JsonNumber.bound

namespace Json

/-- The inside of a written string. -/
def inside : Option String → List Char
  | some s => s.toList.flatMap escape
  | none => ['\\', 'u', 'd', '8', '0', '0']

lemma quote_eq (text : Option String) : quote text = '"' :: (inside text ++ ['"']) := by
  cases text <;> rfl

namespace Lexeme

/-! ## Numbers -/

lemma isDigit_of_mem_toDigits {n : Nat} : ∀ c ∈ Nat.toDigits 10 n, c.isDigit = true :=
  fun _ hc => Nat.isDigit_of_mem_toDigits (by decide) (by decide) hc

lemma exists_cons_toDigits (n : Nat) :
    ∃ d ds, Nat.toDigits 10 n = d :: ds ∧ d.isDigit = true := by
  have hne : Nat.toDigits 10 n ≠ [] := Nat.toDigits_ne_nil
  obtain ⟨d, ds, hds⟩ := List.exists_cons_of_ne_nil hne
  exact ⟨d, ds, hds, isDigit_of_mem_toDigits d (hds ▸ List.mem_cons_self ..)⟩

/-- A number is written with a zero at the beginning only if it is zero. -/
lemma eq_zero_of_head?_toDigits {n : Nat} (h : (Nat.toDigits 10 n).head? = some '0') : n = 0 := by
  induction n using Nat.strongRecOn with
  | ind n ih =>
    by_cases hn : n < 10
    · rw [Nat.toDigits_of_lt_base hn] at h
      exact Nat.digitChar_eq_zero.1 (Option.some.inj h)
    · -- The first digit of a longer number is that of the number without its last digit.
      rw [Nat.toDigits_of_base_le (by decide) (by omega), List.head?_append,
        Option.or_of_isSome (by simp [Nat.toDigits_ne_nil])] at h
      have hzero := ih (n / 10) (by omega) h
      omega

lemma not_leadingZero (n : Nat) :
    ¬((Nat.toDigits 10 n).head? = some '0' ∧ (Nat.toDigits 10 n).length ≠ 1) := by
  rintro ⟨hhead, hlength⟩
  rw [eq_zero_of_head?_toDigits hhead] at hlength
  exact hlength rfl

/-- Since the value only grows, all digits are kept if the number at the end is below the bound. -/
lemma keep_eq {cs : List Char} {n : Nat} (h : Nat.ofDigitChars 10 cs n < JsonNumber.bound) :
    JsonNumber.keep n cs = (Nat.ofDigitChars 10 cs n, 0) := by
  induction cs generalizing n with
  | nil => rfl
  | cons c cs ih =>
    have hlonger : 10 * n + JsonNumber.digitValue c < JsonNumber.bound :=
      Nat.lt_of_le_of_lt (Item.le_ofDigitChars cs _) h
    rw [JsonNumber.keep, if_pos hlonger]
    exact ih h

lemma keep_toDigits {n : Nat} (h : n < JsonNumber.bound) :
    JsonNumber.keep 0 (Nat.toDigits 10 n) = (n, 0) := by
  have hvalue : Nat.ofDigitChars 10 (Nat.toDigits 10 n) 0 = n := Nat.ofDigitChars_ten_toDigits
  rw [keep_eq (by rwa [hvalue]), hvalue]

lemma splitDigits?_toDigits_append (n : Nat) {rest : List Char}
    (hrest : ∀ c ∈ rest.head?, c.isDigit = false) :
    splitDigits? (Nat.toDigits 10 n ++ rest) = some (Nat.toDigits 10 n, rest) := by
  have hspan : rest.takeWhile Char.isDigit = [] ∧ rest.dropWhile Char.isDigit = rest := by
    cases rest with
    | nil => exact ⟨rfl, rfl⟩
    | cons c rest => simp [hrest c rfl]
  rw [splitDigits?, List.takeWhile_append_of_pos isDigit_of_mem_toDigits,
    List.dropWhile_append_of_pos isDigit_of_mem_toDigits, hspan.1, hspan.2, List.append_nil]
  -- Only a number without digits would not be split off.
  obtain ⟨d, ds, hds, -⟩ := exists_cons_toDigits n
  rw [hds]

lemma splitDigits?_toDigits (n : Nat) :
    splitDigits? (Nat.toDigits 10 n) = some (Nat.toDigits 10 n, []) := by
  have hrest : ∀ c ∈ ([] : List Char).head?, c.isDigit = false := by simp
  simpa using splitDigits?_toDigits_append n hrest

lemma unsigned?_toDigits (negative : Bool) {n : Nat} (h : n < JsonNumber.bound) :
    unsigned? negative (Nat.toDigits 10 n) = some (.integer negative n) := by
  simp [unsigned?, splitDigits?_toDigits, not_leadingZero n, JsonNumber.ofWhole, keep_toDigits h]

lemma exponent?_written (z : Int) :
    exponent? ('e' :: (sign (decide (z < 0)) ++ Nat.toDigits 10 z.natAbs)) = some z := by
  have hsplit := splitDigits?_toDigits z.natAbs
  have hvalue : JsonNumber.value (Nat.toDigits 10 z.natAbs) = z.natAbs :=
    Nat.ofDigitChars_ten_toDigits
  by_cases hz : z < 0
  · have hread : exponent? ('e' :: '-' :: Nat.toDigits 10 z.natAbs) = some (-(z.natAbs : Int)) := by
      simp only [exponent?, hsplit, hvalue, true_or, if_true]
    rw [sign, decide_eq_true hz, if_pos rfl, List.singleton_append, hread]
    exact congrArg some (by omega)
  · -- An exponent that is not negative has no sign, so it must begin with a digit to be read.
    obtain ⟨d, ds, hds, hd⟩ := exists_cons_toDigits z.natAbs
    have hread : exponent? ('e' :: d :: ds) = some (z.natAbs : Int) := by
      rw [hds] at hsplit hvalue
      simp [exponent?, hsplit, hvalue, Item.ne_sign_of_isDigit hd]
    rw [sign, decide_eq_false hz, if_neg Bool.false_ne_true, List.nil_append, hds, hread]
    exact congrArg some (by omega)

lemma unsigned?_exponent (negative : Bool) {n : Nat} (h : n < JsonNumber.bound) (z : Int) :
    unsigned? negative
        (Nat.toDigits 10 n ++ 'e' :: (sign (decide (z < 0)) ++ Nat.toDigits 10 z.natAbs)) =
      some (.decimal negative n z) := by
  have he (cs : List Char) : ∀ c ∈ ('e' :: cs).head?, c.isDigit = false := by simp
  simp [unsigned?, splitDigits?_toDigits_append n (he _), not_leadingZero n, JsonNumber.ofParts,
    keep_toDigits h, splitFraction?, exponent?_written, JsonNumber.keep]

lemma number?_sign (negative : Bool) {d : Char} (hd : d.isDigit = true) (ds : List Char) :
    number? (sign negative ++ d :: ds) = unsigned? negative (d :: ds) := by
  cases negative with
  | true => rfl
  | false =>
    show number? (d :: ds) = unsigned? false (d :: ds)
    unfold number?
    split
    next heq => exact absurd (List.cons.inj heq).1 (Item.ne_sign_of_isDigit hd).1
    next => rfl

/-- The written form of a number stands for it. -/
theorem number?_numeral {n : JsonNumber} (h : n.IsKept) : number? (numeral n) = some n := by
  cases n with
  | integer negative magnitude =>
    obtain ⟨d, ds, hds, hd⟩ := exists_cons_toDigits magnitude
    rw [numeral, hds, number?_sign negative hd, ← hds]
    exact unsigned?_toDigits negative h
  | decimal negative significand scale =>
    obtain ⟨d, ds, hds, hd⟩ := exists_cons_toDigits significand
    rw [numeral, List.append_assoc, List.append_assoc, List.cons_append, hds, List.cons_append,
      number?_sign negative hd, ← List.cons_append, ← hds]
    exact unsigned?_exponent negative h scale

/-! ## Strings -/

/-- The ways in which a character is written inside a string. -/
inductive Escaped (c : Char) : List Char → Prop
  | letter (e : Char) (h : escaped? e = some c) : Escaped c ['\\', e]
  | code (h : c.toNat < 0x20) :
    Escaped c ['\\', 'u', '0', '0', hexDigit (c.toNat / 16), hexDigit (c.toNat % 16)]
  | plain (hquote : c ≠ '"') (hslash : c ≠ '\\') (h : 0x20 ≤ c.toNat) : Escaped c [c]

lemma escaped_escape (c : Char) : Escaped c (escape c) := by
  unfold escape
  repeat' split
  all_goals first
    | exact Escaped.letter _ (by simp_all [escaped?])
    | exact Escaped.code (by assumption)
    | exact Escaped.plain (by assumption) (by assumption) (by omega)

lemma hexValue?_hexDigit : ∀ n < 16, hexValue? (hexDigit n) = some n := by decide

lemma hexDigit_ne : ∀ n < 16, hexDigit n ≠ '"' ∧ hexDigit n ≠ '\\' := by decide

lemma units?_letter {c e : Char} (h : escaped? e = some c) (cs : List Char) :
    units? ('\\' :: e :: cs) = (units? cs).map (.character c :: ·) := by
  unfold escaped? at h
  split at h <;> cases h <;> cases hcs : units? cs <;> simp [units?, escaped?, hcs]

lemma units?_code {n : Nat} (h : n < 0x20) (cs : List Char) :
    units? ('\\' :: 'u' :: '0' :: '0' :: hexDigit (n / 16) :: hexDigit (n % 16) :: cs) =
      (units? cs).map (.code n :: ·) := by
  have hzero : hexValue? '0' = some 0 := by decide
  have hcode : hexValue4? '0' '0' (hexDigit (n / 16)) (hexDigit (n % 16)) = some n := by
    simp [hexValue4?, hzero, hexValue?_hexDigit (n / 16) (by omega),
      hexValue?_hexDigit (n % 16) (by omega), Nat.div_add_mod']
  simp only [units?, hcode]
  cases units? cs <;> rfl

lemma units?_plain {c : Char} (hslash : c ≠ '\\') (h : 0x20 ≤ c.toNat) (cs : List Char) :
    units? (c :: cs) = (units? cs).map (.character c :: ·) := by
  have hnot : ¬(c = '\\' ∨ c.toNat < 0x20) := not_or.2 ⟨hslash, by omega⟩
  rw [units?.eq_def]
  split
  next heq => cases heq
  next heq => cases heq; exact absurd rfl hslash
  next heq => cases heq; exact absurd rfl hslash
  next heq =>
    cases heq
    rw [if_neg hnot]
    cases units? cs <;> rfl

lemma join?_code {n : Nat} (h : n < 0xD800) (us : List Unit16) :
    join? (.code n :: us) = (join? us).map (Char.ofNat n :: ·) := by
  have hleading : isLeading n = false := by simp [isLeading]; omega
  have htrailing : isTrailing n = false := by simp [isTrailing]; omega
  cases us with
  | nil => simp [join?, hleading, htrailing]
  | cons u us => cases u <;> simp [join?, hleading, htrailing]

/-- What a character is written as is one unit, which stands for the character. -/
lemma Escaped.exists_unit {c : Char} {t : List Char} (h : Escaped c t) :
    ∃ u, (∀ cs, units? (t ++ cs) = (units? cs).map (u :: ·)) ∧
      ∀ us, join? (u :: us) = (join? us).map (c :: ·) := by
  cases h with
  | letter e h => exact ⟨.character c, units?_letter h, fun us => by rw [join?]⟩
  | code h =>
    refine ⟨.code c.toNat, units?_code h, fun us => ?_⟩
    rw [join?_code (by omega), Char.ofNat_toNat]
  | plain hquote hslash h => exact ⟨.character c, units?_plain hslash h, fun us => by rw [join?]⟩

lemma exists_units (cs : List Char) :
    ∃ us, units? (cs.flatMap escape) = some us ∧ join? us = some cs := by
  induction cs with
  | nil => exact ⟨[], rfl, rfl⟩
  | cons c cs ih =>
    obtain ⟨us, hunits, hjoin⟩ := ih
    -- The units of a text are one for each character, so none of them are joined to a pair.
    obtain ⟨u, hunit, hc⟩ := (escaped_escape c).exists_unit
    refine ⟨u :: us, ?_, ?_⟩
    · rw [List.flatMap_cons, hunit, hunits, Option.map_some]
    · rw [hc, hjoin, Option.map_some]

/-- The inside of a written string stands for the text that was written. -/
theorem text?_inside (text : Option String) : text? (inside text) = some text := by
  cases text with
  | none => decide
  | some s =>
    obtain ⟨us, hunits, hjoin⟩ := exists_units s.toList
    rw [inside, text?, hunits, Option.map_some, hjoin, Option.map_some, String.ofList_toList]

/-! ## Cutting up -/

/-- Whether a character goes on with an atom. -/
def isAtomPart (c : Char) : Bool := !(c == '"' || isGap c || isMark c)

/-- Whether a text does not go on with an atom: it is at its end, or a blank or a mark follows. -/
def EndsAtom (rest : List Char) : Prop := ∀ c ∈ rest.head?, isGap c = true ∨ isMark c = true

lemma isAtomPart_iff {c : Char} :
    isAtomPart c = true ↔ c ≠ '"' ∧ isGap c = false ∧ isMark c = false := by
  simp [isAtomPart, and_assoc]

lemma endsAtom_cons {c : Char} (h : isGap c = true ∨ isMark c = true) (rest : List Char) :
    EndsAtom (c :: rest) := by
  intro d hd
  cases hd
  exact h

lemma EndsAtom.append {text rest : List Char} (ht : EndsAtom text) (hr : EndsAtom rest) :
    EndsAtom (text ++ rest) := by
  cases text with
  | nil => exact hr
  | cons c cs => exact endsAtom_cons (ht c rfl) _

lemma scan_gap {c : Char} (h : isGap c = true) (cs : List Char) : scan (c :: cs) = scan cs := by
  have hquote : c ≠ '"' := by rintro rfl; exact absurd h (by decide)
  simp [scan, scanFrom, Mode.ended, hquote, h]

lemma scan_mark {c : Char} (h : isMark c = true) (cs : List Char) :
    scan (c :: cs) = (scan cs).map (.mark c :: ·) := by
  have hquote : c ≠ '"' := by rintro rfl; exact absurd h (by decide)
  have hgap : isGap c = false := by
    by_contra hc
    simp only [isGap, isMark, Bool.not_eq_false, Bool.or_eq_true, beq_iff_eq] at hc h
    grind
  simp [scan, scanFrom, Mode.ended, hquote, h, hgap]

lemma scanFrom_inAtom {rest : List Char} (hrest : EndsAtom rest) (cs seen : List Char)
    (hcs : ∀ c ∈ cs, isAtomPart c = true) :
    scanFrom (.inAtom seen) (cs ++ rest) =
      (scan rest).map (.atom (seen.reverse ++ cs) :: ·) := by
  induction cs generalizing seen with
  | nil =>
    cases rest with
    | nil => simp [scan, scanFrom, Mode.ended]
    | cons c rest =>
      have hquote : c ≠ '"' := by
        rintro rfl
        exact absurd (hrest _ rfl) (by decide)
      -- A blank is passed over, while a mark is a lexeme of its own.
      by_cases hgap : isGap c = true
      · simp [scanFrom, Mode.ended, hquote, hgap, scan]
      · have hmark := (hrest c rfl).resolve_left hgap
        simp [scanFrom, Mode.ended, hquote, hgap, hmark, scan, Function.comp_def]
  | cons c cs ih =>
    obtain ⟨hc, hcs⟩ := List.forall_mem_cons.1 hcs
    obtain ⟨hquote, hgap, hmark⟩ := isAtomPart_iff.1 hc
    simp [scanFrom, Mode.atomWith, hquote, hgap, hmark, ih _ hcs]

/-- An atom ends where the text after it does not go on with one. -/
lemma scan_atom {cs rest : List Char} (hne : cs ≠ []) (hcs : ∀ c ∈ cs, isAtomPart c = true)
    (hrest : EndsAtom rest) : scan (cs ++ rest) = (scan rest).map (.atom cs :: ·) := by
  cases cs with
  | nil => exact absurd rfl hne
  | cons c cs =>
    obtain ⟨hc, hcs⟩ := List.forall_mem_cons.1 hcs
    obtain ⟨hquote, hgap, hmark⟩ := isAtomPart_iff.1 hc
    have hfrom := scanFrom_inAtom hrest cs [c] hcs
    simpa [scan, scanFrom, Mode.atomWith, hquote, hgap, hmark] using hfrom

lemma scanFrom_plain {c : Char} (hquote : c ≠ '"') (hslash : c ≠ '\\') (seen cs : List Char) :
    scanFrom (.inString seen false) (c :: cs) = scanFrom (.inString (c :: seen) false) cs := by
  rw [scanFrom, if_neg hquote, beq_eq_false_iff_ne.2 hslash]

lemma scanFrom_slash (e : Char) (seen cs : List Char) :
    scanFrom (.inString seen false) ('\\' :: e :: cs) =
      scanFrom (.inString (e :: '\\' :: seen) false) cs := rfl

lemma Escaped.scanFrom_append {c : Char} {t : List Char} (h : Escaped c t) (seen cs : List Char) :
    scanFrom (.inString seen false) (t ++ cs) =
      scanFrom (.inString (t.reverse ++ seen) false) cs := by
  cases h with
  | letter e h => exact scanFrom_slash e seen cs
  | code h =>
    -- The characters after the backslash are a letter and four digits, none of which is a quote.
    obtain ⟨hquote, hslash⟩ := hexDigit_ne (c.toNat / 16) (by omega)
    obtain ⟨hquote', hslash'⟩ := hexDigit_ne (c.toNat % 16) (by omega)
    have hzero : '0' ≠ '"' ∧ '0' ≠ '\\' := by decide
    simp only [List.cons_append, List.nil_append, scanFrom_slash, scanFrom_plain hzero.1 hzero.2,
      scanFrom_plain hquote hslash, scanFrom_plain hquote' hslash', List.reverse_cons,
      List.reverse_nil]
  | plain hquote hslash h => exact scanFrom_plain hquote hslash seen cs

lemma scanFrom_flatMap_escape (cs seen rest : List Char) :
    scanFrom (.inString seen false) (cs.flatMap escape ++ '"' :: rest) =
      (scan rest).map (.string (seen.reverse ++ cs.flatMap escape) :: ·) := by
  induction cs generalizing seen with
  | nil => simp [scanFrom, scan]
  | cons c cs ih =>
    rw [List.flatMap_cons, List.append_assoc, (escaped_escape c).scanFrom_append, ih]
    simp

lemma scan_quote (text : Option String) (rest : List Char) :
    scan (quote text ++ rest) = (scan rest).map (.string (inside text) :: ·) := by
  have hopen (cs : List Char) : scan ('"' :: cs) = scanFrom (.inString [] false) cs := by
    simp [scan, scanFrom, Mode.ended]
  rw [quote_eq, List.cons_append, List.append_assoc, hopen]
  cases text with
  | some s => exact scanFrom_flatMap_escape s.toList [] rest
  | none => rfl

/-- A text gives lexemes and leaves alone what follows it, unless that goes on with an atom. -/
def Scans (text : List Char) (lexemes : List Lexeme) : Prop :=
  ∀ rest, EndsAtom rest → scan (text ++ rest) = (scan rest).map (lexemes ++ ·)

namespace Scans

variable {a b : List Char} {la lb : List Lexeme}

lemma nil : Scans [] [] := by
  intro rest _
  cases h : scan rest <;> simp [h]

lemma append (ha : Scans a la) (hb : Scans b lb) (hends : EndsAtom b) :
    Scans (a ++ b) (la ++ lb) := by
  intro rest hrest
  rw [List.append_assoc, ha _ (hends.append hrest), hb _ hrest, Option.map_map]
  simp [Function.comp_def]

lemma gap {c : Char} (hc : isGap c = true) (hb : Scans b lb) : Scans (c :: b) lb := by
  intro rest hrest
  rw [List.cons_append, scan_gap hc, hb _ hrest]

lemma mark {c : Char} (hc : isMark c = true) (hb : Scans b lb) :
    Scans (c :: b) (.mark c :: lb) := by
  intro rest hrest
  rw [List.cons_append, scan_mark hc, hb _ hrest, Option.map_map]
  simp [Function.comp_def]

lemma string (text : Option String) (hb : Scans b lb) :
    Scans (quote text ++ b) (.string (inside text) :: lb) := by
  intro rest hrest
  rw [List.append_assoc, scan_quote, hb _ hrest, Option.map_map]
  simp [Function.comp_def]

lemma newLine (depth : Nat) (hb : Scans b lb) : Scans (Json.newLine depth ++ b) lb := by
  have hblanks (n : Nat) : Scans (List.replicate n ' ' ++ b) lb := by
    induction n with
    | zero => exact hb
    | succ n ih => exact ih.gap (by decide)
  exact (hblanks (2 * depth)).gap (by decide)

lemma atom (h : a ≠ [] ∧ ∀ c ∈ a, isAtomPart c = true) : Scans a [.atom a] := by
  intro rest hrest
  exact scan_atom h.1 h.2 hrest

end Scans

lemma isAtomPart_of_isDigit {c : Char} (h : c.isDigit = true) : isAtomPart c = true := by
  have hne {d : Char} (hd : d.isDigit = false) : c ≠ d := by
    rintro rfl
    exact Bool.false_ne_true (hd.symm.trans h)
  simp [isAtomPart_iff, isGap, isMark, hne]

lemma isAtomPart_of_mem_numeral {n : JsonNumber} : ∀ c ∈ numeral n, isAtomPart c = true := by
  have hdigit {n : Nat} : ∀ c ∈ Nat.toDigits 10 n, isAtomPart c = true := fun c hc =>
    isAtomPart_of_isDigit (isDigit_of_mem_toDigits c hc)
  have hsign {negative : Bool} : ∀ c ∈ sign negative, isAtomPart c = true := by
    intro c hc
    cases negative with
    | false => cases hc
    | true => rw [List.mem_singleton.1 hc]; rfl
  have he : isAtomPart 'e' = true := by decide
  intro c hc
  cases n <;> simp only [numeral, List.mem_append, List.mem_cons] at hc <;> grind

lemma scans_numeral (n : JsonNumber) : Scans (numeral n) [.atom (numeral n)] := by
  have hne : numeral n ≠ [] := by cases n <;> simp [numeral, Nat.toDigits_ne_nil]
  exact Scans.atom ⟨hne, isAtomPart_of_mem_numeral⟩

end Lexeme

/-- The written form of a number is an atom that stands for the number. -/
theorem ofAtom?_numeral {n : JsonNumber} (h : n.IsKept) :
    ofAtom? (numeral n) = some (number n) := by
  have hread := Lexeme.number?_numeral h
  have hword (word : List Char) (hnone : Lexeme.number? word = none) : numeral n ≠ word := by
    rintro rfl
    rw [hread] at hnone
    cases hnone
  rw [ofAtom?, if_neg (hword ['n', 'u', 'l', 'l'] rfl), if_neg (hword ['t', 'r', 'u', 'e'] rfl),
    if_neg (hword ['f', 'a', 'l', 's', 'e'] rfl), hread, Option.map_some]

end Json
end StripAutomata
