import Mathlib.Data.List.TakeWhile
import StripAutomata.Condition.Item
import StripAutomata.Proofs.Item.Numbers
import StripAutomata.RuleText.OutputItem

/-!
# Item words as a grammar

The words of rule text are `[time/][position.][sign]name` in a condition and `[step/][offset.]name`
among outputs.  Here the two patterns are relations between the characters of a word and what the
word says, put together from optional parts:

* `OffsetPart mark` is an offset and its mark, or nothing, which stands for zero;
* `StepPart` is a step, which has no sign, and a slash, or nothing, which stands for one.

`Condition.readLiteral_eq_ok_iff` and `RuleText.readOutput_eq_ok_iff` say that a word is read
exactly if it has the pattern, and as what the pattern says.  Since the readers are functions,
no word has two readings.
-/

namespace StripAutomata

namespace Item

/-! ## The parts of a word -/

/-- An offset and the mark that ends it, or nothing, which stands for zero. -/
inductive OffsetPart (mark : Char) : List Char → Int → Prop
  | absent : OffsetPart mark [] 0
  | present {cs : List Char} {z : Int} (hcs : SpellsOffset cs z) (hz : IsOffset z) :
      OffsetPart mark (cs ++ [mark]) z

/-- A step and the slash that ends it, or nothing, which stands for one. -/
inductive StepPart : List Char → Nat → Prop
  | absent : StepPart [] 1
  | present {digits : List Char} (hdigits : IsDigits digits)
      (hbound : valueOf digits < Numeral.stepBound) : StepPart (digits ++ ['/']) (valueOf digits)

lemma OffsetPart.isOffset {mark : Char} {part : List Char} {z : Int} (h : OffsetPart mark part z) :
    IsOffset z := by
  cases h with
  | absent => unfold IsOffset; omega
  | present hcs hz => exact hz

lemma StepPart.lt_stepBound {part : List Char} {n : Nat} (h : StepPart part n) :
    n < Numeral.stepBound := by
  cases h with
  | absent => unfold Numeral.stepBound; omega
  | present hdigits hbound => exact hbound

/-! ## Splitting digits off -/

/-- Digits and the character that ends them. -/
lemma takeWhile_digits {c : Char} (hc : Text.isDecimalDigit c = false) {digits : List Char}
    (hdigits : ∀ d ∈ digits, Text.isDecimalDigit d = true) (rest : List Char) :
    (digits ++ c :: rest).takeWhile Text.isDecimalDigit = digits ∧
      (digits ++ c :: rest).dropWhile Text.isDecimalDigit = c :: rest := by
  constructor
  · rw [List.takeWhile_append_of_pos hdigits, List.takeWhile_cons_of_neg (by simp [hc]),
      List.append_nil]
  · rw [List.dropWhile_append_of_pos hdigits, List.dropWhile_cons_of_neg (by simp [hc])]

lemma splitDigits?_append (mark : Char) {c : Char} (hc : Text.isDecimalDigit c = false)
    {digits : List Char} (hne : digits ≠ [])
    (hdigits : ∀ d ∈ digits, Text.isDecimalDigit d = true) (rest : List Char) :
    splitDigits? mark (digits ++ c :: rest) = if c = mark then some (digits, rest) else none := by
  obtain ⟨htake, hdrop⟩ := takeWhile_digits hc hdigits rest
  unfold splitDigits?
  rw [htake, hdrop]
  cases digits with
  | nil => exact absurd rfl hne
  | cons d ds => rfl

lemma splitDigits?_eq_some_iff {mark : Char} (hmark : Text.isDecimalDigit mark = false)
    {cs digits rest : List Char} :
    splitDigits? mark cs = some (digits, rest) ↔
      cs = digits ++ mark :: rest ∧ digits ≠ [] ∧ ∀ c ∈ digits, Text.isDecimalDigit c = true := by
  constructor
  · intro h
    have hcut := List.takeWhile_append_dropWhile (p := Text.isDecimalDigit) (l := cs)
    have hall : ∀ c ∈ cs.takeWhile Text.isDecimalDigit, Text.isDecimalDigit c = true :=
      fun c hc => List.mem_takeWhile_imp hc
    unfold splitDigits? at h
    -- The characters are cut behind the digits that they begin with.
    generalize cs.takeWhile Text.isDecimalDigit = before at h hcut hall
    generalize cs.dropWhile Text.isDecimalDigit = after at h hcut
    rcases before with _ | ⟨d, ds⟩
    · cases h
    · rcases after with _ | ⟨c, tail⟩
      · cases h
      · simp only [Option.ite_none_right_eq_some, Option.some.injEq, Prod.mk.injEq] at h
        obtain ⟨rfl, rfl, rfl⟩ := h
        exact ⟨hcut.symm, by simp, hall⟩
  · rintro ⟨rfl, hne, hdigits⟩
    rw [splitDigits?_append mark hmark hne hdigits, if_pos rfl]

/-- No number is split off where the digits are ended by another character than the mark. -/
lemma splitDigits?_eq_none {mark c : Char} (hc : Text.isDecimalDigit c = false) (hne : c ≠ mark)
    {digits : List Char} (hdigits : ∀ d ∈ digits, Text.isDecimalDigit d = true)
    (rest : List Char) : splitDigits? mark (digits ++ c :: rest) = none := by
  by_cases hempty : digits = []
  · subst hempty
    obtain ⟨htake, -⟩ := takeWhile_digits hc hdigits rest
    unfold splitDigits?
    rw [htake]
  · rw [splitDigits?_append mark hc hempty hdigits, if_neg hne]

/-! ## Splitting signs off -/

lemma splitSign_append {sign cs : List Char} {negative : Bool} (hsign : SignPart sign negative)
    (hcs : ∀ c ∈ cs.head?, c ≠ '-' ∧ c ≠ '+') : splitSign (sign ++ cs) = (sign, cs) := by
  cases hsign with
  | plus => rfl
  | minus => rfl
  | absent =>
    cases cs with
    | nil => rfl
    | cons c cs =>
      obtain ⟨hminus, hplus⟩ := hcs c rfl
      simp [splitSign, hminus, hplus]

lemma signPart_of_splitSign {cs sign rest : List Char} (h : splitSign cs = (sign, rest)) :
    SignPart sign (sign == ['-']) ∧ cs = sign ++ rest := by
  unfold splitSign at h
  split at h <;> cases h
  · exact ⟨SignPart.plus, rfl⟩
  · exact ⟨SignPart.minus, rfl⟩
  · exact ⟨SignPart.absent, rfl⟩

/-! ## Splitting offsets and steps off -/

lemma exists_ok_of_bind {ε α β : Type} {x : Except ε α} {next : α → Except ε β} {b : β}
    (h : (x >>= next) = .ok b) : ∃ a, x = .ok a ∧ next a = .ok b := by
  cases x with
  | error e => cases h
  | ok a => exact ⟨a, rfl, h⟩

/-- What is split off as an offset and has a value is an offset part. -/
lemma offsetPart_of_splitOffset {mark : Char} (hmark : Text.isDecimalDigit mark = false)
    {cs rest : List Char} {o : Option (List Char)} {z : Int}
    (h : splitOffset mark cs = (o, rest)) (hz : offsetOrZero o = .ok z) :
    ∃ part, OffsetPart mark part z ∧ cs = part ++ rest := by
  obtain ⟨sign, unsigned, hsplitSign⟩ : ∃ a b, splitSign cs = (a, b) := ⟨_, _, rfl⟩
  obtain ⟨-, hcs⟩ := signPart_of_splitSign hsplitSign
  rw [splitOffset, hsplitSign] at h
  split at h
  next digits tail hsplit =>
    obtain ⟨rfl, rfl⟩ := Prod.mk.inj h
    obtain ⟨htail, -, -⟩ := (splitDigits?_eq_some_iff hmark).1 hsplit
    refine ⟨sign ++ digits ++ [mark], ?_, ?_⟩
    · -- The sign and the digits are read together as one offset.
      unfold offsetOrZero at hz
      split at hz
      next heq => cases heq
      next text heq =>
        cases heq
        split at hz
        next n hn =>
          cases hz
          obtain ⟨hspells, hn⟩ := offset?_eq_some_iff.1 hn
          exact OffsetPart.present hspells hn
        next => cases hz
    · rw [List.append_assoc, List.append_assoc, List.singleton_append, ← htail]
      exact hcs
  next hsplit =>
    obtain ⟨rfl, rfl⟩ := Prod.mk.inj h
    cases hz
    exact ⟨[], OffsetPart.absent, rfl⟩

/-- An offset part is split off, and its value is read. -/
lemma splitOffset_part {mark : Char} (hmark : Text.isDecimalDigit mark = false)
    {part rest : List Char} {z : Int} (hpart : OffsetPart mark part z)
    (hrest : splitOffset mark rest = (none, rest)) :
    ∃ o, splitOffset mark (part ++ rest) = (o, rest) ∧ offsetOrZero o = .ok z := by
  cases hpart with
  | absent => exact ⟨none, hrest, rfl⟩
  | @present cs _ hcs hz =>
    have hread := offset?_eq_some_iff.2 ⟨hcs, hz⟩
    refine ⟨some cs, ?_, by simp [offsetOrZero, hread]⟩
    obtain ⟨hsign, hdigits⟩ := hcs
    rename_i sign digits negative
    have hhead := hdigits.head_ne_sign (mark :: rest)
    have hsplit : splitDigits? mark (digits ++ mark :: rest) = some (digits, rest) :=
      (splitDigits?_eq_some_iff hmark).2
        ⟨rfl, hdigits.1, fun c hc => Text.isDecimalDigit_of_isDigit (hdigits.2 c hc)⟩
    simp [splitOffset, List.append_assoc, splitSign_append hsign hhead, hsplit]

/-- No offset is split off where the digits after the sign are ended by another character than the
mark. -/
lemma splitOffset_eq_none {mark c : Char} (hc : Text.isDecimalDigit c = false) (hne : c ≠ mark)
    {sign digits : List Char} {negative : Bool} (hsign : SignPart sign negative)
    (hdigits : ∀ d ∈ digits, Text.isDecimalDigit d = true)
    (rest : List Char) (hhead : ∀ d ∈ (digits ++ c :: rest).head?, d ≠ '-' ∧ d ≠ '+') :
    splitOffset mark (sign ++ (digits ++ c :: rest)) = (none, sign ++ (digits ++ c :: rest)) := by
  simp [splitOffset, splitSign_append hsign hhead, splitDigits?_eq_none hc hne hdigits]

/-- What is split off as a step and has a value is a step part. -/
lemma stepPart_of_splitCount {cs rest : List Char} {o : Option (List Char)} {n : Nat}
    (h : splitCount '/' cs = (o, rest)) (hn : stepOrOne o = .ok n) :
    ∃ part, StepPart part n ∧ cs = part ++ rest := by
  unfold splitCount at h
  split at h
  next digits tail hsplit =>
    obtain ⟨rfl, rfl⟩ := Prod.mk.inj h
    obtain ⟨rfl, -, -⟩ := (splitDigits?_eq_some_iff (by decide)).1 hsplit
    refine ⟨digits ++ ['/'], ?_, by simp⟩
    unfold stepOrOne at hn
    split at hn
    next heq => cases heq
    next text heq =>
      cases heq
      split at hn
      next m hm =>
        cases hn
        obtain ⟨hdigits, rfl, hbound⟩ := (digits?_eq_some_iff (by decide)).1 hm
        exact StepPart.present hdigits hbound
      next => cases hn
  next hsplit =>
    obtain ⟨rfl, rfl⟩ := Prod.mk.inj h
    cases hn
    exact ⟨[], StepPart.absent, rfl⟩

lemma splitCount_part {part rest : List Char} {n : Nat} (hpart : StepPart part n)
    (hrest : splitCount '/' rest = (none, rest)) :
    ∃ o, splitCount '/' (part ++ rest) = (o, rest) ∧ stepOrOne o = .ok n := by
  cases hpart with
  | absent => exact ⟨none, hrest, rfl⟩
  | @present digits hdigits hbound =>
    have hread : Numeral.digits? Numeral.stepBound digits = some (valueOf digits) :=
      (digits?_eq_some_iff (by decide)).2 ⟨hdigits, rfl, hbound⟩
    have hsplit : splitDigits? '/' (digits ++ '/' :: rest) = some (digits, rest) :=
      (splitDigits?_eq_some_iff (by decide)).2
        ⟨rfl, hdigits.1, fun c hc => Text.isDecimalDigit_of_isDigit (hdigits.2 c hc)⟩
    exact ⟨some digits, by simp [splitCount, hsplit], by simp [stepOrOne, hread]⟩

/-! ## Names -/

lemma isName_iff {cs : List Char} :
    isName cs = true ↔ ∃ c rest, cs = c :: rest ∧ Text.isNameStart c = true ∧
      ∀ d ∈ rest, Text.isWordChar d = true := by
  cases cs with
  | nil => simp [isName]
  | cons c rest => simp [isName, List.all_eq_true]

lemma isWordChar_of_mem_name {cs : List Char} (h : isName cs = true) :
    ∀ c ∈ cs, Text.isWordChar c = true := by
  obtain ⟨c, rest, rfl, hc, hrest⟩ := isName_iff.1 h
  exact List.forall_mem_cons.2 ⟨Text.isWordChar_of_isNameStart hc, hrest⟩

lemma head_name_ne_sign {name : List Char} (h : isName name = true) :
    ∀ c ∈ name.head?, c ≠ '-' ∧ c ≠ '+' := by
  obtain ⟨c, rest, rfl, hc, -⟩ := isName_iff.1 h
  intro d hd
  cases hd
  constructor <;> rintro rfl <;> exact absurd hc (by decide)

/-- No offset is split off a name, nor off a name with a sign. -/
lemma splitOffset_name {mark : Char} (hmark : Text.isNameStart mark = false) {sign name : List Char}
    {negative : Bool} (hsign : SignPart sign negative) (hname : isName name = true) :
    splitOffset mark (sign ++ name) = (none, sign ++ name) := by
  have hhead := head_name_ne_sign hname
  obtain ⟨c, rest, rfl, hc, -⟩ := isName_iff.1 hname
  -- The first letter ends the empty row of digits before it.
  have hne : c ≠ mark := by
    rintro rfl
    rw [hc] at hmark
    exact Bool.noConfusion hmark
  exact splitOffset_eq_none (Text.isDecimalDigit_of_isNameStart hc) hne hsign
    (List.forall_mem_nil _) rest hhead

lemma splitOffset_other {mark other : Char} (hother : Text.isDecimalDigit other = false)
    (hne : other ≠ mark) {cs : List Char} {z : Int} (hcs : SpellsOffset cs z) (rest : List Char) :
    splitOffset mark (cs ++ [other] ++ rest) = (none, cs ++ [other] ++ rest) := by
  obtain ⟨hsign, hdigits⟩ := hcs
  have h := splitOffset_eq_none hother hne hsign
    (fun d hd => Text.isDecimalDigit_of_isDigit (hdigits.2 d hd)) rest (hdigits.head_ne_sign _)
  simpa only [List.append_assoc, List.singleton_append] using h

lemma splitCount_name {name : List Char} (hname : isName name = true) :
    splitCount '/' name = (none, name) := by
  obtain ⟨c, rest, rfl, hc, -⟩ := isName_iff.1 hname
  have hne : c ≠ '/' := by rintro rfl; exact absurd hc (by decide)
  have hnone : splitDigits? '/' ([] ++ c :: rest) = none :=
    splitDigits?_eq_none (Text.isDecimalDigit_of_isNameStart hc) hne (by simp) rest
  rw [List.nil_append] at hnone
  rw [splitCount, hnone]

lemma splitCount_offset {cs : List Char} {z : Int} (hcs : SpellsOffset cs z) (rest : List Char) :
    splitCount '/' (cs ++ ['.'] ++ rest) = (none, cs ++ ['.'] ++ rest) := by
  have hnone : splitDigits? '/' (cs ++ ['.'] ++ rest) = none := by
    obtain ⟨hsign, hdigits⟩ := hcs
    have hdecimal := fun d hd => Text.isDecimalDigit_of_isDigit (hdigits.2 d hd)
    simp only [List.append_assoc, List.singleton_append]
    -- A sign ends the empty row of digits before it; without one, the point does.
    cases hsign with
    | absent => exact splitDigits?_eq_none (by decide) (by decide) hdecimal rest
    | plus => exact splitDigits?_eq_none (by decide) (by decide) (List.forall_mem_nil _) _
    | minus => exact splitDigits?_eq_none (by decide) (by decide) (List.forall_mem_nil _) _
  rw [splitCount, hnone]

/-- No time is split off the rest of a literal. -/
lemma splitOffset_position {position sign name : List Char} {p : Int} {negative : Bool}
    (hposition : OffsetPart '.' position p) (hsign : SignPart sign negative)
    (hname : isName name = true) :
    splitOffset '/' (position ++ (sign ++ name)) = (none, position ++ (sign ++ name)) := by
  cases hposition with
  | absent =>
    rw [List.nil_append]
    exact splitOffset_name (by decide) hsign hname
  | present hcs hz => exact splitOffset_other (by decide) (by decide) hcs _

/-- No step is split off the rest of an output. -/
lemma splitCount_position {offset name : List Char} {n : Int}
    (hoffset : OffsetPart '.' offset n) (hname : isName name = true) :
    splitCount '/' (offset ++ name) = (none, offset ++ name) := by
  cases hoffset with
  | absent =>
    rw [List.nil_append]
    exact splitCount_name hname
  | present hcs hz => exact splitCount_offset hcs name

/-! ## The characters of a word -/

/-- Whether a character may stand in an item word. -/
def isItemChar (c : Char) : Bool :=
  Text.isWordChar c || c == '+' || c == '-' || c == '.' || c == '/'

lemma isItemChar_of_isWordChar {c : Char} (h : Text.isWordChar c = true) :
    isItemChar c = true := by
  simp [isItemChar, h]

/-- A character of an item word goes on with a word of a condition, and so is no blank. -/
lemma isWordPart_of_isItemChar {c : Char} (h : isItemChar c = true) :
    Condition.isWordPart c = true := by
  simp only [isItemChar, Bool.or_eq_true, beq_iff_eq] at h
  rcases h with (((h | rfl) | rfl) | rfl) | rfl
  · exact Condition.isWordPart_of_isWordChar h
  all_goals decide

lemma isItemChar_of_mem_sign {sign : List Char} {negative : Bool} (h : SignPart sign negative) :
    ∀ c ∈ sign, isItemChar c = true := by
  cases h with
  | absent => exact List.forall_mem_nil _
  | plus => exact List.forall_mem_singleton.2 rfl
  | minus => exact List.forall_mem_singleton.2 rfl

lemma isItemChar_of_mem_offset {cs : List Char} {z : Int} (h : SpellsOffset cs z) :
    ∀ c ∈ cs, isItemChar c = true := by
  obtain ⟨hsign, hdigits⟩ := h
  intro c hc
  rcases List.mem_append.1 hc with hc | hc
  · exact isItemChar_of_mem_sign hsign c hc
  · exact isItemChar_of_isWordChar (Text.isWordChar_of_isDigit (hdigits.2 c hc))

lemma isItemChar_of_mem_offsetPart {mark : Char} (hmark : isItemChar mark = true)
    {part : List Char} {z : Int} (h : OffsetPart mark part z) :
    ∀ c ∈ part, isItemChar c = true := by
  cases h with
  | absent => exact List.forall_mem_nil _
  | present hcs hz =>
    intro c hc
    rcases List.mem_append.1 hc with hc | hc
    · exact isItemChar_of_mem_offset hcs c hc
    · rwa [List.mem_singleton.1 hc]

lemma isItemChar_of_mem_stepPart {part : List Char} {n : Nat} (h : StepPart part n) :
    ∀ c ∈ part, isItemChar c = true := by
  intro c hc
  cases h with
  | absent => cases hc
  | present hdigits hbound =>
    rcases List.mem_append.1 hc with hc | hc
    · exact isItemChar_of_isWordChar (Text.isWordChar_of_isDigit (hdigits.2 c hc))
    · cases List.mem_singleton.1 hc; decide

lemma isItemChar_of_mem_name {name : List Char} (h : isName name = true) :
    ∀ c ∈ name, isItemChar c = true :=
  fun c hc => isItemChar_of_isWordChar (isWordChar_of_mem_name h c hc)

lemma name_ne_nil {name : List Char} (h : isName name = true) : name ≠ [] := by
  obtain ⟨c, rest, rfl, -⟩ := isName_iff.1 h
  exact List.cons_ne_nil _ _

end Item

/-! ## Literals -/

namespace Condition

open Item

/-- The characters of a literal: `[time/][position.][sign]name`. -/
inductive LiteralWord : List Char → Literal String → Bool → Prop
  | intro {time position sign name : List Char} {t p : Int} {negative : Bool}
      (htime : OffsetPart '/' time t) (hposition : OffsetPart '.' position p)
      (hsign : SignPart sign negative) (hname : isName name = true) :
      LiteralWord (time ++ (position ++ (sign ++ name))) ⟨String.ofList name, p, t⟩ negative

lemma literalWord_of_readLiteral {w : String} {l : Literal String} {negative : Bool}
    (h : readLiteral w = .ok (l, negative)) : LiteralWord w.toList l negative := by
  obtain ⟨time, afterTime, htime⟩ : ∃ a b, splitOffset '/' w.toList = (a, b) := ⟨_, _, rfl⟩
  obtain ⟨position, afterPosition, hposition⟩ : ∃ a b, splitOffset '.' afterTime = (a, b) :=
    ⟨_, _, rfl⟩
  obtain ⟨sign, name, hsplitSign⟩ : ∃ a b, splitSign afterPosition = (a, b) := ⟨_, _, rfl⟩
  obtain ⟨hsign, rfl⟩ := signPart_of_splitSign hsplitSign
  simp only [readLiteral, htime, hposition, hsplitSign] at h
  split at h
  next hname =>
    obtain ⟨t, ht, h⟩ := exists_ok_of_bind h
    obtain ⟨p, hp, h⟩ := exists_ok_of_bind h
    cases h
    obtain ⟨tpart, htpart, htext⟩ := offsetPart_of_splitOffset (by decide) htime ht
    obtain ⟨ppart, hppart, hafter⟩ := offsetPart_of_splitOffset (by decide) hposition hp
    rw [htext, hafter]
    exact LiteralWord.intro htpart hppart hsign hname
  next => cases h

lemma readLiteral_of_literalWord {w : String} {l : Literal String} {negative : Bool}
    (h : LiteralWord w.toList l negative) : readLiteral w = .ok (l, negative) := by
  generalize hw : w.toList = cs at h
  obtain ⟨htime, hposition, hsign, hname⟩ := h
  rename_i time position sign name t p
  -- Each split takes the part that is there, because it would take nothing off the parts behind it.
  obtain ⟨o, hsplit, ht⟩ :=
    splitOffset_part (by decide) htime (splitOffset_position hposition hsign hname)
  obtain ⟨o', hsplit', hp⟩ :=
    splitOffset_part (by decide) hposition (splitOffset_name (by decide) hsign hname)
  have hsplitSign := splitSign_append hsign (head_name_ne_sign hname)
  have hnegative : (sign == ['-']) = negative := by cases hsign <;> rfl
  simp [readLiteral, hw, hsplit, hsplit', hsplitSign, hname, ht, hp, hnegative, bind,
    Except.bind, pure, Except.pure]

/-- A word is read as a literal exactly if it has the pattern of a literal, with offsets of 32
bits. -/
theorem readLiteral_eq_ok_iff {w : String} {l : Literal String} {negative : Bool} :
    readLiteral w = .ok (l, negative) ↔ LiteralWord w.toList l negative :=
  ⟨literalWord_of_readLiteral, readLiteral_of_literalWord⟩

end Condition

/-! ## Outputs -/

namespace RuleText

open Item

/-- The characters of an output: `[step/][offset.]name`, where an output of the same step has no
offset other than zero. -/
inductive OutputWord : List Char → Output String → Prop
  | intro {step offset name : List Char} {t : Nat} {n : Int}
      (hstep : StepPart step t) (hoffset : OffsetPart '.' offset n) (hname : isName name = true)
      (hsame : t = 0 → n = 0) :
      OutputWord (step ++ (offset ++ name)) ⟨n, String.ofList name, t⟩

/-- How the parts of an output are read. -/
lemma readOutput_parts {step offset name : List Char} {t : Nat} {n : Int} (hstep : StepPart step t)
    (hoffset : OffsetPart '.' offset n) (hname : isName name = true) :
    readOutput (step ++ (offset ++ name)) =
      if t = 0 ∧ n ≠ 0 then .error .sameStepElsewhere else .ok ⟨n, String.ofList name, t⟩ := by
  have hbare : splitOffset '.' name = (none, name) :=
    splitOffset_name (by decide) SignPart.absent hname
  obtain ⟨o, hsplit, ht⟩ := splitCount_part hstep (splitCount_position hoffset hname)
  obtain ⟨o', hsplit', hn⟩ := splitOffset_part (by decide) hoffset hbare
  simp only [readOutput, hsplit, hsplit', hname, ht, hn, bind, Except.bind]
  rfl

/-- A word is read as an output exactly if it has the pattern of an output, with numbers of 32
bits. -/
theorem readOutput_eq_ok_iff {w : List Char} {o : Output String} :
    readOutput w = .ok o ↔ OutputWord w o := by
  constructor
  · intro h
    obtain ⟨step, afterStep, hstep⟩ : ∃ a b, splitCount '/' w = (a, b) := ⟨_, _, rfl⟩
    obtain ⟨offset, name, hoffset⟩ : ∃ a b, splitOffset '.' afterStep = (a, b) := ⟨_, _, rfl⟩
    simp only [readOutput, hstep, hoffset] at h
    split at h
    next hname =>
      obtain ⟨t, ht, h⟩ := exists_ok_of_bind h
      obtain ⟨n, hn, h⟩ := exists_ok_of_bind h
      split at h
      next => cases h
      next hsame =>
        cases h
        obtain ⟨spart, hspart, rfl⟩ := stepPart_of_splitCount hstep ht
        obtain ⟨opart, hopart, rfl⟩ := offsetPart_of_splitOffset (by decide) hoffset hn
        refine OutputWord.intro hspart hopart hname fun hzero => ?_
        by_contra hne
        exact hsame ⟨hzero, hne⟩
    next => cases h
  · rintro ⟨hstep, hoffset, hname, hsame⟩
    rw [readOutput_parts hstep hoffset hname]
    exact if_neg fun h => h.2 (hsame h.1)

end RuleText
end StripAutomata
