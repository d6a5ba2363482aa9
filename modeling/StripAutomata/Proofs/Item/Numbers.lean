import Mathlib.Tactic.Common
import StripAutomata.Item
import StripAutomata.Proofs.Text.Cutting

/-!
# Numbers in words

A number in a word is a row of ASCII digits, with or without a sign.  `SpellsOffset` relates the
characters to the number, and `offset?_eq_some_iff` says that a number is read exactly if it is
spelled and is an offset, that is, has at most 32 bits.  Digits of other scripts have the shape of
a number but spell none.

The written form of a number is one of its spellings (`spellsOffset_toString`).
-/

namespace StripAutomata.Item

/-! ## Spelled numbers -/

/-- An optional sign, and whether it is a minus. -/
inductive SignPart : List Char → Bool → Prop
  | absent : SignPart [] false
  | plus : SignPart ['+'] false
  | minus : SignPart ['-'] true

/-- A row of ASCII digits. -/
def IsDigits (cs : List Char) : Prop := cs ≠ [] ∧ ∀ c ∈ cs, c.isDigit = true

/-- The number that digits spell in decimal. -/
def valueOf (digits : List Char) : Nat := Nat.ofDigitChars 10 digits 0

/-- The number with a sign put before it. -/
def withSign (negative : Bool) (n : Nat) : Int := if negative then -(n : Int) else n

/-- Whether a number is an offset: a signed number of 32 bits. -/
def IsOffset (z : Int) : Prop := -0x80000000 ≤ z ∧ z < 0x80000000

/-- Digits with an optional sign, and the number that they spell. -/
inductive SpellsOffset : List Char → Int → Prop
  | intro {sign digits : List Char} {negative : Bool} (hsign : SignPart sign negative)
      (hdigits : IsDigits digits) :
      SpellsOffset (sign ++ digits) (withSign negative (valueOf digits))

/-! ## Reading numbers -/

lemma digitValue?_of_isDigit {c : Char} (h : c.isDigit = true) :
    Numeral.digitValue? c = some (c.toNat - '0'.toNat) := by
  rw [Numeral.digitValue?, if_pos h]

/-- Going on with digits never makes the number smaller. -/
lemma le_ofDigitChars (cs : List Char) (n : Nat) : n ≤ Nat.ofDigitChars 10 cs n := by
  rw [Nat.ofDigitChars_eq_ofDigitChars_zero]
  have hpow : 1 ≤ 10 ^ cs.length := Nat.one_le_pow _ _ (by decide)
  calc
    n = 1 * n := (Nat.one_mul n).symm
    _ ≤ 10 ^ cs.length * n := Nat.mul_le_mul_right n hpow
    _ ≤ 10 ^ cs.length * n + Nat.ofDigitChars 10 cs 0 := Nat.le_add_right ..

/-- Since the value only grows, it is enough that the number at the end is below the bound. -/
lemma extend_eq_ok_iff {bound value n : Nat} {cs : List Char} (hvalue : value < bound) :
    Numeral.extend bound value cs = .ok n ↔
      (∀ c ∈ cs, c.isDigit = true) ∧ n = Nat.ofDigitChars 10 cs value ∧ n < bound := by
  induction cs generalizing value with
  | nil =>
    simp only [Numeral.extend, Except.ok.injEq, List.not_mem_nil, false_implies, implies_true,
      Nat.ofDigitChars_nil, true_and]
    constructor
    · rintro rfl
      exact ⟨rfl, hvalue⟩
    · exact fun h => h.1.symm
  | cons c cs ih =>
    by_cases hc : c.isDigit = true
    · simp only [Numeral.extend, digitValue?_of_isDigit hc, List.forall_mem_cons, hc, true_and,
        Nat.ofDigitChars_cons, Nat.mul_comm 10 value]
      -- A value that has reached the bound can only grow, so the number is not below it.
      split
      next hlt => exact ih hlt
      next hle =>
        simp only [reduceCtorEq, false_iff]
        rintro ⟨-, rfl, hlt⟩
        exact hle (Nat.lt_of_le_of_lt (le_ofDigitChars cs _) hlt)
    · simp [Numeral.extend, Numeral.digitValue?, hc]

lemma lt_of_unsigned_eq_ok {bound n : Nat} (hbound : 0 < bound) {cs : List Char}
    (h : Numeral.unsigned bound cs = .ok n) : n < bound := by
  unfold Numeral.unsigned at h
  split at h
  next => cases h
  next => cases h
  next => exact ((extend_eq_ok_iff hbound).1 h).2.2
  next => exact ((extend_eq_ok_iff hbound).1 h).2.2

lemma digits?_eq_some_iff {bound n : Nat} (hbound : 0 < bound) {cs : List Char} :
    Numeral.digits? bound cs = some n ↔ IsDigits cs ∧ n = valueOf cs ∧ n < bound := by
  -- No digits are no number, although reading on from zero would make them one.
  by_cases hcs : cs = []
  · simp [Numeral.digits?, hcs, IsDigits]
  · have hread : (Numeral.extend bound 0 cs).toOption = some n ↔
        Numeral.extend bound 0 cs = .ok n := by
      cases Numeral.extend bound 0 cs <;> simp [Except.toOption]
    rw [Numeral.digits?, if_neg (by simp [hcs]), hread, extend_eq_ok_iff hbound, IsDigits, valueOf]
    simp [hcs]

/-- The number of values that digits may have after a sign: below zero there is one more. -/
def roomAfter (negative : Bool) : Nat :=
  if negative then Numeral.offsetBound + 1 else Numeral.offsetBound

lemma lt_roomAfter_iff {negative : Bool} {n : Nat} :
    n < roomAfter negative ↔ IsOffset (withSign negative n) := by
  cases negative <;> simp only [roomAfter, IsOffset, withSign, Numeral.offsetBound] <;> grind

lemma digits?_roomAfter_eq_some_iff {negative : Bool} {cs : List Char} {n : Nat} :
    Numeral.digits? (roomAfter negative) cs = some n ↔
      IsDigits cs ∧ n = valueOf cs ∧ IsOffset (withSign negative n) := by
  rw [← lt_roomAfter_iff]
  exact digits?_eq_some_iff (by cases negative <;> decide)

lemma offset?_minus (cs : List Char) :
    Numeral.offset? ('-' :: cs) = (Numeral.digits? (roomAfter true) cs).map (withSign true) := by
  simp only [Numeral.offset?, roomAfter, if_true]
  cases Numeral.digits? (Numeral.offsetBound + 1) cs <;> rfl

lemma offset?_plus (cs : List Char) :
    Numeral.offset? ('+' :: cs) = (Numeral.digits? (roomAfter false) cs).map (withSign false) :=
  rfl

lemma offset?_plain {cs : List Char} (h : ∀ c ∈ cs.head?, c ≠ '-' ∧ c ≠ '+') :
    Numeral.offset? cs = (Numeral.digits? (roomAfter false) cs).map (withSign false) := by
  cases cs with
  | nil => rfl
  | cons c cs =>
    obtain ⟨hminus, hplus⟩ := h c rfl
    unfold Numeral.offset?
    split
    next heq => exact absurd (List.cons.inj heq).1 hminus
    next heq => exact absurd (List.cons.inj heq).1 hplus
    next => rfl

lemma ne_sign_of_isDigit {c : Char} (h : c.isDigit = true) : c ≠ '-' ∧ c ≠ '+' := by
  constructor <;> rintro rfl <;> exact absurd h (by decide)

lemma IsDigits.head_ne_sign {cs : List Char} (h : IsDigits cs) (rest : List Char) :
    ∀ c ∈ (cs ++ rest).head?, c ≠ '-' ∧ c ≠ '+' := by
  cases cs with
  | nil => exact absurd rfl h.1
  | cons d ds =>
    intro c hc
    cases hc
    exact ne_sign_of_isDigit (h.2 d (List.mem_cons_self ..))

/-- A sign before digits decides which numbers there is room for. -/
lemma offset?_append {sign digits : List Char} {negative : Bool} (hsign : SignPart sign negative)
    (hdigits : IsDigits digits) :
    Numeral.offset? (sign ++ digits) =
      (Numeral.digits? (roomAfter negative) digits).map (withSign negative) := by
  cases hsign with
  | absent =>
    have hplain := offset?_plain (hdigits.head_ne_sign [])
    rwa [List.append_nil] at hplain
  | plus => exact offset?_plus digits
  | minus => exact offset?_minus digits

lemma exists_sign_offset? (cs : List Char) :
    ∃ sign digits negative, SignPart sign negative ∧ cs = sign ++ digits ∧
      Numeral.offset? cs =
        (Numeral.digits? (roomAfter negative) digits).map (withSign negative) := by
  -- At most one sign is taken off, whatever stands behind it.
  by_cases hminus : cs.head? = some '-'
  · obtain ⟨rest, rfl⟩ := List.head?_eq_some_iff.1 hminus
    exact ⟨['-'], rest, true, SignPart.minus, rfl, offset?_minus rest⟩
  · by_cases hplus : cs.head? = some '+'
    · obtain ⟨rest, rfl⟩ := List.head?_eq_some_iff.1 hplus
      exact ⟨['+'], rest, false, SignPart.plus, rfl, offset?_plus rest⟩
    · refine ⟨[], cs, false, SignPart.absent, rfl, offset?_plain fun c hc => ?_⟩
      constructor <;> rintro rfl
      · exact hminus hc
      · exact hplus hc

/-- An offset is read from digits with an optional sign, unless it has too many bits. -/
theorem offset?_eq_some_iff {cs : List Char} {z : Int} :
    Numeral.offset? cs = some z ↔ SpellsOffset cs z ∧ IsOffset z := by
  constructor
  · intro h
    obtain ⟨sign, digits, negative, hsign, rfl, hread⟩ := exists_sign_offset? cs
    rw [hread] at h
    obtain ⟨n, hn, rfl⟩ := Option.map_eq_some_iff.1 h
    obtain ⟨hdigits, rfl, hz⟩ := digits?_roomAfter_eq_some_iff.1 hn
    exact ⟨SpellsOffset.intro hsign hdigits, hz⟩
  · rintro ⟨⟨hsign, hdigits⟩, hz⟩
    rw [offset?_append hsign hdigits,
      digits?_roomAfter_eq_some_iff.2 ⟨hdigits, rfl, hz⟩, Option.map_some]

/-! ## Written numbers -/

lemma isDigits_toString (n : Nat) : IsDigits (toString n).toList := by
  rw [Nat.toString_eq_repr, Nat.toList_repr]
  exact ⟨Nat.toDigits_ne_nil, fun c hc => Nat.isDigit_of_mem_toDigits (by decide) (by decide) hc⟩

lemma valueOf_toString (n : Nat) : valueOf (toString n).toList = n := by
  rw [valueOf, Nat.toString_eq_repr, Nat.toList_repr, Nat.ofDigitChars_ten_toDigits]

/-- The written form of a number spells it. -/
theorem spellsOffset_toString (z : Int) : SpellsOffset (toString z).toList z := by
  cases z with
  | ofNat n =>
    have h := SpellsOffset.intro SignPart.absent (isDigits_toString n)
    rw [valueOf_toString] at h
    exact h
  | negSucc n =>
    have h := SpellsOffset.intro SignPart.minus (isDigits_toString (n + 1))
    rw [valueOf_toString] at h
    have htext : (toString (Int.negSucc n)).toList = ['-'] ++ (toString (n + 1)).toList :=
      String.toList_append
    rw [htext]
    exact h

end StripAutomata.Item
