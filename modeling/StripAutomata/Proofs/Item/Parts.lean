import StripAutomata.Lexicon
import StripAutomata.Proofs.Condition.Reading

/-!
# The parts of an item word

`LiteralWord` and `OutputWord` say that a word can be put together from parts.  Here the parts
themselves are data: `Condition.LiteralParts w` are the ways to take `w` apart as
`[time/][position.][sign]name`, and `RuleText.OutputParts w` those to take it apart as
`[step/][offset.]name`, each with the numbers that the parts say.

There is at most one such way.  The optional parts of a word share characters: a sign may belong to
a number or to the literal, digits to a time or to a position.  What settles it is that splitting is
a function of the text alone, and that it splits off a given part whatever stands after it
(`LiteralParts.splits` and `OutputParts.splits`), so that two ways to take a word apart agree from
left to right.

`readWord_by_parts` puts this together with the readers.  A word is read exactly if it has parts, as
what they say, and the reader goes on with the name accepted; a word without parts is refused before
a name is accepted, so no lexicon grows by it.
-/

namespace StripAutomata

namespace Item

/-! ## Splitting parts off -/

lemma SignPart.unique {sign : List Char} {a b : Bool} (ha : SignPart sign a)
    (hb : SignPart sign b) : a = b := by
  cases ha <;> cases hb <;> rfl

/-- Two ways to split a text are one if they leave the same and come from one result. -/
lemma split_unique {ι α β : Type} {whole part part' rest rest' : List ι} {o o' : α} {a a' : β}
    {value : α → Except SyntaxCause β} {split : List ι → α × List ι}
    (hpart : part ++ rest = whole) (hpart' : part' ++ rest' = whole)
    (h : split whole = (o, rest)) (h' : split whole = (o', rest'))
    (ha : value o = .ok a) (ha' : value o' = .ok a') : part = part' ∧ rest = rest' ∧ a = a' := by
  obtain ⟨rfl, rfl⟩ := Prod.mk.inj (h.symm.trans h')
  exact ⟨List.append_cancel_right (hpart.trans hpart'.symm), rfl,
    Except.ok.inj (ha.symm.trans ha')⟩

end Item

open Item

/-! ## The parts of a literal -/

namespace Condition

/-- A way to take a word apart as `[time/][position.][sign]name`, with what the parts say. -/
structure LiteralParts (w : List Char) where
  timePart : List Char
  positionPart : List Char
  signPart : List Char
  name : List Char
  time : Int
  position : Int
  negative : Bool
  isTime : OffsetPart '/' timePart time
  isPosition : OffsetPart '.' positionPart position
  isSign : SignPart signPart negative
  isName : isName name = true
  whole : timePart ++ (positionPart ++ (signPart ++ name)) = w

namespace LiteralParts

variable {w : List Char}

/-- The literal that the parts say. -/
def literal (p : LiteralParts w) : Literal String :=
  ⟨String.ofList p.name, p.position, p.time⟩

lemma literalWord (p : LiteralParts w) : LiteralWord w p.literal p.negative := by
  have h := LiteralWord.intro p.isTime p.isPosition p.isSign p.isName
  rwa [p.whole] at h

/-- The parts are what is split off, one after the other. -/
lemma splits (p : LiteralParts w) :
    (∃ o, splitOffset '/' w = (o, p.positionPart ++ (p.signPart ++ p.name)) ∧
      offsetOrZero o = .ok p.time) ∧
    (∃ o, splitOffset '.' (p.positionPart ++ (p.signPart ++ p.name)) = (o, p.signPart ++ p.name) ∧
      offsetOrZero o = .ok p.position) ∧
    splitSign (p.signPart ++ p.name) = (p.signPart, p.name) := by
  -- Nothing of the parts behind the mark is split off along with the part before it.
  have htime := splitOffset_part (by decide) p.isTime
    (splitOffset_position p.isPosition p.isSign p.isName)
  rw [p.whole] at htime
  exact ⟨htime,
    splitOffset_part (by decide) p.isPosition (splitOffset_name (by decide) p.isSign p.isName),
    splitSign_append p.isSign (head_name_ne_sign p.isName)⟩

instance : Subsingleton (LiteralParts w) where
  allEq p q := by
    -- The parts agree from left to right: each is split off what the parts before it leave.
    obtain ⟨⟨o, ho, ht⟩, ⟨o', ho', hp⟩, hsign⟩ := p.splits
    obtain ⟨⟨u, hu, ht'⟩, ⟨u', hu', hp'⟩, hsign'⟩ := q.splits
    obtain ⟨htime, hrest, htimes⟩ := split_unique p.whole q.whole ho hu ht ht'
    rw [← hrest] at hu'
    obtain ⟨hposition, hrest', hpositions⟩ := split_unique rfl hrest.symm ho' hu' hp hp'
    rw [← hrest', hsign] at hsign'
    obtain ⟨hsigns, hnames⟩ := Prod.mk.inj hsign'
    have hnegative : p.negative = q.negative := by
      have hq := q.isSign
      rw [← hsigns] at hq
      exact p.isSign.unique hq
    cases p
    cases q
    subst htime htimes hposition hpositions hsigns hnames hnegative
    rfl

lemma exists_of_literalWord {l : Literal String} {negative : Bool} (h : LiteralWord w l negative) :
    ∃ p : LiteralParts w, p.literal = l ∧ p.negative = negative := by
  obtain ⟨htime, hposition, hsign, hname⟩ := h
  exact ⟨⟨_, _, _, _, _, _, _, htime, hposition, hsign, hname, rfl⟩, rfl, rfl⟩

end LiteralParts

/-- A word is read as a literal exactly if it has the parts of one, as the literal that they say. -/
lemma readLiteral_eq_ok_iff_parts {w : String} {l : Literal String} {negative : Bool} :
    readLiteral w = .ok (l, negative) ↔
      ∃ p : LiteralParts w.toList, p.literal = l ∧ p.negative = negative := by
  rw [readLiteral_eq_ok_iff]
  constructor
  · exact LiteralParts.exists_of_literalWord
  · rintro ⟨p, rfl, rfl⟩
    exact p.literalWord

lemma resume_refused (d : Draft) {w : String} (hw : IsEmpty (LiteralParts w.toList))
    (hsign : sign? w = none) (rest : List Token) :
    ∃ cause, resume d (.word w :: rest) = .fail ⟨w, cause⟩ := by
  cases hread : readLiteral w with
  | error cause => exact ⟨cause, by simp [resume, hsign, hread]⟩
  | ok read =>
    obtain ⟨p, -⟩ := readLiteral_eq_ok_iff_parts.1 hread
    exact hw.elim p

end Condition

/-! ## The parts of an output -/

namespace RuleText

/-- A way to take a word apart as `[step/][offset.]name`, with what the parts say. -/
structure OutputParts (w : List Char) where
  stepPart : List Char
  offsetPart : List Char
  name : List Char
  step : Nat
  offset : Int
  isStep : StepPart stepPart step
  isOffset : OffsetPart '.' offsetPart offset
  isName : isName name = true
  stays : step = 0 → offset = 0
  whole : stepPart ++ (offsetPart ++ name) = w

namespace OutputParts

variable {w : List Char}

/-- The output that the parts say. -/
def output (p : OutputParts w) : Output String := ⟨p.offset, String.ofList p.name, p.step⟩

lemma outputWord (p : OutputParts w) : OutputWord w p.output := by
  have h := OutputWord.intro p.isStep p.isOffset p.isName p.stays
  rwa [p.whole] at h

/-- The parts are what is split off, one after the other. -/
lemma splits (p : OutputParts w) :
    (∃ o, splitCount '/' w = (o, p.offsetPart ++ p.name) ∧ stepOrOne o = .ok p.step) ∧
    (∃ o, splitOffset '.' (p.offsetPart ++ p.name) = (o, p.name) ∧
      offsetOrZero o = .ok p.offset) := by
  have hstep := splitCount_part p.isStep (splitCount_position p.isOffset p.isName)
  rw [p.whole] at hstep
  exact ⟨hstep, splitOffset_part (by decide) p.isOffset
    (splitOffset_name (by decide) SignPart.absent p.isName)⟩

instance : Subsingleton (OutputParts w) where
  allEq p q := by
    obtain ⟨⟨o, ho, ht⟩, ⟨o', ho', hn⟩⟩ := p.splits
    obtain ⟨⟨u, hu, ht'⟩, ⟨u', hu', hn'⟩⟩ := q.splits
    obtain ⟨hstep, hrest, hsteps⟩ := split_unique p.whole q.whole ho hu ht ht'
    rw [← hrest] at hu'
    obtain ⟨hoffset, hnames, hoffsets⟩ := split_unique rfl hrest.symm ho' hu' hn hn'
    cases p
    cases q
    subst hstep hsteps hoffset hoffsets hnames
    rfl

lemma exists_of_outputWord {o : Output String} (h : OutputWord w o) :
    ∃ p : OutputParts w, p.output = o := by
  obtain ⟨hstep, hoffset, hname, hsame⟩ := h
  exact ⟨⟨_, _, _, _, _, hstep, hoffset, hname, hsame, rfl⟩, rfl⟩

end OutputParts

/-- A word is read as an output exactly if it has the parts of one, as the output that they say. -/
lemma readOutput_eq_ok_iff_parts {w : List Char} {o : Output String} :
    readOutput w = .ok o ↔ ∃ p : OutputParts w, p.output = o := by
  rw [readOutput_eq_ok_iff]
  constructor
  · exact OutputParts.exists_of_outputWord
  · rintro ⟨p, rfl⟩
    exact p.outputWord

lemma readWords_output {w : List Char} (p : OutputParts w) (rest : List (List Char)) :
    readWords (w :: rest) =
      ((p.output :: ·) <$> readWords rest).after [String.ofList p.name] := by
  simp only [readWords, readOutput_eq_ok_iff_parts.2 ⟨p, rfl⟩]
  rfl

lemma readWords_refused {w : List Char} (hw : IsEmpty (OutputParts w))
    (rest : List (List Char)) :
    ∃ cause, readWords (w :: rest) = .fail ⟨String.ofList w, cause⟩ := by
  cases hread : readOutput w with
  | error cause => exact ⟨cause, by simp [readWords, hread]⟩
  | ok o =>
    obtain ⟨p, -⟩ := readOutput_eq_ok_iff_parts.1 hread
    exact hw.elim p

end RuleText

/-! ## Reading words -/

namespace Item

open Condition RuleText

/-- **Item words are read exactly and uniquely.**  A word has at most one way to be taken apart as
`[time/][position.][sign]name`, with ASCII decimals of 32 bits.  It is read as a literal if and only
if it has one, as the literal that the parts say, a part that is left out saying zero; the reader of
conditions then accepts the name and goes on, and at a word without parts it stops with no name
accepted, which leaves every lexicon as it is.  The same holds of `[step/][offset.]name`, where a
step that is left out is one and an output of the same step has no offset but zero. -/
theorem readWord_by_parts (w : String) :
    (Subsingleton (LiteralParts w.toList) ∧
      (∀ l negative, readLiteral w = .ok (l, negative) ↔
        ∃ p : LiteralParts w.toList, p.literal = l ∧ p.negative = negative) ∧
      ∀ (d : Draft) (units : List Token),
        (∀ p : LiteralParts w.toList, resume d (.word w :: units) =
          (resume (.settle d.items (.literal p.literal p.negative) d.frames) units).after
            [String.ofList p.name]) ∧
        (IsEmpty (LiteralParts w.toList) → sign? w = none →
          (∃ cause, resume d (.word w :: units) = .fail ⟨w, cause⟩) ∧
          ∀ lexicon : Lexicon,
            lexicon.insertAll (resume d (.word w :: units)).mentioned = lexicon)) ∧
    (Subsingleton (OutputParts w.toList) ∧
      (∀ o, readOutput w.toList = .ok o ↔ ∃ p : OutputParts w.toList, p.output = o) ∧
      ∀ words : List (List Char),
        (∀ p : OutputParts w.toList, readWords (w.toList :: words) =
          ((p.output :: ·) <$> readWords words).after [String.ofList p.name]) ∧
        (IsEmpty (OutputParts w.toList) →
          (∃ cause, readWords (w.toList :: words) = .fail ⟨w, cause⟩) ∧
          ∀ lexicon : Lexicon,
            lexicon.insertAll (readWords (w.toList :: words)).mentioned = lexicon)) := by
  refine ⟨⟨inferInstance, fun _ _ => readLiteral_eq_ok_iff_parts, fun d units => ⟨?_, ?_⟩⟩,
    ⟨inferInstance, fun _ => readOutput_eq_ok_iff_parts, fun words => ⟨?_, ?_⟩⟩⟩
  · exact fun p => resume_literal d p.literalWord units
  · intro hw hsign
    obtain ⟨cause, hrefused⟩ := resume_refused d hw hsign units
    exact ⟨⟨cause, hrefused⟩, fun lexicon => by rw [hrefused]; rfl⟩
  · exact fun p => readWords_output p words
  · intro hw
    obtain ⟨cause, hrefused⟩ := readWords_refused hw words
    rw [String.ofList_toList] at hrefused
    exact ⟨⟨cause, hrefused⟩, fun lexicon => by rw [hrefused]; rfl⟩

/-- A word with a sign on each of its numbers and on its literal has its parts; one with a position
beyond 32 bits has none, nor has one whose position is written in Arabic digits, nor an output of
the same step at another cell, and no name of theirs is accepted. -/
theorem readWord_by_parts_at_limits :
    (∃ p : LiteralParts "+007/-2147483648.-Añ".toList,
      p.literal = ⟨"Añ", -2147483648, 7⟩ ∧ p.negative = true) ∧
    (∀ w ∈ ["2147483648.A", "٣.A"], ∀ lexicon : Lexicon,
      lexicon.insertAll (resume .start [.word w]).mentioned = lexicon) ∧
    (∃ p : OutputParts "4294967295/-0.A".toList, p.output = ⟨0, "A", 4294967295⟩) ∧
    ∀ lexicon : Lexicon, lexicon.insertAll (readWords ["0/1.A".toList]).mentioned = lexicon := by
  have hempty {w : String} {cause : SyntaxCause} (h : readLiteral w = .error cause) :
      IsEmpty (LiteralParts w.toList) :=
    ⟨fun p => by
      have hok := ((readWord_by_parts w).1.2.1 _ _).2 ⟨p, rfl, rfl⟩
      rw [h] at hok
      cases hok⟩
  refine ⟨((readWord_by_parts _).1.2.1 _ _).1 rfl, fun w hw => ?_,
    ((readWord_by_parts "4294967295/-0.A").2.2.1 _).1 rfl, ?_⟩
  · have hread : ∃ cause, readLiteral w = .error cause ∧ sign? w = none := by
      simp only [List.mem_cons, List.not_mem_nil, or_false] at hw
      obtain rfl | rfl := hw <;> exact ⟨.offsetOutOfRange, rfl, rfl⟩
    obtain ⟨cause, hread, hsign⟩ := hread
    exact (((readWord_by_parts w).1.2.2 .start []).2 (hempty hread) hsign).2
  · refine (((readWord_by_parts "0/1.A").2.2.2 []).2 ⟨fun p => ?_⟩).2
    have hok := ((readWord_by_parts "0/1.A").2.2.1 _).2 ⟨p, rfl⟩
    cases hok

end Item
end StripAutomata
