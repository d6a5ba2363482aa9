import StripAutomata.Proofs.Condition.Grammar
import StripAutomata.Proofs.Reading

/-!
# One unit of a condition

The reader of conditions does one of two things with a unit.  Either the unit can stand after the
draft, and the reader goes on from the next one (`Draft.next?`); there are four ways in which it
can, which are the constructors of `Draft.Goes`.  Or the unit is refused, and this for one of the
`causes` of a condition.  `resume_cons_cases` says so of every unit, and what holds of the reader as
a whole follows by induction.
-/

namespace StripAutomata

/-! ## The causes in a condition -/

namespace Condition

/-- What can be wrong with a condition. -/
def causes : List SyntaxCause :=
  [.signWithoutOperand, .nestedTooDeeply, .unbalancedClosing, .mismatchedClosing, .unclosedGroup,
    .emptyConjunction, .malformedConditionItem, .offsetOutOfRange]

end Condition

lemma error_of_bind {ε α β : Type} {x : Except ε α} {next : α → Except ε β} {e : ε}
    (h : (x >>= next) = .error e) : x = .error e ∨ ∃ a, x = .ok a ∧ next a = .error e := by
  cases x with
  | error early => exact Or.inl (congrArg Except.error (Except.error.inj h))
  | ok a => exact Or.inr ⟨a, rfl, h⟩

lemma Item.cause_of_offsetOrZero {part : Option (List Char)} {cause : SyntaxCause}
    (h : Item.offsetOrZero part = .error cause) : cause = .offsetOutOfRange := by
  unfold Item.offsetOrZero at h
  split at h
  next => cases h
  next =>
    split at h
    next => cases h
    next => exact (Except.error.inj h).symm

namespace Condition

lemma cause_mem_of_readLiteral {word : String} {cause : SyntaxCause}
    (h : readLiteral word = .error cause) : cause ∈ causes := by
  simp only [readLiteral] at h
  split at h
  next =>
    obtain htime | ⟨t, -, hrest⟩ := error_of_bind h
    · simp [Item.cause_of_offsetOrZero htime, causes]
    · obtain hposition | ⟨p, -, hdone⟩ := error_of_bind hrest
      · simp [Item.cause_of_offsetOrZero hposition, causes]
      · cases hdone
  next => simp [← Except.error.inj h, causes]

/-! ## Units that are taken -/

@[simp] lemma length_frames_enter (d : Draft) (frame : Frame) :
    (d.enter frame).frames.length = d.frames.length + 1 :=
  rfl

lemma resume_opening {d : Draft} (b : Bracket) (rest : List Token)
    (h : d.frames.length < maxDepth) :
    resume d (.opening b :: rest) = resume (d.enter (.group b [])) rest := by
  rw [resume, if_pos h]

lemma resume_sign {d : Draft} (negative : Bool) {rest : List Token} (hrest : rest ≠ [])
    (h : d.frames.length < maxDepth) :
    resume d (.word (signWord negative) :: rest) = resume (d.enter (.sign negative)) rest := by
  simp [resume, sign?_signWord, hrest, h]

lemma resume_literal (d : Draft) {w : String} {l : Literal String} {negative : Bool}
    (hword : LiteralWord w.toList l negative) (rest : List Token) :
    resume d (.word w :: rest) =
      (resume (.settle d.items (.literal l negative) d.frames) rest).after [l.signal] := by
  simp only [resume, hword.sign?_eq_none, readLiteral_eq_ok_iff.2 hword]
  rfl

lemma resume_closing {row items : List Condition} {b : Bracket} {frames : List Frame}
    (hne : b = .round → items ≠ []) (rest : List Token) :
    resume ⟨row, .group b items :: frames⟩ (.closing b :: rest) =
      resume (.settle row (.group b items.reverse) frames) rest := by
  have hgo : ¬ (b = .round ∧ items.isEmpty = true) :=
    fun h => hne h.1 (List.isEmpty_iff.1 h.2)
  simp only [resume, ne_eq, not_true_eq_false, if_false, if_neg hgo]

/-! ## The draft after a unit -/

/-- The name of a unit that is a literal. -/
def Token.name? : Token → Option String
  | .word w =>
    match readLiteral w with
    | .ok (l, _) => some l.signal
    | .error _ => none
  | _ => none

lemma name?_signWord (negative : Bool) : (Token.word (signWord negative)).name? = none := by
  cases negative <;> rfl

/-- The draft after one more unit, if the unit can stand there. -/
def Draft.next? (d : Draft) : Token → Option Draft
  | .opening b => if d.frames.length < maxDepth then some (d.enter (.group b [])) else none
  | .closing b =>
    match d.frames with
    | .group opened items :: frames =>
      if opened = b ∧ ¬ (b = .round ∧ items.isEmpty) then
        some (.settle d.items (.group b items.reverse) frames)
      else none
    | _ => none
  | .word w =>
    match sign? w with
    | some negative => if d.frames.length < maxDepth then some (d.enter (.sign negative)) else none
    | none =>
      match readLiteral w with
      | .ok (l, negative) => some (.settle d.items (.literal l negative) d.frames)
      | .error _ => none

/-- The ways in which a unit can stand after a draft, and the draft after it. -/
inductive Draft.Goes : Draft → Token → Draft → Prop
  | opening {d : Draft} (b : Bracket) (hroom : d.frames.length < maxDepth) :
      Goes d (.opening b) (d.enter (.group b []))
  | closing {row items : List Condition} {b : Bracket} {frames : List Frame}
      (hne : b = .round → items ≠ []) :
      Goes ⟨row, .group b items :: frames⟩ (.closing b)
        (.settle row (.group b items.reverse) frames)
  | sign {d : Draft} (negative : Bool) (hroom : d.frames.length < maxDepth) :
      Goes d (.word (signWord negative)) (d.enter (.sign negative))
  | literal {d : Draft} {w : String} {l : Literal String} {negative : Bool}
      (hword : LiteralWord w.toList l negative) :
      Goes d (.word w) (.settle d.items (.literal l negative) d.frames)

variable {d d' : Draft} {t : Token}

lemma Draft.goes_of_next? (h : d.next? t = some d') : d.Goes t d' := by
  cases t with
  | opening b =>
    rw [Draft.next?] at h
    split at h
    next hroom =>
      cases h
      exact Goes.opening b hroom
    next => cases h
  | closing b =>
    obtain ⟨row, frames⟩ := d
    rw [Draft.next?] at h
    split at h
    next opened items frames hframes =>
      obtain rfl : _ = Frame.group opened items :: frames := hframes
      split at h
      next hclose =>
        obtain ⟨rfl, hne⟩ := hclose
        cases h
        exact Goes.closing fun hb hitems => hne ⟨hb, by rw [hitems]; rfl⟩
      next => cases h
    next => cases h
  | word w =>
    rw [Draft.next?] at h
    split at h
    next negative hsign =>
      obtain rfl := sign?_eq_some_iff.1 hsign
      split at h
      next hroom =>
        cases h
        exact Goes.sign negative hroom
      next => cases h
    next =>
      split at h
      next l negative hread =>
        cases h
        exact Goes.literal (readLiteral_eq_ok_iff.1 hread)
      next => cases h

/-! ## What the reader does with a unit -/

/-- A unit that can stand after a draft is read, with its name, unless it is a sign and the last
unit. -/
lemma Draft.Goes.resume (h : d.Goes t d') (rest : List Token) :
    resume d (t :: rest) = (resume d' rest).after t.name?.toList ∨
      rest = [] ∧ t.name? = none ∧
        ∃ fault, fault.cause ∈ causes ∧ resume d (t :: rest) = .fail fault := by
  cases h with
  | opening b hroom => exact Or.inl (resume_opening b rest hroom)
  | closing hne => exact Or.inl (resume_closing hne rest)
  | sign negative hroom =>
    by_cases hrest : rest = []
    · -- A sign at the end is refused for want of an operand, though it can stand there.
      refine Or.inr ⟨hrest, name?_signWord negative, ⟨signWord negative, .signWithoutOperand⟩, ?_⟩
      simp [Condition.resume, sign?_signWord, hrest, causes]
    · rw [resume_sign negative hrest hroom, name?_signWord]
      exact Or.inl rfl
  | literal hword =>
    rw [resume_literal d hword, Token.name?, readLiteral_eq_ok_iff.2 hword]
    exact Or.inl rfl

lemma resume_of_next?_eq_none (h : d.next? t = none) (rest : List Token) :
    ∃ fault, fault.cause ∈ causes ∧ resume d (t :: rest) = .fail fault := by
  cases t with
  | opening b =>
    rw [Draft.next?] at h
    split at h
    next => cases h
    next hfull =>
      rw [resume, if_neg hfull]
      exact ⟨_, by simp [causes, bracketFault], rfl⟩
  | closing b =>
    -- Nothing is open; or a group is, of another kind or without an item; or a sign is.
    obtain ⟨row, _ | ⟨_ | _, frames⟩⟩ := d
    · exact ⟨bracketFault b.closing .unbalancedClosing, by simp [causes, bracketFault], rfl⟩
    · rename_i opened items
      have hopen : ¬ (opened = b ∧ ¬ (b = .round ∧ items.isEmpty = true)) := by
        intro hopen
        simp only [Draft.next?, if_pos hopen] at h
        cases h
      by_cases hsame : opened = b
      · have hempty : b = .round ∧ items.isEmpty = true :=
          not_not.1 fun hne => hopen ⟨hsame, hne⟩
        simp only [resume, hsame, ne_eq, not_true_eq_false, if_false, if_pos hempty]
        exact ⟨_, by simp [causes], rfl⟩
      · exact ⟨bracketFault b.closing .mismatchedClosing, by simp [causes, bracketFault],
          if_pos hsame⟩
    · exact ⟨bracketFault b.closing .unbalancedClosing, by simp [causes, bracketFault], rfl⟩
  | word w =>
    rcases hsign : sign? w with _ | negative
    · rcases hread : readLiteral w with cause | ⟨l, negative⟩
      · simp only [resume, hsign, hread]
        exact ⟨_, cause_mem_of_readLiteral hread, rfl⟩
      · simp [Draft.next?, hsign, hread] at h
    · by_cases hroom : d.frames.length < maxDepth
      · simp [Draft.next?, hsign, hroom] at h
      · -- Without room a sign fails in any case, if only because nothing follows it.
        simp only [resume, hsign, if_neg hroom]
        split
        · exact ⟨_, by simp [causes], rfl⟩
        · exact ⟨_, by simp [causes], rfl⟩

/-- **A unit is taken or refused.**  The reader goes on from the draft after the unit, or it stops
for a cause of a condition. -/
theorem resume_cons_cases (d : Draft) (t : Token) (rest : List Token) :
    (∃ d', d.Goes t d' ∧ resume d (t :: rest) = (resume d' rest).after t.name?.toList) ∨
      ∃ fault, fault.cause ∈ causes ∧ resume d (t :: rest) = .fail fault := by
  rcases hnext : d.next? t with _ | d'
  · exact Or.inr (resume_of_next?_eq_none hnext rest)
  · have hgoes := Draft.goes_of_next? hnext
    obtain hread | ⟨-, -, hfault⟩ := hgoes.resume rest
    · exact Or.inl ⟨d', hgoes, hread⟩
    · exact Or.inr hfault

end Condition
end StripAutomata
