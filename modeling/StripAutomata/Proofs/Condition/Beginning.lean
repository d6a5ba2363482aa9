import Mathlib.Data.List.Induction
import StripAutomata.Proofs.Condition.Reading

/-!
# The beginnings of conditions

Units begin a condition if some more of them can be added so that all together are one
(`Begins`).  The reader of conditions takes a unit exactly if the units up to it begin a condition
(`begins_iff`), so it stops at the first unit with which no condition goes on, and the names that it
has accepted by then are those of the literals before that unit (`mentioned_read`).

What the reader does with one unit is `Draft.next?`, and with more of them `Draft.after?`.  A draft
that it has got to can always be completed: a literal is put after what is open, and the innermost
group is closed (`Draft.Spelled.begins`).  That a unit is refused although a condition goes on with
it is excluded by the reading of that condition (`exists_next?_of_begins`).
-/

namespace StripAutomata.Condition

/-! ## Beginnings -/

/-- Whether units are a condition, with no more groups and signs inside one another than there is
room for. -/
def IsWhole (ts : List Token) : Prop := ∃ items, SpellsRow items ts ∧ depthAll items ≤ maxDepth

/-- Whether a condition goes on after units. -/
def Begins (ts : List Token) : Prop := ∃ more, IsWhole (ts ++ more)

lemma IsWhole.begins {ts : List Token} (h : IsWhole ts) : Begins ts :=
  ⟨[], by rwa [List.append_nil]⟩

lemma Begins.of_append {ts us : List Token} (h : Begins (ts ++ us)) : Begins ts := by
  obtain ⟨more, hwhole⟩ := h
  exact ⟨us ++ more, by rwa [← List.append_assoc]⟩

/-! ## What the reader takes begins a condition -/

variable {d d' : Draft} {t : Token} {before ts : List Token}

lemma Draft.Spelled.isWhole (hd : d.Spelled before) (hframes : d.frames = []) : IsWhole before := by
  obtain ⟨hrow, hroom, hspelled⟩ := hd
  obtain rfl : _ = [] := hframes
  cases hspelled
  rw [List.append_nil]
  exact ⟨_, hrow, by rwa [depthAll_reverse]⟩

/-- A literal with which a draft can always go on. -/
lemma literalWord_letter : LiteralWord "A".toList ⟨"A", 0, 0⟩ false :=
  readLiteral_eq_ok_iff.1 rfl

/-- What is open can be closed.  A literal is the operand that a sign waits for, and makes a group
one that is not empty; with each step a frame is closed. -/
theorem Draft.Spelled.begins (hd : d.Spelled before) : Begins before := by
  obtain ⟨n, hn⟩ : ∃ n, d.frames.length ≤ n := ⟨_, le_rfl⟩
  -- The induction is on a bound for the frames, since a literal that settles closes those of all
  -- signs at once.
  induction n generalizing d before with
  | zero => exact (hd.isWhole (List.length_eq_zero_iff.1 (Nat.le_zero.1 hn))).begins
  | succ n ih =>
    obtain ⟨row, frames⟩ := d
    have hletter := hd.goes (Goes.literal literalWord_letter)
    cases frames with
    | nil => exact (hd.isWhole rfl).begins
    | cons frame frames =>
      have hframes : frames.length ≤ n := Nat.le_of_succ_le_succ hn
      cases frame with
      | sign negative =>
        exact (ih hletter ((length_frames_settle row _ frames).trans hframes)).of_append
      | group b items =>
        have hclosed := hletter.goes (Goes.closing fun _ => List.cons_ne_nil _ _)
        exact (ih hclosed ((length_frames_settle row _ frames).trans hframes)).of_append.of_append

/-- The draft after units, if each of them can stand after those before it. -/
def Draft.after? (d : Draft) (ts : List Token) : Option Draft := ts.foldlM Draft.next? d

lemma Draft.after?_concat (d : Draft) (ts : List Token) (t : Token) :
    d.after? (ts ++ [t]) = (d.after? ts).bind fun d' => d'.next? t := by
  rw [Draft.after?, List.foldlM_append, Draft.after?]
  refine congrArg _ (funext fun d' => ?_)
  rw [List.foldlM_cons]
  rcases d'.next? t with _ | last <;> rfl

/-- Units are read as a condition exactly if they are one. -/
lemma isWhole_iff : IsWhole ts ↔ ∃ items, (resume .start ts).outcome = .ok items := by
  constructor
  · rintro ⟨items, hrow, hdepth⟩
    exact ⟨items, by rw [resume_start_of_spellsRow hrow hdepth]⟩
  · rintro ⟨items, hread⟩
    exact ⟨items, spelled_of_resume spelled_start hread⟩

instance (ts : List Token) : Decidable (IsWhole ts) :=
  decidable_of_iff ((resume .start ts).outcome.isOk = true) (by
    rw [isWhole_iff]
    cases (resume .start ts).outcome <;> simp [Except.isOk, Except.toBool])

lemma Draft.Spelled.after? (hd : d.Spelled before) (h : d.after? ts = some d') :
    d'.Spelled (before ++ ts) := by
  induction ts generalizing d before with
  | nil =>
    cases h
    rwa [List.append_nil]
  | cons t ts ih =>
    obtain ⟨next, hnext, hrest⟩ := Option.bind_eq_some_iff.1 h
    rw [List.append_cons]
    exact ih (hd.goes (Draft.goes_of_next? hnext)) hrest

lemma outcome_resume_append (h : d.after? ts = some d') {rest : List Token} (hrest : rest ≠ []) :
    (resume d (ts ++ rest)).outcome = (resume d' rest).outcome := by
  induction ts generalizing d with
  | nil =>
    cases h
    rfl
  | cons t ts ih =>
    obtain ⟨next, hnext, hmore⟩ := Option.bind_eq_some_iff.1 h
    rw [← ih hmore]
    obtain hread | ⟨hend, -⟩ := (Draft.goes_of_next? hnext).resume (ts ++ rest)
    · rw [List.cons_append, hread]
      rfl
    · exact absurd (List.append_eq_nil_iff.1 hend).2 hrest

lemma exists_next?_of_begins (h : Draft.start.after? before = some d)
    (hbegins : Begins (before ++ [t])) : ∃ d', d.next? t = some d' := by
  obtain ⟨more, hwhole⟩ := hbegins
  -- If the unit were refused, then so would be the condition that goes on with it.
  by_contra hnone
  obtain ⟨fault, -, hfault⟩ := resume_of_next?_eq_none
    (Option.eq_none_iff_forall_ne_some.2 fun d' hd' => hnone ⟨d', hd'⟩) more
  have hread : (resume .start (before ++ t :: more)).outcome = .error fault := by
    rw [outcome_resume_append h (List.cons_ne_nil t more), hfault]
    rfl
  obtain ⟨items, hitems⟩ := isWhole_iff.1 hwhole
  rw [List.append_assoc, List.singleton_append, hread] at hitems
  cases hitems

/-- **The reader takes the beginnings of conditions**, unit by unit, and nothing else. -/
theorem begins_iff : Begins ts ↔ ∃ d, Draft.start.after? ts = some d := by
  constructor
  · intro h
    induction ts using List.reverseRecOn with
    | nil => exact ⟨Draft.start, rfl⟩
    | append_singleton before t ih =>
      obtain ⟨d, hd⟩ := ih h.of_append
      obtain ⟨d', hd'⟩ := exists_next?_of_begins hd h
      exact ⟨d', by rw [Draft.after?_concat, hd]; exact hd'⟩
  · rintro ⟨d, hd⟩
    exact (spelled_start.after? hd).begins

instance (ts : List Token) : Decidable (Begins ts) :=
  decidable_of_iff ((Draft.start.after? ts).isSome = true)
    (by rw [begins_iff, Option.isSome_iff_exists])

/-! ## The names that are accepted -/

/-- The first units after others with which a condition goes on. -/
def goingOn (before : List Token) : List Token → List Token
  | [] => []
  | t :: ts => if Begins (before ++ [t]) then t :: goingOn (before ++ [t]) ts else []

/-- The names that are accepted of units are those of the literals with which a condition goes on.
-/
lemma mentioned_resume (h : Draft.start.after? before = some d) (ts : List Token) :
    (resume d ts).mentioned = (goingOn before ts).filterMap Token.name? := by
  induction ts generalizing before d with
  | nil =>
    rw [resume]
    split <;> rfl
  | cons t ts ih =>
    rw [goingOn]
    rcases hnext : d.next? t with _ | d'
    · -- Where the unit is refused, no condition goes on with it.
      obtain ⟨fault, -, hfault⟩ := resume_of_next?_eq_none hnext ts
      rw [if_neg, hfault]
      · rfl
      · rw [begins_iff, Draft.after?_concat, h]
        rintro ⟨d', hd'⟩
        exact absurd (hnext.symm.trans hd') (Option.some_ne_none d').symm
    · have hafter : Draft.start.after? (before ++ [t]) = some d' := by
        rw [Draft.after?_concat, h]
        exact hnext
      rw [if_pos (begins_iff.2 ⟨d', hafter⟩)]
      obtain hread | ⟨rfl, hname, fault, -, hfault⟩ := (Draft.goes_of_next? hnext).resume ts
      · rw [hread, Reading.after, ih hafter]
        cases hname : t.name? <;> simp [hname]
      · rw [hfault, goingOn]
        simp [hname, Reading.fail]

/-- **The names of a condition** are those of the literals before the first unit with which no
condition goes on. -/
theorem mentioned_read (text : List Char) :
    (read text).mentioned = (goingOn [] (Token.scan text)).filterMap Token.name? :=
  mentioned_resume rfl _

end StripAutomata.Condition
