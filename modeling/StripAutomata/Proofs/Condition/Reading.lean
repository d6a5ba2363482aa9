import StripAutomata.Proofs.Condition.Step

/-!
# Reading conditions is deriving them

The reader of conditions keeps what is open on a stack of frames.  Three facts tie it to the
grammar:

* `resume_item`: units that derive an item are read as that item, and the reader goes on with the
  rest, provided that the item is no deeper than there is room for;
* `resume_item_too_deep`: an item that is deeper is refused as nested too deeply;
* `spelled_of_resume`: whatever is read to the end is derived by the units, which is an invariant
  of the draft: the units read so far spell the complete items and the open frames, and each of the
  ways in which a unit can be taken keeps that (`Draft.Spelled.goes`).

`readFormula_ok_iff` puts them together: a condition is read exactly if its units are a row of the
grammar that is at most `maxDepth` deep, and the row is then the only one.
-/

namespace StripAutomata

namespace Condition

/-! ## Settling rows -/

/-- Puts the items of a row in their places, one after the other. -/
def Draft.settleAll (d : Draft) : List Condition → Draft
  | [] => d
  | c :: cs => Draft.settleAll (.settle d.items c d.frames) cs

lemma length_frames_settle (row : List Condition) (c : Condition) (frames : List Frame) :
    (Draft.settle row c frames).frames.length ≤ frames.length := by
  induction frames generalizing c with
  | nil => simp [Draft.settle]
  | cons frame frames ih =>
    cases frame with
    | group b items => simp [Draft.settle]
    | sign negative => exact Nat.le_succ_of_le (ih _)

lemma settleAll_group (row items : List Condition) (b : Bracket) (frames : List Frame)
    (cs : List Condition) :
    Draft.settleAll ⟨row, .group b items :: frames⟩ cs =
      ⟨row, .group b (cs.reverse ++ items) :: frames⟩ := by
  induction cs generalizing items with
  | nil => rfl
  | cons c cs ih => simp [Draft.settleAll, Draft.settle, ih]

lemma settleAll_row (row cs : List Condition) :
    Draft.settleAll ⟨row, []⟩ cs = ⟨cs.reverse ++ row, []⟩ := by
  induction cs generalizing row with
  | nil => rfl
  | cons c cs ih => simp [Draft.settleAll, Draft.settle, ih]

/-! ## Derived units are read -/

mutual

/-- Units that derive an item are read as the item, if there is room for its depth. -/
theorem resume_item {c : Condition} {ts : List Token} (h : Spells c ts) (d : Draft)
    (rest : List Token) (hroom : d.frames.length + c.depth ≤ maxDepth) :
    resume d (ts ++ rest) = (resume (.settle d.items c d.frames) rest).after c.names := by
  match h with
  | .literal hword => exact resume_literal d hword rest
  | @Spells.signed negative c ts hoperand =>
    -- The operand is read with the sign as one more frame, which it leaves as it settles.
    rw [depth] at hroom
    have hne : ts ++ rest ≠ [] := by simp [hoperand.ne_nil]
    have hoperandRead := resume_item hoperand (d.enter (.sign negative)) rest (by
      rw [length_frames_enter]
      omega)
    rw [List.cons_append, resume_sign negative hne (by omega), hoperandRead]
    rfl
  | @Spells.group b cs ts hitems hne =>
    -- The row is gathered in the frame of the group, which the closing bracket settles.
    rw [depth] at hroom
    have hitemsNe : b = .round → cs.reverse ≠ [] := fun hb => by simp [hne hb]
    have hrow := resume_row hitems (d.enter (.group b [])) (.closing b :: rest) (by
      rw [length_frames_enter]
      omega)
    rw [Draft.enter, settleAll_group, List.append_nil, resume_closing hitemsNe,
      List.reverse_reverse] at hrow
    rw [List.cons_append, List.append_assoc, List.singleton_append,
      resume_opening b _ (by omega), Draft.enter, hrow]
    rfl

theorem resume_row {cs : List Condition} {ts : List Token} (h : SpellsRow cs ts) (d : Draft)
    (rest : List Token) (hroom : d.frames.length + depthAll cs ≤ maxDepth) :
    resume d (ts ++ rest) = (resume (d.settleAll cs) rest).after (namesAll cs) := by
  match h with
  | .nil => rfl
  | @SpellsRow.cons c cs _ _ hitem hrow =>
    rw [depthAll] at hroom
    have hshorter := length_frames_settle d.items c d.frames
    rw [List.append_assoc, resume_item hitem d _ (by omega),
      resume_row hrow (.settle d.items c d.frames) rest (by omega), Reading.after_after]
    rfl

end

/-! ## Units that are nested too deeply -/

/-- Whether no sign of a draft waits for its operand. -/
def Draft.Settled (d : Draft) : Prop :=
  match d.frames with
  | .sign _ :: _ => False
  | _ => True

lemma Draft.Settled.settle {d : Draft} (h : d.Settled) (c : Condition) :
    (Draft.settle d.items c d.frames).Settled ∧
      (Draft.settle d.items c d.frames).frames.length = d.frames.length := by
  obtain ⟨row, frames⟩ := d
  match frames with
  | [] => exact ⟨trivial, rfl⟩
  | .group b items :: frames => exact ⟨trivial, rfl⟩
  | .sign negative :: frames => exact h.elim

/-- Whether reading failed because of the depth. -/
def TooDeep {α : Type} (r : Reading Fault α) : Prop :=
  ∃ token, r.outcome = .error ⟨token, .nestedTooDeeply⟩

lemma TooDeep.after {α : Type} {r : Reading Fault α} (h : TooDeep r) (names : List String) :
    TooDeep (r.after names) := h

lemma tooDeep_opening {d : Draft} (b : Bracket) (rest : List Token)
    (h : maxDepth ≤ d.frames.length) : TooDeep (resume d (.opening b :: rest)) := by
  refine ⟨b.opening.toString, ?_⟩
  rw [resume, if_neg (by omega)]
  rfl

lemma tooDeep_sign {d : Draft} (negative : Bool) {rest : List Token} (hrest : rest ≠ [])
    (h : maxDepth ≤ d.frames.length) :
    TooDeep (resume d (.word (signWord negative) :: rest)) := by
  refine ⟨signWord negative, ?_⟩
  have hgo : ¬ d.frames.length < maxDepth := by omega
  simp [resume, sign?_signWord, hrest, hgo, Reading.fail]

mutual

theorem resume_item_too_deep {c : Condition} {ts : List Token} (h : Spells c ts) (d : Draft)
    (rest : List Token) (hd : d.frames.length ≤ maxDepth)
    (hroom : maxDepth < d.frames.length + c.depth) : TooDeep (resume d (ts ++ rest)) := by
  match h with
  | .literal _ =>
    rw [depth] at hroom
    omega
  | @Spells.signed negative c ts hoperand =>
    rw [depth] at hroom
    have hne : ts ++ rest ≠ [] := by simp [hoperand.ne_nil]
    -- Either the operand is too deep behind the sign, or the sign itself has no room.
    by_cases hfull : d.frames.length < maxDepth
    · rw [List.cons_append, resume_sign negative hne hfull]
      apply resume_item_too_deep hoperand
      · rw [length_frames_enter]
        omega
      · rw [length_frames_enter]
        omega
    · exact tooDeep_sign negative hne (by omega)
  | @Spells.group b cs ts hitems hne =>
    rw [depth] at hroom
    -- The same for the bracket of a group and the row in it.
    by_cases hfull : d.frames.length < maxDepth
    · rw [List.cons_append, List.append_assoc, resume_opening b _ hfull]
      apply resume_row_too_deep hitems
      · exact trivial
      · rw [length_frames_enter]
        omega
      · rw [length_frames_enter]
        omega
    · exact tooDeep_opening b _ (by omega)

/-- A row that is deeper than there is room for is refused.  It stands in a group or by itself: a
sign has one operand only. -/
theorem resume_row_too_deep {cs : List Condition} {ts : List Token} (h : SpellsRow cs ts)
    (d : Draft) (rest : List Token) (hsettled : d.Settled)
    (hd : d.frames.length ≤ maxDepth) (hroom : maxDepth < d.frames.length + depthAll cs) :
    TooDeep (resume d (ts ++ rest)) := by
  match h with
  | .nil =>
    rw [depthAll] at hroom
    omega
  | @SpellsRow.cons c cs _ _ hitem hrow =>
    rw [depthAll] at hroom
    rw [List.append_assoc]
    -- The first item that is too deep ends the reading; those before it are read.
    by_cases hc : d.frames.length + c.depth ≤ maxDepth
    · rw [resume_item hitem d _ hc]
      obtain ⟨hnext, hlength⟩ := hsettled.settle c
      exact TooDeep.after (resume_row_too_deep hrow _ rest hnext (by omega) (by omega)) _
    · exact resume_item_too_deep hitem d _ hd (by omega)

end

/-! ## What is read is derived -/

/-- The units that were read into open frames, which are no more than there is room for. -/
inductive SpellsFrames : List Frame → List Token → Prop
  | nil : SpellsFrames [] []
  | group {b : Bracket} {items : List Condition} {frames : List Frame} {ts us : List Token}
      (hframes : SpellsFrames frames ts) (hitems : SpellsRow items.reverse us)
      (hroom : frames.length + 1 + depthAll items ≤ maxDepth) :
      SpellsFrames (.group b items :: frames) (ts ++ .opening b :: us)
  | sign {negative : Bool} {frames : List Frame} {ts : List Token}
      (hframes : SpellsFrames frames ts) (hroom : frames.length + 1 ≤ maxDepth) :
      SpellsFrames (.sign negative :: frames) (ts ++ [.word (signWord negative)])

/-- The units that were read into a draft. -/
inductive Draft.Spelled : Draft → List Token → Prop
  | intro {row : List Condition} {frames : List Frame} {ts us : List Token}
      (hrow : SpellsRow row.reverse ts) (hroom : depthAll row ≤ maxDepth)
      (hframes : SpellsFrames frames us) : Draft.Spelled ⟨row, frames⟩ (ts ++ us)

lemma SpellsRow.append_item {cs : List Condition} {c : Condition} {ts us : List Token}
    (hcs : SpellsRow cs ts) (hc : Spells c us) : SpellsRow (cs ++ [c]) (ts ++ us) := by
  induction cs generalizing ts with
  | nil =>
    cases hcs
    have hone := SpellsRow.cons hc SpellsRow.nil
    rwa [List.append_nil] at hone
  | cons d ds ih =>
    cases hcs with
    | cons hitem hrow =>
      rw [List.cons_append, List.append_assoc]
      exact SpellsRow.cons hitem (ih hrow)

/-- An item settles in a draft together with its units. -/
lemma spelled_settle {row : List Condition} {c : Condition} {frames : List Frame}
    {ts us vs : List Token} (hrow : SpellsRow row.reverse ts) (hdepth : depthAll row ≤ maxDepth)
    (hframes : SpellsFrames frames us) (hc : Spells c vs)
    (hroom : frames.length + c.depth ≤ maxDepth) :
    (Draft.settle row c frames).Spelled (ts ++ (us ++ vs)) := by
  -- The induction follows the frames inward: an item goes through the signs that wait for it, up to
  -- a group or the row itself.
  induction hframes generalizing c vs with
  | nil =>
    have hrow' : SpellsRow (c :: row).reverse (ts ++ vs) := by
      rw [List.reverse_cons]
      exact hrow.append_item hc
    have hdepth' : depthAll (c :: row) ≤ maxDepth := by
      rw [depthAll]
      simp only [List.length_nil] at hroom
      omega
    have hall := Draft.Spelled.intro hrow' hdepth' SpellsFrames.nil
    rwa [List.append_nil] at hall
  | @group b items frames ts' us' hframes hitems hfits ih =>
    have hitems' : SpellsRow (c :: items).reverse (us' ++ vs) := by
      rw [List.reverse_cons]
      exact hitems.append_item hc
    have hfits' : frames.length + 1 + depthAll (c :: items) ≤ maxDepth := by
      rw [depthAll]
      simp only [List.length_cons] at hroom
      omega
    have hgroup : SpellsFrames (.group b (c :: items) :: frames)
        (ts' ++ .opening b :: (us' ++ vs)) := SpellsFrames.group hframes hitems' hfits'
    rw [List.append_assoc, List.cons_append]
    exact Draft.Spelled.intro hrow hdepth hgroup
  | @sign negative frames ts' hframes hfits ih =>
    have hroom' : frames.length + (signed negative c).depth ≤ maxDepth := by
      rw [depth]
      simp only [List.length_cons] at hroom
      omega
    have hall := ih (Spells.signed hc) hroom'
    rw [List.append_assoc, List.singleton_append]
    exact hall

lemma Draft.Spelled.item {d : Draft} {before ts : List Token} {c : Condition}
    (hd : d.Spelled before) (hc : Spells c ts) (hroom : d.frames.length + c.depth ≤ maxDepth) :
    (Draft.settle d.items c d.frames).Spelled (before ++ ts) := by
  obtain ⟨hrow, hdepth, hframes⟩ := hd
  rw [List.append_assoc]
  exact spelled_settle hrow hdepth hframes hc hroom

lemma Draft.Spelled.length_frames_le {d : Draft} {before : List Token} (hd : d.Spelled before) :
    d.frames.length ≤ maxDepth := by
  obtain ⟨-, -, hframes⟩ := hd
  cases hframes with
  | nil => exact Nat.zero_le _
  | group _ _ hroom => rw [List.length_cons]; omega
  | sign _ hroom => exact hroom

lemma Draft.Spelled.enter_group {d : Draft} {before : List Token} (hd : d.Spelled before)
    (b : Bracket) (hroom : d.frames.length < maxDepth) :
    (d.enter (.group b [])).Spelled (before ++ [.opening b]) := by
  obtain ⟨hrow, hdepth, hframes⟩ := hd
  rename_i frames ts us
  have hgroup : SpellsFrames (.group b [] :: frames) (us ++ .opening b :: []) :=
    SpellsFrames.group hframes SpellsRow.nil hroom
  rw [List.append_assoc]
  exact Draft.Spelled.intro hrow hdepth hgroup

lemma Draft.Spelled.enter_sign {d : Draft} {before : List Token} (hd : d.Spelled before)
    (negative : Bool) (hroom : d.frames.length < maxDepth) :
    (d.enter (.sign negative)).Spelled (before ++ [.word (signWord negative)]) := by
  obtain ⟨hrow, hdepth, hframes⟩ := hd
  rw [List.append_assoc]
  exact Draft.Spelled.intro hrow hdepth (SpellsFrames.sign hframes hroom)

lemma Draft.Spelled.close {row items : List Condition} {b : Bracket} {frames : List Frame}
    {before : List Token} (hd : Draft.Spelled ⟨row, .group b items :: frames⟩ before)
    (hne : b = .round → items ≠ []) :
    (Draft.settle row (.group b items.reverse) frames).Spelled (before ++ [.closing b]) := by
  cases hd with
  | intro hrow hdepth hframes =>
    cases hframes with
    | group hframes hitems hroom =>
      have hitem := Spells.group (b := b) hitems fun hb => by simp [hne hb]
      have hroom' : frames.length + (group b items.reverse).depth ≤ maxDepth := by
        rw [depth, depthAll_reverse]
        omega
      have hall := spelled_settle hrow hdepth hframes hitem hroom'
      simpa only [List.append_assoc, List.cons_append] using hall

lemma Draft.Spelled.goes {d d' : Draft} {t : Token} {before : List Token} (hd : d.Spelled before)
    (h : d.Goes t d') : d'.Spelled (before ++ [t]) := by
  cases h with
  | opening b hroom => exact hd.enter_group b hroom
  | closing hne => exact hd.close hne
  | sign negative hroom => exact hd.enter_sign negative hroom
  | literal hword => exact hd.item (Spells.literal hword) hd.length_frames_le

/-- What is read at the end of the units is the row of a draft in which nothing is open. -/
lemma Draft.Spelled.of_resume_nil {d : Draft} {before : List Token} {items : List Condition}
    (hd : d.Spelled before) (h : (resume d []).outcome = .ok items) :
    SpellsRow items before ∧ depthAll items ≤ maxDepth := by
  obtain ⟨hrow, hroom, hframes⟩ := hd
  cases hframes with
  | nil =>
    simp only [resume, Reading.done, Except.ok.injEq] at h
    subst h
    rw [List.append_nil, depthAll_reverse]
    exact ⟨hrow, hroom⟩
  | group => simp [resume, Reading.fail] at h
  | sign => simp [resume, Reading.fail] at h

/-- Reading keeps to the units: what is read in the end is derived by the units before a draft and
the units after it. -/
theorem spelled_of_resume {d : Draft} {before ts : List Token} {items : List Condition}
    (hd : d.Spelled before) (h : (resume d ts).outcome = .ok items) :
    SpellsRow items (before ++ ts) ∧ depthAll items ≤ maxDepth := by
  induction ts generalizing d before with
  | nil =>
    rw [List.append_nil]
    exact hd.of_resume_nil h
  | cons t ts ih =>
    rw [List.append_cons]
    -- Where a unit is taken, the draft after it is spelled by the units up to it.
    obtain ⟨d', hgoes, hread⟩ | ⟨fault, -, hfail⟩ := resume_cons_cases d t ts
    · rw [hread] at h
      exact ih (hd.goes hgoes) h
    · rw [hfail] at h
      cases h

/-! ## Conditions -/

/-- Units that derive a row are read as the row, with its names, if it is not too deep. -/
theorem resume_start_of_spellsRow {ts : List Token} {items : List Condition}
    (h : SpellsRow items ts) (hdepth : depthAll items ≤ maxDepth) :
    resume .start ts = ⟨namesAll items, .ok items⟩ := by
  have hrow := resume_row h Draft.start [] (by simpa [Draft.start] using hdepth)
  rw [List.append_nil, Draft.start, settleAll_row, List.append_nil] at hrow
  rw [Draft.start, hrow, resume, List.reverse_reverse]
  simp [Reading.after, Reading.done]

theorem read_of_spellsRow {text : List Char} {items : List Condition}
    (h : SpellsRow items (Token.scan text)) (hdepth : depthAll items ≤ maxDepth) :
    read text = ⟨namesAll items, .ok items⟩ :=
  resume_start_of_spellsRow h hdepth

theorem read_too_deep {text : List Char} {items : List Condition}
    (h : SpellsRow items (Token.scan text)) (hdepth : maxDepth < depthAll items) :
    TooDeep (read text) := by
  have hrow := resume_row_too_deep h Draft.start [] trivial (Nat.zero_le _)
    (by simpa [Draft.start] using hdepth)
  rwa [List.append_nil] at hrow

lemma spelled_start : Draft.start.Spelled [] := by
  have hstart : Draft.start.Spelled ([] ++ []) :=
    Draft.Spelled.intro SpellsRow.nil (Nat.zero_le _) SpellsFrames.nil
  exact hstart

theorem spellsRow_of_read {text : List Char} {items : List Condition}
    (h : (read text).outcome = .ok items) :
    SpellsRow items (Token.scan text) ∧ depthAll items ≤ maxDepth :=
  spelled_of_resume spelled_start h

end Condition
end StripAutomata
