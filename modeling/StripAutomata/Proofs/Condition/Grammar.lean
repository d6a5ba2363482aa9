import StripAutomata.Condition.Reader
import StripAutomata.Proofs.Item.Words

/-!
# The grammar of conditions

The units of a condition are a row of items, where

* `item ::= literal | sign item | '(' item+ ')' | '[' item* ']'`.

`Spells c ts` says that the units `ts` derive the item `c`, and `SpellsRow` says the same of a row.
A derivation is the tree of the item: the grammar is unambiguous (`spellsRow_unique`), because a
unit decides by itself which rule applies, and a row goes on exactly until a closing bracket or the
end.
-/

namespace StripAutomata.Condition

/-- The word that a sign of its own is. -/
def signWord (negative : Bool) : String := if negative then "-" else "+"

mutual

/-- The units that derive an item. -/
inductive Spells : Condition → List Token → Prop
  | literal {w : String} {l : Literal String} {negative : Bool}
      (hword : LiteralWord w.toList l negative) : Spells (.literal l negative) [.word w]
  | signed {negative : Bool} {c : Condition} {ts : List Token} (hoperand : Spells c ts) :
      Spells (.signed negative c) (.word (signWord negative) :: ts)
  | group {b : Bracket} {cs : List Condition} {ts : List Token} (hitems : SpellsRow cs ts)
      (hne : b = .round → cs ≠ []) : Spells (.group b cs) (.opening b :: (ts ++ [.closing b]))

/-- The units that derive the items of a row. -/
inductive SpellsRow : List Condition → List Token → Prop
  | nil : SpellsRow [] []
  | cons {c : Condition} {cs : List Condition} {ts us : List Token} (hitem : Spells c ts)
      (hrow : SpellsRow cs us) : SpellsRow (c :: cs) (ts ++ us)

end

mutual

/-- The names of an item, from left to right. -/
def names : Condition → List String
  | literal l _ => [l.signal]
  | signed _ c => c.names
  | group _ cs => namesAll cs

/-- The names of the items of a list, from left to right. -/
def namesAll : List Condition → List String
  | [] => []
  | c :: cs => c.names ++ namesAll cs

end

lemma depthAll_append (cs ds : List Condition) :
    depthAll (cs ++ ds) = max (depthAll cs) (depthAll ds) := by
  induction cs with
  | nil => simp [depthAll]
  | cons c cs ih => simp [depthAll, ih, max_assoc]

lemma depthAll_reverse (cs : List Condition) : depthAll cs.reverse = depthAll cs := by
  induction cs with
  | nil => rfl
  | cons c cs ih => simp [depthAll, depthAll_append, ih, max_comm]

/-! ## Words of the grammar -/

lemma sign?_signWord (negative : Bool) : sign? (signWord negative) = some negative := by
  cases negative <;> rfl

lemma sign?_eq_some_iff {w : String} {negative : Bool} :
    sign? w = some negative ↔ w = signWord negative := by
  constructor
  · intro h
    unfold sign? at h
    split at h
    next hw => cases h; exact hw
    next =>
      split at h
      next hw => cases h; exact hw
      next => cases h
  · rintro rfl
    exact sign?_signWord negative

lemma LiteralWord.ne_signWord {w : String} {l : Literal String} {negative : Bool}
    (h : LiteralWord w.toList l negative) (sign : Bool) : w ≠ signWord sign := by
  rintro rfl
  have hread := readLiteral_eq_ok_iff.2 h
  -- A literal has a name, which a sign of its own has not.
  have hfail : readLiteral (signWord sign) = .error .malformedConditionItem := by
    cases sign <;> rfl
  rw [hfail] at hread
  cases hread

lemma LiteralWord.sign?_eq_none {w : String} {l : Literal String} {negative : Bool}
    (h : LiteralWord w.toList l negative) : sign? w = none := by
  cases hsign : sign? w with
  | none => rfl
  | some sign => exact absurd (sign?_eq_some_iff.1 hsign) (h.ne_signWord sign)

/-! ## The first unit of an item -/

/-- Whether a row of units stops: it is at its end or at a closing bracket. -/
def Stops : List Token → Prop
  | [] => True
  | .closing _ :: _ => True
  | _ => False

lemma stops_nil : Stops [] := trivial

lemma stops_closing (b : Bracket) (ts : List Token) : Stops (.closing b :: ts) := trivial

lemma Spells.not_stops {c : Condition} {ts : List Token} (h : Spells c ts) (rest : List Token) :
    ¬ Stops (ts ++ rest) := by
  cases h <;> exact id

lemma Spells.ne_nil {c : Condition} {ts : List Token} (h : Spells c ts) : ts ≠ [] := by
  cases h <;> exact List.cons_ne_nil _ _

/-! ## Unambiguity -/

lemma LiteralWord.unique {w : String} {l m : Literal String} {negative negative' : Bool}
    (h : LiteralWord w.toList l negative) (h' : LiteralWord w.toList m negative') :
    l = m ∧ negative = negative' := by
  have hread := readLiteral_eq_ok_iff.2 h
  rw [readLiteral_eq_ok_iff.2 h'] at hread
  cases hread
  exact ⟨rfl, rfl⟩

lemma signWord_injective {a b : Bool} (h : signWord a = signWord b) : a = b := by
  have hsign := sign?_signWord a
  rw [h, sign?_signWord] at hsign
  exact (Option.some.inj hsign).symm

mutual

/-- Of units that begin with an item, it is known which item that is and where it ends. -/
theorem spells_unique {c d : Condition} {ts us rest rest' : List Token} (hc : Spells c ts)
    (hd : Spells d us) (h : ts ++ rest = us ++ rest') : c = d ∧ rest = rest' := by
  match hc, hd with
  | .literal hword, .literal hword' =>
    simp only [List.singleton_append, List.cons.injEq, Token.word.injEq] at h
    obtain ⟨rfl, hrest⟩ := h
    obtain ⟨rfl, rfl⟩ := hword.unique hword'
    exact ⟨rfl, hrest⟩
  | .signed hoperand, .signed hoperand' =>
    simp only [List.cons_append, List.cons.injEq, Token.word.injEq] at h
    obtain ⟨rfl, hrest⟩ := spells_unique hoperand hoperand' h.2
    exact ⟨by rw [signWord_injective h.1], hrest⟩
  | .group hitems _, .group hitems' _ =>
    simp only [List.cons_append, List.append_assoc, List.nil_append, List.cons.injEq,
      Token.opening.injEq] at h
    obtain ⟨rfl, hrow⟩ := h
    obtain ⟨rfl, hrest⟩ := spellsRow_unique hitems hitems' (stops_closing _ _) (stops_closing _ _) hrow
    exact ⟨rfl, (List.cons.inj hrest).2⟩
  | .literal hword, .signed _ =>
    -- Words decide between literals and signs, and brackets between either of them and groups.
    simp only [List.cons_append, List.cons.injEq, Token.word.injEq] at h
    exact absurd h.1 (hword.ne_signWord _)
  | .signed _, .literal hword =>
    simp only [List.cons_append, List.cons.injEq, Token.word.injEq] at h
    exact absurd h.1.symm (hword.ne_signWord _)
  | .literal _, .group _ _ => cases h
  | .group _ _, .literal _ => cases h
  | .signed _, .group _ _ => cases h
  | .group _ _, .signed _ => cases h

/-- Of units that begin with a row and then stop, it is known which row that is. -/
theorem spellsRow_unique {cs ds : List Condition} {ts us rest rest' : List Token}
    (hcs : SpellsRow cs ts) (hds : SpellsRow ds us) (hrest : Stops rest) (hrest' : Stops rest')
    (h : ts ++ rest = us ++ rest') : cs = ds ∧ rest = rest' := by
  match hcs, hds with
  | .nil, .nil => exact ⟨rfl, h⟩
  | .nil, .cons hitem _ =>
    -- A row that is over stops, and one that goes on does not.
    rw [List.nil_append, List.append_assoc] at h
    rw [h] at hrest
    exact absurd hrest (hitem.not_stops _)
  | .cons hitem _, .nil =>
    rw [List.nil_append, List.append_assoc] at h
    rw [← h] at hrest'
    exact absurd hrest' (hitem.not_stops _)
  | .cons hitem hrow, .cons hitem' hrow' =>
    rw [List.append_assoc, List.append_assoc] at h
    obtain ⟨rfl, htail⟩ := spells_unique hitem hitem' h
    obtain ⟨rfl, hend⟩ := spellsRow_unique hrow hrow' hrest hrest' htail
    exact ⟨rfl, hend⟩

end

/-! ## Taking derivations apart -/

/-- A row that derives the beginning of units which do not stop has a first item. -/
lemma SpellsRow.exists_cons {row : List Condition} {ts rest us : List Token} (h : SpellsRow row ts)
    (hrest : Stops rest) (heq : ts ++ rest = us) (hus : ¬ Stops us) :
    ∃ c cs first more, row = c :: cs ∧ Spells c first ∧ SpellsRow cs more ∧
      first ++ (more ++ rest) = us := by
  cases h with
  | nil => exact absurd (heq ▸ hrest) hus
  | cons hitem hrow =>
    rw [List.append_assoc] at heq
    exact ⟨_, _, _, _, rfl, hitem, hrow, heq⟩

lemma SpellsRow.eq_nil {row : List Condition} {ts rest us : List Token} (h : SpellsRow row ts)
    (heq : ts ++ rest = us) (hus : Stops us) : row = [] ∧ rest = us := by
  cases h with
  | nil => exact ⟨rfl, heq⟩
  | cons hitem hrow =>
    rw [List.append_assoc] at heq
    exact absurd (heq ▸ hus) (hitem.not_stops _)

lemma Spells.exists_group {c : Condition} {ts rest us : List Token} {b : Bracket}
    (h : Spells c ts) (heq : ts ++ rest = .opening b :: us) :
    ∃ cs inner, c = .group b cs ∧ SpellsRow cs inner ∧ inner ++ .closing b :: rest = us := by
  cases h with
  | literal hword => cases heq
  | signed hoperand => cases heq
  | group hitems hne =>
    simp only [List.cons_append, List.append_assoc, List.nil_append, List.cons.injEq,
      Token.opening.injEq] at heq
    obtain ⟨rfl, hinner⟩ := heq
    exact ⟨_, _, rfl, hitems, hinner⟩

/-- An item that begins with a sign of its own has an operand behind it. -/
lemma Spells.exists_signed {c : Condition} {ts rest us : List Token} {negative : Bool}
    (h : Spells c ts) (heq : ts ++ rest = .word (signWord negative) :: us) :
    ∃ d more, c = .signed negative d ∧ Spells d more ∧ more ++ rest = us := by
  cases h with
  | literal hword =>
    simp only [List.singleton_append, List.cons.injEq, Token.word.injEq] at heq
    exact absurd heq.1 (hword.ne_signWord _)
  | signed hoperand =>
    simp only [List.cons_append, List.cons.injEq, Token.word.injEq] at heq
    obtain ⟨hsign, hmore⟩ := heq
    rw [signWord_injective hsign]
    exact ⟨_, _, rfl, hoperand, hmore⟩
  | group hitems hne => cases heq

end StripAutomata.Condition
