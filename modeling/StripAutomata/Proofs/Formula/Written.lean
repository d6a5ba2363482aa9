import StripAutomata.Formula.Render
import StripAutomata.Proofs.Condition.Reading
import StripAutomata.Proofs.Formula.Normal

/-!
# The written form of formulas is read again

A formula that is normal is written as an item of the grammar, `Formula.asWritten`, and that item
means the formula again (`formula_asWritten`).  Its units are those of the written text
(`spells_render`), so reading the text gives the formula back, with its names in order, unless the
text has more groups and signs inside one another than the reader takes (`readFormula_render`,
`readFormula_render_too_deep`).

`Formula.nesting` counts them in the formula: a group for every conjunction and disjunction, and a
sign for every negation but that of a literal, whose sign stands with the name.
-/

namespace StripAutomata

/-! ## Literals -/

/-- Whether the numbers of a literal have 32 bits. -/
def Literal.InRange {σ : Type} (l : Literal σ) : Prop :=
  Item.IsOffset l.position ∧ Item.IsOffset l.time

/-- Whether a literal has a written form that is a literal. -/
def Literal.Writable (l : Literal String) : Prop :=
  l.InRange ∧ Item.isName l.signal.toList = true

namespace Item

/-- The written form of an offset that is left out when it is zero. -/
def writtenOffset (mark : Char) (z : Int) : List Char :=
  if z = 0 then [] else (toString z).toList ++ [mark]

/-- The written form of a sign that is left out when it is a plus. -/
def writtenSign (negative : Bool) : List Char := if negative then ['-'] else []

lemma offsetPart_writtenOffset (mark : Char) {z : Int} (hz : IsOffset z) :
    OffsetPart mark (writtenOffset mark z) z := by
  unfold writtenOffset
  split
  next h => rw [h]; exact OffsetPart.absent
  next => exact OffsetPart.present (spellsOffset_toString z) hz

lemma signPart_writtenSign (negative : Bool) : SignPart (writtenSign negative) negative := by
  cases negative with
  | false => exact SignPart.absent
  | true => exact SignPart.minus

end Item

lemma Literal.toList_render (l : Literal String) (negative : Bool) :
    (l.render negative).toList =
      Item.writtenOffset '/' l.time ++ (Item.writtenOffset '.' l.position ++
        (Item.writtenSign negative ++ l.signal.toList)) := by
  have hslash : (toString "/").toList = ['/'] := rfl
  have hpoint : (toString ".").toList = ['.'] := rfl
  simp only [Literal.render, Item.writtenOffset, Item.writtenSign, String.toList_append]
  split <;> split <;> split <;> simp [hslash, hpoint]

lemma Literal.Writable.literalWord {l : Literal String} (h : l.Writable) (negative : Bool) :
    Condition.LiteralWord (l.render negative).toList l negative := by
  obtain ⟨⟨hposition, htime⟩, hname⟩ := h
  have hword := Condition.LiteralWord.intro (Item.offsetPart_writtenOffset '/' htime)
    (Item.offsetPart_writtenOffset '.' hposition) (Item.signPart_writtenSign negative) hname
  rw [String.ofList_toList] at hword
  rw [Literal.toList_render]
  exact hword

lemma Condition.LiteralWord.isItemChar {cs : List Char} {l : Literal String} {negative : Bool}
    (h : LiteralWord cs l negative) : ∀ c ∈ cs, Item.isItemChar c = true := by
  obtain ⟨htime, hposition, hsign, hname⟩ := h
  intro c hc
  simp only [List.mem_append] at hc
  rcases hc with hc | hc | hc | hc
  · exact Item.isItemChar_of_mem_offsetPart (by decide) htime c hc
  · exact Item.isItemChar_of_mem_offsetPart (by decide) hposition c hc
  · exact Item.isItemChar_of_mem_sign hsign c hc
  · exact Item.isItemChar_of_mem_name hname c hc

lemma Condition.LiteralWord.ne_nil {cs : List Char} {l : Literal String} {negative : Bool}
    (h : LiteralWord cs l negative) : cs ≠ [] := by
  obtain ⟨-, -, -, hname⟩ := h
  have hne := Item.name_ne_nil hname
  simp [hne]

namespace Formula

/-! ## Formulas as items -/

mutual

/-- How many groups and signs stand inside one another in the written form of a formula. -/
def nesting {σ : Type} : Formula σ → Nat
  | always => 0
  | literal _ => 0
  | negation always => 1
  | negation (literal _) => 0
  | negation c => c.nesting + 1
  | conjunction cs => nestingAll cs + 1
  | disjunction cs => nestingAll cs + 1

/-- The nesting of the most deeply nested formula of a list. -/
def nestingAll {σ : Type} : List (Formula σ) → Nat
  | [] => 0
  | c :: cs => max c.nesting (nestingAll cs)

end

mutual

/-- The item as which a formula is written.  The formula `always` is written as no item at all;
there is one for it here only because every formula needs one. -/
def asWritten : Formula String → Condition
  | always => .group .round []
  | literal l => .literal l false
  | negation always => .group .square []
  | negation (literal l) => .literal l true
  | negation c => .signed true c.asWritten
  | conjunction cs => .group .round (asWrittenAll cs)
  | disjunction cs => .group .square (asWrittenAll cs)

/-- The items as which the formulas of a list are written. -/
def asWrittenAll : List (Formula String) → List Condition
  | [] => []
  | c :: cs => c.asWritten :: asWrittenAll cs

end

/-- The row of items as which a condition is written. -/
def row (c : Formula String) : List Condition :=
  if c.isAlways then [] else [c.asWritten]

lemma asWrittenAll_eq_map (cs : List (Formula String)) : asWrittenAll cs = cs.map asWritten := by
  induction cs with
  | nil => rfl
  | cons c cs ih => rw [asWrittenAll, ih, List.map_cons]

/-- Whether the negation of a formula is written with a sign of its own. -/
def takesSign {σ : Type} : Formula σ → Bool
  | always => false
  | literal _ => false
  | _ => true

lemma asWritten_negation {c : Formula String} (h : c.takesSign = true) :
    (negation c).asWritten = .signed true c.asWritten := by
  cases c with
  | always => cases h
  | literal l => cases h
  | _ => rfl

lemma nesting_negation {σ : Type} {c : Formula σ} (h : c.takesSign = true) :
    (negation c).nesting = c.nesting + 1 := by
  cases c with
  | always => cases h
  | literal l => cases h
  | _ => rfl

lemma render_negation {c : Formula String} (h : c.takesSign = true) :
    (negation c).render = "-" ++ c.render := by
  cases c with
  | always => cases h
  | literal l => cases h
  | _ => rfl

/-- The three ways in which a negation is written. -/
lemma takesSign_cases {σ : Type} (c : Formula σ) :
    c = always ∨ (∃ l, c = literal l) ∨ c.takesSign = true := by
  cases c with
  | always => exact Or.inl rfl
  | literal l => exact Or.inr (Or.inl ⟨l, rfl⟩)
  | _ => exact Or.inr (Or.inr rfl)

lemma isAlways_of_takesSign {σ : Type} {c : Formula σ} (h : c.takesSign = true) :
    c.isAlways = false := by
  cases c with
  | always => cases h
  | literal l => cases h
  | _ => rfl

/-- Induction on normal formulas by how they are written.  Of the negations, `never` and those of
literals are written without a sign of their own. -/
@[elab_as_elim]
theorem Normal.inductionOnWritten {σ : Type} {motive : Formula σ → Prop} {c : Formula σ}
    (hc : c.Normal) (halways : c.isAlways = false) (literal : ∀ l, motive (.literal l))
    (never : motive .never) (negated : ∀ l, motive (.negation (.literal l)))
    (signed : ∀ c, c.isNegation = false → c.takesSign = true → motive c → motive (.negation c))
    (conjunction : ∀ cs, (∀ c ∈ cs, c.IsConjunct) → 2 ≤ cs.length → (∀ c ∈ cs, motive c) →
      motive (.conjunction cs))
    (disjunction : ∀ cs, (∀ c ∈ cs, c.IsDisjunct) → 2 ≤ cs.length → (∀ c ∈ cs, motive c) →
      motive (.disjunction cs)) : motive c := by
  induction hc with
  | always => cases halways
  | literal l => exact literal l
  | @negation c hc hflat ih =>
    rcases takesSign_cases c with rfl | ⟨l, rfl⟩ | hsign
    · exact never
    · exact negated l
    · exact signed c hflat hsign (ih (isAlways_of_takesSign hsign))
  | @conjunction cs hcs hflat hlength ih =>
    exact conjunction cs hflat hlength fun c hc => ih c hc (hflat c hc).1
  | @disjunction cs hcs hflat hlength ih =>
    exact disjunction cs hflat hlength fun c hc => ih c hc (hflat c hc).1

/-! ## The item means the formula -/

lemma map_formula_asWritten {cs : List (Formula String)}
    (h : ∀ c ∈ cs, c.asWritten.formula = c) : (cs.map asWritten).map Condition.formula = cs := by
  rw [List.map_map]
  exact (List.map_congr_left h).trans (List.map_id cs)

/-- The item of a normal formula means that formula. -/
theorem formula_asWritten {c : Formula String} (hc : c.Normal) (halways : c.isAlways = false) :
    c.asWritten.formula = c := by
  refine Normal.inductionOnWritten hc halways ?literal ?never ?negated ?signed ?conjunction
    ?disjunction
  case literal =>
    intro l
    rfl
  case never => rfl
  case negated =>
    intro l
    rfl
  case signed =>
    intro c hflat hsign ih
    rw [asWritten_negation hsign, Condition.formula, if_pos rfl, ih, negate_of_not_negation hflat]
  case conjunction =>
    intro cs hflat hlength ih
    rw [asWritten, asWrittenAll_eq_map, Condition.formula, Condition.formulas_eq_map,
      map_formula_asWritten ih, all_operands hflat hlength]
  case disjunction =>
    intro cs hflat hlength ih
    rw [asWritten, asWrittenAll_eq_map, Condition.formula, Condition.formulas_eq_map,
      map_formula_asWritten ih, any_operands hflat hlength]

lemma depthAll_map_asWritten {cs : List (Formula String)}
    (h : ∀ c ∈ cs, c.asWritten.depth = c.nesting) :
    Condition.depthAll (cs.map asWritten) = nestingAll cs := by
  induction cs with
  | nil => rfl
  | cons c cs ih =>
    obtain ⟨hc, hcs⟩ := List.forall_mem_cons.1 h
    rw [List.map_cons, Condition.depthAll, nestingAll, hc, ih hcs]

lemma depth_asWritten {c : Formula String} (hc : c.Normal) (halways : c.isAlways = false) :
    c.asWritten.depth = c.nesting := by
  refine Normal.inductionOnWritten hc halways ?literal ?never ?negated ?signed ?conjunction
    ?disjunction
  case literal =>
    intro l
    rfl
  case never => rfl
  case negated =>
    intro l
    rfl
  case signed =>
    intro c hflat hsign ih
    rw [asWritten_negation hsign, nesting_negation hsign, Condition.depth, ih]
  case conjunction =>
    intro cs hflat hlength ih
    rw [asWritten, asWrittenAll_eq_map, nesting, Condition.depth, depthAll_map_asWritten ih]
  case disjunction =>
    intro cs hflat hlength ih
    rw [asWritten, asWrittenAll_eq_map, nesting, Condition.depth, depthAll_map_asWritten ih]

lemma namesAll_map_asWritten {cs : List (Formula String)}
    (h : ∀ c ∈ cs, c.asWritten.names = c.literals.map (·.signal)) :
    Condition.namesAll (cs.map asWritten) = (literalsAll cs).map (·.signal) := by
  induction cs with
  | nil => rfl
  | cons c cs ih =>
    obtain ⟨hc, hcs⟩ := List.forall_mem_cons.1 h
    rw [List.map_cons, Condition.namesAll, literalsAll, List.map_append, hc, ih hcs]

lemma names_asWritten {c : Formula String} (hc : c.Normal) (halways : c.isAlways = false) :
    c.asWritten.names = c.literals.map (·.signal) := by
  refine Normal.inductionOnWritten hc halways ?literal ?never ?negated ?signed ?conjunction
    ?disjunction
  case literal =>
    intro l
    rfl
  case never => rfl
  case negated =>
    intro l
    rfl
  case signed =>
    intro c hflat hsign ih
    rw [asWritten_negation hsign, literals, Condition.names, ih]
  case conjunction =>
    intro cs hflat hlength ih
    rw [asWritten, asWrittenAll_eq_map, literals, Condition.names, namesAll_map_asWritten ih]
  case disjunction =>
    intro cs hflat hlength ih
    rw [asWritten, asWrittenAll_eq_map, literals, Condition.names, namesAll_map_asWritten ih]

/-! ## The written text has the units of the item -/

/-- Whether a word that stands before a text ends there. -/
def EndsWord (rest : List Char) : Prop := ∀ c ∈ rest.head?, Condition.isWordPart c = false

lemma endsWord_opening (b : Condition.Bracket) (rest : List Char) :
    EndsWord (b.opening :: rest) := by
  intro c hc
  cases hc
  cases b <;> rfl

lemma endsWord_closing (b : Condition.Bracket) (rest : List Char) :
    EndsWord (b.closing :: rest) := by
  intro c hc
  cases hc
  cases b <;> rfl

lemma endsWord_space (rest : List Char) : EndsWord (' ' :: rest) := by
  intro c hc
  cases hc
  decide

/-- Whether the units of the written text of a formula derive its item, whatever follows. -/
def SpelledByText (c : Formula String) : Prop :=
  ∃ ts, Condition.Spells c.asWritten ts ∧ ∀ rest, EndsWord rest →
    Condition.Token.scan (c.render.toList ++ rest) = ts ++ Condition.Token.scan rest

lemma scan_literal {w : String} {l : Literal String} {negative : Bool}
    (hword : Condition.LiteralWord w.toList l negative) {rest : List Char} (hrest : EndsWord rest) :
    Condition.Token.scan (w.toList ++ rest) = .word w :: Condition.Token.scan rest := by
  rw [Condition.Token.scan_word hword.ne_nil
    (fun c hc => Item.isWordPart_of_isItemChar (hword.isItemChar c hc)) hrest, String.ofList_toList]

/-- The text of the operands of a group, without the brackets around them. -/
def operandsText (cs : List (Formula String)) : List Char :=
  [' '].intercalate (cs.map fun c => c.render.toList)

lemma spellsRow_operandsText {cs : List (Formula String)} (h : ∀ c ∈ cs, c.SpelledByText) :
    ∃ ts, Condition.SpellsRow (cs.map asWritten) ts ∧ ∀ rest, EndsWord rest →
      Condition.Token.scan (operandsText cs ++ rest) =
        ts ++ Condition.Token.scan rest := by
  induction cs with
  | nil => exact ⟨[], Condition.SpellsRow.nil, fun rest _ => rfl⟩
  | cons c cs ih =>
    obtain ⟨hc, hcs⟩ := List.forall_mem_cons.1 h
    obtain ⟨ts, hspells, hscan⟩ := hc
    obtain ⟨us, hrow, hscanRow⟩ := ih hcs
    refine ⟨ts ++ us, Condition.SpellsRow.cons hspells hrow, fun rest hrest => ?_⟩
    cases cs with
    | nil =>
      cases hrow
      rw [operandsText, List.map_singleton, List.intercalate_singleton, List.append_nil]
      exact hscan rest hrest
    | cons d ds =>
      -- The space between two operands ends the word that the first one may end with.
      have htail := hscanRow rest hrest
      rw [operandsText, List.map_cons] at htail
      rw [operandsText, List.map_cons, List.map_cons, List.intercalate_cons_cons, List.append_assoc,
        List.append_assoc, List.singleton_append, hscan _ (endsWord_space _),
        Condition.Token.scan_blank Text.isBlank_space, htail, List.append_assoc]

lemma spells_group {cs : List (Formula String)} (b : Condition.Bracket)
    (h : ∀ c ∈ cs, c.SpelledByText) (hne : cs ≠ []) :
    ∃ ts, Condition.Spells (.group b (cs.map asWritten)) ts ∧ ∀ rest, EndsWord rest →
      Condition.Token.scan
        ((b.opening :: operandsText cs ++ [b.closing]) ++ rest) =
        ts ++ Condition.Token.scan rest := by
  obtain ⟨ts, hrow, hscan⟩ := spellsRow_operandsText h
  refine ⟨_, Condition.Spells.group hrow fun _ => by simpa using hne, fun rest hrest => ?_⟩
  have hinner := hscan (b.closing :: rest) (endsWord_closing b rest)
  simp only [List.cons_append, List.append_assoc, List.nil_append]
  rw [Condition.Token.scan_opening, hinner, Condition.Token.scan_closing]

lemma toList_intercalate_renderAll (cs : List (Formula String)) :
    (" ".intercalate (renderAll cs)).toList = operandsText cs := by
  rw [String.toList_intercalate, renderAll_eq_map, List.map_map]
  rfl

lemma toList_render_conjunction (cs : List (Formula String)) :
    (conjunction cs).render.toList = '(' :: operandsText cs ++ [')'] := by
  rw [render, String.toList_append, String.toList_append, toList_intercalate_renderAll]
  rfl

lemma toList_render_disjunction (cs : List (Formula String)) :
    (disjunction cs).render.toList = '[' :: operandsText cs ++ [']'] := by
  rw [render, String.toList_append, String.toList_append, toList_intercalate_renderAll]
  rfl

/-- What a sign of its own stands before begins with a bracket. -/
lemma endsWord_of_takesSign {c : Formula String} (hsign : c.takesSign = true)
    (hflat : c.isNegation = false) (rest : List Char) : EndsWord (c.render.toList ++ rest) := by
  cases c with
  | always => cases hsign
  | literal l => cases hsign
  | negation c => cases hflat
  | conjunction cs => rw [toList_render_conjunction]; exact endsWord_opening .round _
  | disjunction cs => rw [toList_render_disjunction]; exact endsWord_opening .square _

/-- A sign of its own is a word of its own. -/
lemma scan_render_negation {c : Formula String} (hsign : c.takesSign = true)
    (hflat : c.isNegation = false) (rest : List Char) :
    Condition.Token.scan ((negation c).render.toList ++ rest) =
      .word (Condition.signWord true) :: Condition.Token.scan (c.render.toList ++ rest) := by
  have hpart : ∀ x ∈ ['-'], Condition.isWordPart x = true := List.forall_mem_singleton.2 rfl
  rw [render_negation hsign, String.toList_append, List.append_assoc]
  exact Condition.Token.scan_word (List.cons_ne_nil _ _) hpart
    (endsWord_of_takesSign hsign hflat rest)

/-- The units of the written text of a normal formula derive its item. -/
theorem spells_render {c : Formula String} (hc : c.Normal) (halways : c.isAlways = false)
    (hwritable : ∀ l ∈ c.literals, l.Writable) : c.SpelledByText := by
  revert hwritable
  refine Normal.inductionOnWritten hc halways ?literal ?never ?negated ?signed ?conjunction
    ?disjunction
  case literal =>
    intro l hwritable
    have hword := (hwritable l (List.mem_singleton_self l)).literalWord false
    exact ⟨_, Condition.Spells.literal hword, fun rest hrest => scan_literal hword hrest⟩
  case never =>
    -- What stands for `never` is a group without items, which only square brackets may be.
    intro hwritable
    have hempty := Condition.Spells.group (b := .square) Condition.SpellsRow.nil fun h => by cases h
    refine ⟨_, hempty, fun rest hrest => ?_⟩
    exact (Condition.Token.scan_opening .square _).trans
      (congrArg _ (Condition.Token.scan_closing .square rest))
  case negated =>
    intro l hwritable
    have hword := (hwritable l (List.mem_singleton_self l)).literalWord true
    exact ⟨_, Condition.Spells.literal hword, fun rest hrest => scan_literal hword hrest⟩
  case signed =>
    intro c hflat hsign ih hwritable
    obtain ⟨ts, hspells, hscan⟩ := ih hwritable
    refine ⟨.word (Condition.signWord true) :: ts, ?_, fun rest hrest => ?_⟩
    · rw [asWritten_negation hsign]
      exact Condition.Spells.signed hspells
    · rw [scan_render_negation hsign hflat, hscan rest hrest, List.cons_append]
  case conjunction =>
    intro cs hflat hlength ih hwritable
    have hoperands : ∀ c ∈ cs, c.SpelledByText := fun c hc =>
      ih c hc (forall_literals_conjunction hwritable c hc)
    have hne : cs ≠ [] := by rintro rfl; simp at hlength
    rw [SpelledByText, asWritten, asWrittenAll_eq_map, toList_render_conjunction]
    exact spells_group .round hoperands hne
  case disjunction =>
    intro cs hflat hlength ih hwritable
    have hoperands : ∀ c ∈ cs, c.SpelledByText := fun c hc =>
      ih c hc (forall_literals_disjunction hwritable c hc)
    have hne : cs ≠ [] := by rintro rfl; simp at hlength
    rw [SpelledByText, asWritten, asWrittenAll_eq_map, toList_render_disjunction]
    exact spells_group .square hoperands hne

/-! ## Reading the written text -/

lemma row_cases (c : Formula String) :
    c = always ∧ c.row = [] ∨ c.isAlways = false ∧ c.row = [c.asWritten] := by
  by_cases halways : c.isAlways = true
  · cases c with
    | always => exact Or.inl ⟨rfl, rfl⟩
    | _ => cases halways
  · rw [Bool.not_eq_true] at halways
    exact Or.inr ⟨halways, by simp [row, halways]⟩

lemma spellsRow_row {c : Formula String} (hc : c.Normal)
    (hwritable : ∀ l ∈ c.literals, l.Writable) :
    Condition.SpellsRow c.row (Condition.Token.scan c.render.toList) := by
  rcases c.row_cases with ⟨rfl, hrow⟩ | ⟨halways, hrow⟩
  · exact Condition.SpellsRow.nil
  · obtain ⟨ts, hspells, hscan⟩ := spells_render hc halways hwritable
    have hall := hscan [] (by simp [EndsWord])
    rw [List.append_nil] at hall
    rw [hall, hrow]
    exact Condition.SpellsRow.cons hspells Condition.SpellsRow.nil

lemma depthAll_row {c : Formula String} (hc : c.Normal) :
    Condition.depthAll c.row = c.nesting := by
  rcases c.row_cases with ⟨rfl, hrow⟩ | ⟨halways, hrow⟩
  · rfl
  · simp [hrow, Condition.depthAll, depth_asWritten hc halways]

lemma all_formulas_row {c : Formula String} (hc : c.Normal) :
    Formula.all (Condition.formulas c.row) = c := by
  rcases c.row_cases with ⟨rfl, hrow⟩ | ⟨halways, hrow⟩
  · rfl
  · simp [hrow, Condition.formulas, formula_asWritten hc halways, all_singleton hc]

lemma namesAll_row {c : Formula String} (hc : c.Normal) :
    Condition.namesAll c.row = c.literals.map (·.signal) := by
  rcases c.row_cases with ⟨rfl, hrow⟩ | ⟨halways, hrow⟩
  · rfl
  · simp [hrow, Condition.namesAll, names_asWritten hc halways]

/-- The written text of a normal formula is read as the formula, if it is not nested too deeply. -/
theorem readFormula_render {c : Formula String} (hc : c.Normal)
    (hwritable : ∀ l ∈ c.literals, l.Writable) (hnesting : c.nesting ≤ Condition.maxDepth) :
    Condition.readFormula c.render.toList = ⟨c.literals.map (·.signal), .ok c⟩ := by
  have hread := Condition.read_of_spellsRow (spellsRow_row hc hwritable)
    (by rw [depthAll_row hc]; exact hnesting)
  simp [Condition.readFormula, hread, all_formulas_row hc, namesAll_row hc]

/-- A conjunction may also be written without the brackets around its operands, which are then one
group less deep. -/
theorem readFormula_operandsText {cs : List (Formula String)} (hc : (conjunction cs).Normal)
    (hwritable : ∀ l ∈ (conjunction cs).literals, l.Writable)
    (hnesting : nestingAll cs ≤ Condition.maxDepth) :
    Condition.readFormula (operandsText cs) =
      ⟨(conjunction cs).literals.map (·.signal), .ok (conjunction cs)⟩ := by
  obtain ⟨hcs, hflat, hlength⟩ : (∀ c ∈ cs, c.Normal) ∧ (∀ c ∈ cs, c.IsConjunct) ∧
      2 ≤ cs.length := by
    cases hc with
    | conjunction hcs hflat hlength => exact ⟨hcs, hflat, hlength⟩
  have hspelled : ∀ c ∈ cs, c.SpelledByText := fun c hc =>
    spells_render (hcs c hc) (hflat c hc).1 (forall_literals_conjunction hwritable c hc)
  obtain ⟨ts, hrow, hscan⟩ := spellsRow_operandsText hspelled
  have hall := hscan [] (by simp [EndsWord])
  rw [List.append_nil] at hall
  have hdepth : Condition.depthAll (cs.map asWritten) = nestingAll cs :=
    depthAll_map_asWritten fun c hc => depth_asWritten (hcs c hc) (hflat c hc).1
  -- The operands alone are a row; reading makes the conjunction of its items.
  have hread : Condition.read (operandsText cs) =
      ⟨Condition.namesAll (cs.map asWritten), .ok (cs.map asWritten)⟩ := by
    refine Condition.read_of_spellsRow ?_ (by rwa [hdepth])
    rw [hall]
    simpa [Condition.Token.scan, Text.pieces] using hrow
  have hformula := formula_asWritten hc rfl
  rw [asWritten, asWrittenAll_eq_map, Condition.formula] at hformula
  rw [Condition.readFormula, hread]
  simp [hformula, literals, namesAll_map_asWritten fun c hc =>
    names_asWritten (hcs c hc) (hflat c hc).1]

/-- The written text of a formula that is nested too deeply is refused for that. -/
theorem readFormula_render_too_deep {c : Formula String} (hc : c.Normal)
    (hwritable : ∀ l ∈ c.literals, l.Writable) (hnesting : Condition.maxDepth < c.nesting) :
    Condition.TooDeep (Condition.readFormula c.render.toList) := by
  obtain ⟨token, hread⟩ := Condition.read_too_deep (spellsRow_row hc hwritable)
    (by rw [depthAll_row hc]; exact hnesting)
  exact ⟨token, Reading.outcome_bind_of_error hread _⟩

end Formula
end StripAutomata
