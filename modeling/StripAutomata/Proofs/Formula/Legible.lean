import StripAutomata.Proofs.Formula.Truth

/-!
# What the written form of any formula says

A formula that was not put together with the builders has a written form too, and need not be the
formula that is read.  Where `always` is an operand of a disjunction, nothing is written for it, and
what is read does not hold everywhere; and where a negation stands right under a negation, their
signs run together with what comes after them.  These two are all that can go wrong: the written
form of any other formula, `Formula.Legible`, is refused or says what the formula says
(`holds_of_readFormula`).

The written form has the units `Formula.units` (`scan_render`).  If they derive a row at all, it is
the row `Formula.items`, by the grammar being unambiguous (`leads`), and that
row holds where the formula does (`holds_items`).
-/

namespace StripAutomata.Formula

variable {σ : Type} {c : Formula σ} {cs : List (Formula σ)}

/-! ## What the builders make -/

section Builders

variable {present : Int → σ → Prop}

lemma holds_negate : c.negate.Holds present ↔ ¬ c.Holds present := by
  cases c with
  | negation c => exact not_not.symm
  | _ => rfl

lemma holdsAll_conjuncts : (∀ d ∈ c.conjuncts, d.Holds present) ↔ c.Holds present := by
  cases c with
  | always => simp [conjuncts, Holds]
  | conjunction cs => exact holdsAll_iff.symm
  | _ => exact List.forall_mem_singleton

lemma holds_all : (Formula.all cs).Holds present ↔ ∀ c ∈ cs, c.Holds present := by
  have hflat : (∀ d ∈ cs.flatMap conjuncts, d.Holds present) ↔ ∀ c ∈ cs, c.Holds present := by
    rw [List.forall_mem_flatMap]
    exact forall₂_congr fun c _ => holdsAll_conjuncts
  rw [← hflat, Formula.all]
  rcases cs.flatMap conjuncts with _ | ⟨d, _ | ⟨e, ds⟩⟩
  · exact iff_of_true trivial (List.forall_mem_nil _)
  · exact List.forall_mem_singleton.symm
  · exact holdsAll_iff

lemma exists_mem_flatMap {α β : Type} {l : List α} {f : α → List β} {p : β → Prop} :
    (∃ b ∈ l.flatMap f, p b) ↔ ∃ a ∈ l, ∃ b ∈ f a, p b := by
  constructor
  · rintro ⟨b, hb, hp⟩
    obtain ⟨a, ha, hba⟩ := List.mem_flatMap.1 hb
    exact ⟨a, ha, b, hba, hp⟩
  · rintro ⟨a, ha, b, hb, hp⟩
    exact ⟨b, List.mem_flatMap.2 ⟨a, ha, hb⟩, hp⟩

lemma holdsSome_disjuncts : (∃ d ∈ c.disjuncts, d.Holds present) ↔ c.Holds present := by
  cases c with
  | disjunction cs => exact holdsSome_iff.symm
  | _ => simp [disjuncts]

lemma holds_any : (Formula.any cs).Holds present ↔ ∃ c ∈ cs, c.Holds present := by
  by_cases halways : cs.any isAlways = true
  · rw [Formula.any, if_pos halways]
    obtain ⟨c, hc, hcalways⟩ := List.any_eq_true.1 halways
    refine iff_of_true trivial ⟨c, hc, ?_⟩
    cases c with
    | always => trivial
    | _ => cases hcalways
  · have hflat : (∃ d ∈ cs.flatMap disjuncts, d.Holds present) ↔ ∃ c ∈ cs, c.Holds present := by
      rw [exists_mem_flatMap]
      exact exists_congr fun c => and_congr_right fun _ => holdsSome_disjuncts
    rw [← hflat, Formula.any, if_neg halways]
    rcases cs.flatMap disjuncts with _ | ⟨d, _ | ⟨e, ds⟩⟩
    · exact iff_of_false (fun h => h trivial) (by simp)
    · simp
    · exact holdsSome_iff

end Builders

/-! ## Formulas that can be read back -/

/-- Whether the written form of a formula says what the formula says: no negation stands right under
a negation, and `always` is no operand of a disjunction. -/
inductive Legible : Formula σ → Prop
  | always : Legible .always
  | literal (l : Literal σ) : Legible (.literal l)
  | negation {c : Formula σ} (hc : Legible c) (hflat : c.isNegation = false) : Legible (.negation c)
  | conjunction {cs : List (Formula σ)} (hcs : ∀ c ∈ cs, Legible c) : Legible (.conjunction cs)
  | disjunction {cs : List (Formula σ)} (hcs : ∀ c ∈ cs, Legible c)
      (hflat : ∀ c ∈ cs, c.isAlways = false) : Legible (.disjunction cs)

lemma Normal.legible (h : c.Normal) : c.Legible := by
  induction h with
  | always => exact Legible.always
  | literal l => exact Legible.literal l
  | negation hc hflat ih => exact Legible.negation ih hflat
  | conjunction hcs hflat hlength ih => exact Legible.conjunction ih
  | disjunction hcs hflat hlength ih => exact Legible.disjunction ih fun c hc => (hflat c hc).1

mutual

/-- The units of the written form of a formula. -/
def units : Formula String → List Condition.Token
  | always => []
  | literal l => [.word (l.render false)]
  | negation always => [.opening .square, .closing .square]
  | negation (literal l) => [.word (l.render true)]
  | negation c => .word (Condition.signWord true) :: c.units
  | conjunction cs => .opening .round :: (unitsAll cs ++ [.closing .round])
  | disjunction cs => .opening .square :: (unitsAll cs ++ [.closing .square])

/-- The units of the written forms of the formulas of a list. -/
def unitsAll : List (Formula String) → List Condition.Token
  | [] => []
  | c :: cs => c.units ++ unitsAll cs

end

mutual

/-- The items that the written form of a formula is read as: none for `always`, and one for any
other formula. -/
def items : Formula String → List Condition
  | always => []
  | literal l => [.literal l false]
  | negation always => [.group .square []]
  | negation (literal l) => [.literal l true]
  | negation c => c.items.map (.signed true)
  | conjunction cs => [.group .round (itemsAll cs)]
  | disjunction cs => [.group .square (itemsAll cs)]

/-- The items that the written forms of the formulas of a list are read as. -/
def itemsAll : List (Formula String) → List Condition
  | [] => []
  | c :: cs => c.items ++ itemsAll cs

end

lemma units_negation {c : Formula String} (h : c.takesSign = true) :
    (negation c).units = .word (Condition.signWord true) :: c.units := by
  cases c with
  | always => cases h
  | literal l => cases h
  | _ => rfl

lemma items_negation {c : Formula String} (h : c.takesSign = true) :
    (negation c).items = c.items.map (.signed true) := by
  cases c with
  | always => cases h
  | literal l => cases h
  | _ => rfl

lemma exists_items_eq {c : Formula String} (h : c.isAlways = false) : ∃ i, c.items = [i] := by
  induction c with
  | always => cases h
  | literal l => exact ⟨_, rfl⟩
  | negation c ih =>
    rcases takesSign_cases c with rfl | ⟨l, rfl⟩ | hsign
    · exact ⟨_, rfl⟩
    · exact ⟨_, rfl⟩
    · obtain ⟨i, hi⟩ := ih (isAlways_of_takesSign hsign)
      exact ⟨.signed true i, by rw [items_negation hsign, hi]; rfl⟩
  | conjunction cs ih => exact ⟨_, rfl⟩
  | disjunction cs ih => exact ⟨_, rfl⟩

/-- Induction on legible formulas by how they are written.  A sign of its own stands before a group
only. -/
@[elab_as_elim]
theorem Legible.inductionOnWritten {motive : Formula String → Prop} {c : Formula String}
    (hc : c.Legible) (always : motive .always) (literal : ∀ l, motive (.literal l))
    (never : motive .never) (negated : ∀ l, motive (.negation (.literal l)))
    (signed : ∀ c, c.isNegation = false → c.takesSign = true → motive c → motive (.negation c))
    (conjunction : ∀ cs, (∀ c ∈ cs, motive c) → motive (.conjunction cs))
    (disjunction : ∀ cs, (∀ c ∈ cs, c.isAlways = false) → (∀ c ∈ cs, motive c) →
      motive (.disjunction cs)) : motive c := by
  induction hc with
  | always => exact always
  | literal l => exact literal l
  | @negation c hc hflat ih =>
    rcases takesSign_cases c with rfl | ⟨l, rfl⟩ | hsign
    · exact never
    · exact negated l
    · exact signed c hflat hsign ih
  | @conjunction cs hcs ih => exact conjunction cs ih
  | @disjunction cs hcs hflat ih => exact disjunction cs hflat ih

/-! ## Units -/

/-- Whether the written form of a formula has its units, whatever follows. -/
def Scans (c : Formula String) : Prop := ∀ rest, EndsWord rest →
  Condition.Token.scan (c.render.toList ++ rest) = c.units ++ Condition.Token.scan rest

lemma scan_operandsText {cs : List (Formula String)} (h : ∀ c ∈ cs, c.Scans) {rest : List Char}
    (hrest : EndsWord rest) :
    Condition.Token.scan (operandsText cs ++ rest) = unitsAll cs ++ Condition.Token.scan rest := by
  induction cs with
  | nil => rfl
  | cons c cs ih =>
    obtain ⟨hc, hcs⟩ := List.forall_mem_cons.1 h
    cases cs with
    | nil =>
      rw [operandsText, List.map_singleton, List.intercalate_singleton, hc rest hrest, unitsAll,
        unitsAll, List.append_nil]
    | cons d ds =>
      have htail := ih hcs
      rw [operandsText, List.map_cons] at htail
      rw [operandsText, List.map_cons, List.map_cons, List.intercalate_cons_cons, List.append_assoc,
        List.append_assoc, List.singleton_append, hc _ (endsWord_space _),
        Condition.Token.scan_blank Text.isBlank_space, htail, ← List.append_assoc]
      rfl

lemma scan_group {cs : List (Formula String)} (h : ∀ c ∈ cs, c.Scans) (b : Condition.Bracket)
    (rest : List Char) :
    Condition.Token.scan ((b.opening :: operandsText cs ++ [b.closing]) ++ rest) =
      .opening b :: (unitsAll cs ++ [.closing b]) ++ Condition.Token.scan rest := by
  have hinner := scan_operandsText h (endsWord_closing b rest)
  simp only [List.cons_append, List.append_assoc, List.nil_append]
  rw [Condition.Token.scan_opening, hinner, Condition.Token.scan_closing]

/-- The written form of a legible formula has its units. -/
theorem scan_render {c : Formula String} (hc : c.Legible)
    (hwritable : ∀ l ∈ c.literals, l.Writable) :
    c.Scans := by
  revert hwritable
  refine Legible.inductionOnWritten hc ?always ?literal ?never ?negated ?signed ?conjunction
    ?disjunction
  case always => exact fun _ rest _ => rfl
  case literal =>
    intro l hwritable rest hrest
    exact scan_literal ((hwritable l (List.mem_singleton_self l)).literalWord false) hrest
  case never => exact fun _ rest _ => scan_group (List.forall_mem_nil _) .square rest
  case negated =>
    intro l hwritable rest hrest
    exact scan_literal ((hwritable l (List.mem_singleton_self l)).literalWord true) hrest
  case signed =>
    intro c hflat hsign ih hwritable rest hrest
    rw [scan_render_negation hsign hflat, ih hwritable rest hrest, units_negation hsign,
      List.cons_append]
  case conjunction =>
    intro cs ih hwritable rest _
    rw [toList_render_conjunction]
    refine scan_group (fun c hc => ?_) .round rest
    exact ih c hc (forall_literals_conjunction hwritable c hc)
  case disjunction =>
    intro cs _ ih hwritable rest _
    rw [toList_render_disjunction]
    refine scan_group (fun c hc => ?_) .square rest
    exact ih c hc (forall_literals_disjunction hwritable c hc)

/-! ## Items -/

/-- Whether a row begins with the items of a formula if its units begin with those of it. -/
def Leads (c : Formula String) : Prop := ∀ row ts stop rest, Condition.SpellsRow row ts →
  Condition.Stops stop → ts ++ stop = c.units ++ rest →
    ∃ more us, row = c.items ++ more ∧ Condition.SpellsRow more us ∧ us ++ stop = rest

/-- A row whose units are those of formulas up to where it stops has the items of the formulas. -/
lemma row_eq_itemsAll {cs : List (Formula String)} (h : ∀ c ∈ cs, c.Leads) {row : List Condition}
    {ts stop rest : List Condition.Token} (hrow : Condition.SpellsRow row ts)
    (hstop : Condition.Stops stop) (hrest : Condition.Stops rest)
    (heq : ts ++ stop = unitsAll cs ++ rest) : row = itemsAll cs ∧ stop = rest := by
  induction cs generalizing row ts with
  | nil => exact hrow.eq_nil heq hrest
  | cons c cs ih =>
    obtain ⟨hc, hcs⟩ := List.forall_mem_cons.1 h
    rw [unitsAll, List.append_assoc] at heq
    obtain ⟨more, us, rfl, hmore, htail⟩ := hc row ts stop _ hrow hstop heq
    obtain ⟨rfl, hend⟩ := ih hcs hmore htail
    exact ⟨rfl, hend⟩

section

variable {row : List Condition} {ts stop rest : List Condition.Token}

lemma exists_of_literal_units {l : Literal String} (hl : l.Writable) (negative : Bool)
    (hrow : Condition.SpellsRow row ts) (hstop : Condition.Stops stop)
    (heq : ts ++ stop = .word (l.render negative) :: rest) :
    ∃ more us, row = [.literal l negative] ++ more ∧ Condition.SpellsRow more us ∧
      us ++ stop = rest := by
  obtain ⟨c, cs, first, more, rfl, hfirst, hmore, hsplit⟩ := hrow.exists_cons hstop heq id
  obtain ⟨rfl, htail⟩ := Condition.spells_unique hfirst
    (Condition.Spells.literal (hl.literalWord negative)) hsplit
  exact ⟨cs, more, rfl, hmore, htail⟩

lemma exists_of_group_units {cs : List (Formula String)} (h : ∀ c ∈ cs, c.Leads)
    (b : Condition.Bracket) (hrow : Condition.SpellsRow row ts) (hstop : Condition.Stops stop)
    (heq : ts ++ stop = .opening b :: (unitsAll cs ++ [.closing b]) ++ rest) :
    ∃ more us, row = [.group b (itemsAll cs)] ++ more ∧ Condition.SpellsRow more us ∧
      us ++ stop = rest := by
  rw [List.cons_append, List.append_assoc] at heq
  obtain ⟨c, row, first, more, rfl, hfirst, hmore, hsplit⟩ := hrow.exists_cons hstop heq id
  obtain ⟨items, inner, rfl, hitems, hinner⟩ := hfirst.exists_group hsplit
  obtain ⟨rfl, hend⟩ := row_eq_itemsAll h hitems (Condition.stops_closing b _)
    (Condition.stops_closing b _) hinner
  exact ⟨row, more, rfl, hmore, (List.cons.inj hend).2⟩

end

/-- **There is one way to read a legible formula.** -/
theorem leads {c : Formula String} (hc : c.Legible) (hwritable : ∀ l ∈ c.literals, l.Writable) :
    c.Leads := by
  revert hwritable
  refine Legible.inductionOnWritten hc ?always ?literal ?never ?negated ?signed ?conjunction
    ?disjunction
  case always => exact fun _ row ts stop rest hrow _ heq => ⟨row, ts, rfl, hrow, heq⟩
  case literal =>
    intro l hwritable row ts stop rest
    exact exists_of_literal_units (hwritable l (List.mem_singleton_self l)) false
  case never =>
    intro _ row ts stop rest
    exact exists_of_group_units (List.forall_mem_nil _) .square
  case negated =>
    intro l hwritable row ts stop rest
    exact exists_of_literal_units (hwritable l (List.mem_singleton_self l)) true
  case signed =>
    intro c hflat hsign ih hwritable row ts stop rest hrow hstop heq
    rw [units_negation hsign, List.cons_append] at heq
    obtain ⟨d, row, first, more, rfl, hfirst, hmore, hsplit⟩ := hrow.exists_cons hstop heq id
    obtain ⟨operand, us, rfl, hoperand, htail⟩ := hfirst.exists_signed hsplit
    -- Behind the sign, the operand and what follows it are a row again, and that row begins with
    -- the items of the formula under the sign.
    have hrest : us ++ more ++ stop = c.units ++ rest := by rw [List.append_assoc, htail]
    obtain ⟨more', us', hitems, hmore', hend⟩ := ih hwritable _ _ stop rest
      (Condition.SpellsRow.cons hoperand hmore) hstop hrest
    obtain ⟨i, hi⟩ := exists_items_eq (isAlways_of_takesSign hsign)
    rw [hi, List.singleton_append, List.cons.injEq] at hitems
    obtain ⟨rfl, rfl⟩ := hitems
    exact ⟨row, us', by rw [items_negation hsign, hi]; rfl, hmore', hend⟩
  case conjunction =>
    intro cs ih hwritable row ts stop rest
    have hoperands := fun c hc => ih c hc (forall_literals_conjunction hwritable c hc)
    exact exists_of_group_units hoperands .round
  case disjunction =>
    intro cs _ ih hwritable row ts stop rest
    have hoperands := fun c hc => ih c hc (forall_literals_disjunction hwritable c hc)
    exact exists_of_group_units hoperands .square

/-! ## What the items mean -/

lemma formulas_itemsAll (cs : List (Formula String)) :
    Condition.formulas (itemsAll cs) = cs.flatMap fun c => Condition.formulas c.items := by
  induction cs with
  | nil => rfl
  | cons c cs ih =>
    rw [itemsAll, List.flatMap_cons, ← ih]
    simp only [Condition.formulas_eq_map, List.map_append]

/-- **The items of a legible formula hold where it does.** -/
theorem holds_items {c : Formula String} (hc : c.Legible) {present : Int → String → Prop} :
    (∀ d ∈ Condition.formulas c.items, d.Holds present) ↔ c.Holds present := by
  refine Legible.inductionOnWritten hc ?always ?literal ?never ?negated ?signed ?conjunction
    ?disjunction
  case always => exact iff_of_true (List.forall_mem_nil _) trivial
  case literal => exact fun l => List.forall_mem_singleton
  case never => exact List.forall_mem_singleton
  case negated => exact fun l => List.forall_mem_singleton
  case signed =>
    intro c _ hsign ih
    obtain ⟨i, hi⟩ := exists_items_eq (isAlways_of_takesSign hsign)
    rw [hi] at ih
    rw [items_negation hsign, hi]
    have hnegate : (Condition.signed true i).formula = i.formula.negate := rfl
    simp only [Condition.formulas, List.map_cons, List.map_nil, List.forall_mem_singleton] at ih ⊢
    rw [hnegate, holds_negate, ih, Holds]
  case conjunction =>
    intro cs ih
    show (∀ d ∈ [Formula.all (Condition.formulas (itemsAll cs))], d.Holds present) ↔ _
    rw [List.forall_mem_singleton, holds_all, formulas_itemsAll, List.forall_mem_flatMap, Holds,
      holdsAll_iff]
    exact forall₂_congr ih
  case disjunction =>
    intro cs halways ih
    show (∀ d ∈ [Formula.any (Condition.formulas (itemsAll cs))], d.Holds present) ↔ _
    rw [List.forall_mem_singleton, holds_any, formulas_itemsAll, exists_mem_flatMap, Holds,
      holdsSome_iff]
    refine exists_congr fun c => and_congr_right fun hc => ?_
    -- The operand is read as one item, so it is one operand again.
    obtain ⟨i, hi⟩ := exists_items_eq (halways c hc)
    rw [← ih c hc, hi]
    simp [Condition.formulas]

/-! ## Reading -/

/-- **What is read of the written form of a legible formula holds where the formula does.** -/
theorem holds_of_readFormula {c : Formula String} (hc : c.Legible)
    (hwritable : ∀ l ∈ c.literals, l.Writable) {d : Formula String}
    (h : (Condition.readFormula c.render.toList).outcome = .ok d) {present : Int → String → Prop} :
    d.Holds present ↔ c.Holds present := by
  obtain ⟨row, hread, hd⟩ := Reading.outcome_bind_eq_ok_iff.1 h
  obtain rfl : Formula.all (Condition.formulas row) = d := Except.ok.inj hd
  have hrow := (Condition.spellsRow_of_read hread).1
  have hscan := scan_render hc hwritable [] (by simp [EndsWord])
  rw [List.append_nil] at hscan
  obtain ⟨more, us, rfl, hmore, hus⟩ := leads hc hwritable _ _ [] _ hrow Condition.stops_nil
    (by rw [List.append_nil, hscan])
  obtain ⟨rfl, -⟩ := hmore.eq_nil hus Condition.stops_nil
  rw [List.append_nil, holds_all, holds_items hc]

end StripAutomata.Formula
