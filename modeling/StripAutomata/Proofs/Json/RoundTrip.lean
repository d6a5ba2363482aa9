import StripAutomata.Proofs.Json.Lexeme

/-!
# Written values are read again

A value that is laid out is read as the same value (`parse?_prettyText`), whatever strings it holds
and however deep it is, unless one of its numbers has more digits than are kept.  The same holds of
a value that is written without blanks (`parse?_compactText`).

The lexemes of a value do not depend on its layout (`Json.lexemes`).  So there are two halves:
either text is cut up into the lexemes of the value (`scans_pretty`, `scans_compact`), and reading
these lexemes where a value must follow settles the value, whatever is open around it and whatever
comes behind it (`resume_lexemes`).  All go by recursion over the value together with its items and
members.
-/

namespace StripAutomata.Json

/-! ## The lexemes of a value -/

mutual

/-- The lexemes that a value is written with. -/
def lexemes : Json → List Lexeme
  | array items => .mark '[' :: itemLexemes items ++ [.mark ']']
  | object members => .mark '\x7b' :: memberLexemes members ++ [.mark '\x7d']
  | string text => [.string (inside text)]
  | v => [.atom v.scalar]

/-- The lexemes of the items of an array, with commas between the items. -/
def itemLexemes : List Json → List Lexeme
  | [] => []
  | [v] => v.lexemes
  | v :: vs => v.lexemes ++ .mark ',' :: itemLexemes vs

/-- The lexemes of the members of an object, with commas between the members. -/
def memberLexemes : List (Option String × Json) → List Lexeme
  | [] => []
  | [(key, v)] => .string (inside key) :: .mark ':' :: v.lexemes
  | (key, v) :: ms =>
    .string (inside key) :: .mark ':' :: v.lexemes ++ .mark ',' :: memberLexemes ms

end

/-! ## Cutting up -/

namespace Lexeme

mutual

/-- A value that is laid out is cut up into its lexemes. -/
lemma scans_pretty (v : Json) (depth : Nat) : Scans (v.pretty depth) v.lexemes := by
  have hword (word : List Char) (h : (!word.isEmpty && word.all isAtomPart) = true) :
      Scans word [.atom word] := Scans.atom (by simpa using h)
  cases v with
  | null => exact hword ['n', 'u', 'l', 'l'] rfl
  | bool b =>
    cases b with
    | false => exact hword ['f', 'a', 'l', 's', 'e'] rfl
    | true => exact hword ['t', 'r', 'u', 'e'] rfl
  | number n => exact scans_numeral n
  | string text =>
    have h := Scans.nil.string text
    rwa [List.append_nil] at h
  | array items =>
    cases items with
    | nil => exact (Scans.nil.mark (by decide)).mark (by decide)
    | cons v vs =>
      -- The line break before the bracket is what ends the last item.
      have hclose := (Scans.nil.mark (show isMark ']' = true by decide)).newLine depth
      have hitems := (scans_prettyItems (v :: vs) (depth + 1)).append hclose
        (endsAtom_cons (.inl rfl) _)
      simpa [pretty, lexemes] using hitems.mark (show isMark '[' = true by decide)
  | object members =>
    cases members with
    | nil => exact (Scans.nil.mark (by decide)).mark (by decide)
    | cons m ms =>
      have hclose := (Scans.nil.mark (show isMark '\x7d' = true by decide)).newLine depth
      have hmembers := (scans_prettyMembers (m :: ms) (depth + 1)).append hclose
        (endsAtom_cons (.inl rfl) _)
      simpa [pretty, lexemes] using hmembers.mark (show isMark '\x7b' = true by decide)

lemma scans_prettyItems (vs : List Json) (depth : Nat) :
    Scans (prettyItems depth vs) (itemLexemes vs) := by
  cases vs with
  | nil => exact Scans.nil
  | cons v vs =>
    have hv := scans_pretty v depth
    cases vs with
    | nil => exact hv.newLine depth
    | cons w ws =>
      have hws := (scans_prettyItems (w :: ws) depth).mark (show isMark ',' = true by decide)
      have hall := (hv.append hws (endsAtom_cons (.inr rfl) _)).newLine depth
      simpa [prettyItems, itemLexemes] using hall

lemma scans_prettyMembers (ms : List (Option String × Json)) (depth : Nat) :
    Scans (prettyMembers depth ms) (memberLexemes ms) := by
  cases ms with
  | nil => exact Scans.nil
  | cons m ms =>
    obtain ⟨key, v⟩ := m
    have hkey {text : List Char} {lexemes : List Lexeme} (h : Scans text lexemes) :
        Scans (newLine depth ++ (quote key ++ ':' :: ' ' :: text))
          (.string (inside key) :: .mark ':' :: lexemes) :=
      (((h.gap (by decide)).mark (by decide)).string key).newLine depth
    have hv := scans_pretty v depth
    cases ms with
    | nil => simpa [prettyMembers, memberLexemes] using hkey hv
    | cons n ns =>
      have hns := (scans_prettyMembers (n :: ns) depth).mark (show isMark ',' = true by decide)
      have hall := hkey (hv.append hns (endsAtom_cons (.inr rfl) _))
      simpa [prettyMembers, memberLexemes] using hall

end

mutual

/-- A value without blanks is cut up into its lexemes. -/
lemma scans_compact (v : Json) : Scans v.compact v.lexemes := by
  cases v with
  | array items =>
    have hclose := Scans.nil.mark (show isMark ']' = true by decide)
    have hitems := (scans_compactItems items).append hclose (endsAtom_cons (.inr rfl) _)
    simpa [compact, lexemes] using hitems.mark (show isMark '[' = true by decide)
  | object members =>
    have hclose := Scans.nil.mark (show isMark '\x7d' = true by decide)
    have hmembers := (scans_compactMembers members).append hclose (endsAtom_cons (.inr rfl) _)
    simpa [compact, lexemes] using hmembers.mark (show isMark '\x7b' = true by decide)
  -- What holds no other values is written the same in both ways.
  | null => exact scans_pretty .null 0
  | bool b => exact scans_pretty (.bool b) 0
  | number n => exact scans_pretty (.number n) 0
  | string text => exact scans_pretty (.string text) 0

lemma scans_compactItems (vs : List Json) : Scans (compactItems vs) (itemLexemes vs) := by
  cases vs with
  | nil => exact Scans.nil
  | cons v vs =>
    have hv := scans_compact v
    cases vs with
    | nil => exact hv
    | cons w ws =>
      have hws := (scans_compactItems (w :: ws)).mark (show isMark ',' = true by decide)
      -- Here it is the comma that ends an item, so no blank has to.
      simpa [compactItems, itemLexemes] using hv.append hws (endsAtom_cons (.inr rfl) _)

lemma scans_compactMembers (ms : List (Option String × Json)) :
    Scans (compactMembers ms) (memberLexemes ms) := by
  cases ms with
  | nil => exact Scans.nil
  | cons m ms =>
    obtain ⟨key, v⟩ := m
    have hkey {text : List Char} {lexemes : List Lexeme} (h : Scans text lexemes) :
        Scans (quote key ++ ':' :: text) (.string (inside key) :: .mark ':' :: lexemes) :=
      (h.mark (by decide)).string key
    have hv := scans_compact v
    cases ms with
    | nil => exact hkey hv
    | cons n ns =>
      have hns := (scans_compactMembers (n :: ns)).mark (show isMark ',' = true by decide)
      have hall := hkey (hv.append hns (endsAtom_cons (.inr rfl) _))
      simpa [compactMembers, memberLexemes] using hall

end

lemma Scans.scan {text : List Char} {lexemes : List Lexeme} (h : Scans text lexemes) :
    scan text = some lexemes := by
  have hend := h [] (by simp [EndsAtom])
  simpa [Lexeme.scan, scanFrom, Mode.ended] using hend

end Lexeme

/-! ## Reading lexemes -/

mutual

/-- Whether the numbers of a value have no digits but those that are kept. -/
def IsKept : Json → Prop
  | number n => n.IsKept
  | array items => AreKept items
  | object members => MembersAreKept members
  | _ => True

/-- Whether the numbers of the values of a list have no digits but those that are kept. -/
def AreKept : List Json → Prop
  | [] => True
  | v :: vs => v.IsKept ∧ AreKept vs

/-- Whether the numbers of the members of a list have no digits but those that are kept. -/
def MembersAreKept : List (Option String × Json) → Prop
  | [] => True
  | (_, v) :: ms => v.IsKept ∧ MembersAreKept ms

end

/-- Goes on from where a step led to, if it led anywhere. -/
def goOn (place : Option (Spot × List Frame)) (rest : List Lexeme) : Option Json :=
  place.bind fun p => resume p.1 p.2 rest

lemma resume_cons (spot : Spot) (frames : List Frame) (lexeme : Lexeme) (rest : List Lexeme) :
    resume spot frames (lexeme :: rest) = goOn (step spot frames lexeme) rest := rfl

lemma itemLexemes_cons_cons (v w : Json) (ws : List Json) :
    itemLexemes (v :: w :: ws) = v.lexemes ++ .mark ',' :: itemLexemes (w :: ws) := by
  simp [itemLexemes]

lemma memberLexemes_cons_cons (key : Option String) (v : Json) (n : Option String × Json)
    (ns : List (Option String × Json)) :
    memberLexemes ((key, v) :: n :: ns) =
      .string (inside key) :: .mark ':' :: (v.lexemes ++ .mark ',' :: memberLexemes (n :: ns)) := by
  simp [memberLexemes]

/-- No item begins with a closing bracket, so the first one is read like any other. -/
lemma resume_items_itemLexemes {vs : List Json} (hvs : vs ≠ []) (frames : List Frame)
    (rest : List Lexeme) :
    resume .items frames (itemLexemes vs ++ rest) =
      resume .value frames (itemLexemes vs ++ rest) := by
  have hfirst (v : Json) (rest : List Lexeme) :
      resume .items frames (v.lexemes ++ rest) = resume .value frames (v.lexemes ++ rest) := by
    cases v <;> rfl
  cases vs with
  | nil => exact absurd rfl hvs
  | cons v vs =>
    cases vs with
    | nil => exact hfirst v rest
    | cons w ws =>
      rw [itemLexemes_cons_cons, List.append_assoc]
      exact hfirst v _

lemma resume_members_memberLexemes {ms : List (Option String × Json)} (hms : ms ≠ [])
    (frames : List Frame) (rest : List Lexeme) :
    resume .members frames (memberLexemes ms ++ rest) =
      resume .key frames (memberLexemes ms ++ rest) := by
  cases ms with
  | nil => exact absurd rfl hms
  | cons m ms => cases ms <;> rfl

lemma resume_key (key : Option String) (done : List (Option String × Json)) (frames : List Frame)
    (rest : List Lexeme) :
    resume .key (.object done :: frames) (.string (inside key) :: .mark ':' :: rest) =
      resume .value (.member done key :: frames) rest := by
  show goOn ((Lexeme.text? (inside key)).bind fun text =>
    some (.colon, .member done text :: frames)) (.mark ':' :: rest) = _
  rw [Lexeme.text?_inside]
  rfl

mutual

lemma resume_lexemes (v : Json) (hv : v.IsKept) (frames : List Frame) (rest : List Lexeme) :
    resume .value frames (v.lexemes ++ rest) = goOn (settle v frames) rest := by
  cases v with
  | null => rfl
  | bool b => cases b <;> rfl
  | number n =>
    show goOn ((ofAtom? (numeral n)).bind fun v => settle v frames) rest = _
    rw [ofAtom?_numeral hv, Option.bind_some]
  | string text =>
    show goOn ((Lexeme.text? (inside text)).bind fun t => settle (string t) frames) rest = _
    rw [Lexeme.text?_inside, Option.bind_some]
  | array items =>
    -- Without items the bracket is closed where an item may follow; otherwise one must.
    by_cases hitems : items = []
    · rw [hitems]
      rfl
    · rw [lexemes, List.cons_append, List.cons_append, List.append_assoc, resume_cons]
      show resume .items (.array [] :: frames) (itemLexemes items ++ .mark ']' :: rest) = _
      rw [resume_items_itemLexemes hitems]
      exact resume_itemLexemes items hitems hv [] frames rest
  | object members =>
    by_cases hmembers : members = []
    · rw [hmembers]
      rfl
    · rw [lexemes, List.cons_append, List.cons_append, List.append_assoc, resume_cons]
      show resume .members (.object [] :: frames)
        (memberLexemes members ++ .mark '\x7d' :: rest) = _
      rw [resume_members_memberLexemes hmembers]
      exact resume_memberLexemes members hmembers hv [] frames rest

lemma resume_itemLexemes (vs : List Json) (hne : vs ≠ []) (hvs : AreKept vs) (done : List Json)
    (frames : List Frame) (rest : List Lexeme) :
    resume .value (.array done :: frames) (itemLexemes vs ++ .mark ']' :: rest) =
      goOn (settle (array (done.reverse ++ vs)) frames) rest := by
  cases vs with
  | nil => exact absurd rfl hne
  | cons v vs =>
    have hv := resume_lexemes v hvs.1 (.array done :: frames)
    cases vs with
    | nil =>
      rw [itemLexemes, hv]
      show goOn (settle (array (v :: done).reverse) frames) rest = _
      rw [List.reverse_cons]
    | cons w ws =>
      have hws := resume_itemLexemes (w :: ws) (by simp) hvs.2 (v :: done) frames rest
      rw [itemLexemes_cons_cons, List.append_assoc, hv]
      -- After the comma the item is the last of those that were read, which are kept in reverse.
      show resume .value (.array (v :: done) :: frames)
        (itemLexemes (w :: ws) ++ .mark ']' :: rest) = _
      rw [hws, List.reverse_cons, List.append_assoc]
      rfl

lemma resume_memberLexemes (ms : List (Option String × Json)) (hne : ms ≠ [])
    (hms : MembersAreKept ms) (done : List (Option String × Json)) (frames : List Frame)
    (rest : List Lexeme) :
    resume .key (.object done :: frames) (memberLexemes ms ++ .mark '\x7d' :: rest) =
      goOn (settle (object (done.reverse ++ ms)) frames) rest := by
  cases ms with
  | nil => exact absurd rfl hne
  | cons m ms =>
    obtain ⟨key, v⟩ := m
    -- The value is read with its key in the frame, which settles as a member of the object.
    have hv := resume_lexemes v hms.1 (.member done key :: frames)
    cases ms with
    | nil =>
      rw [memberLexemes, List.cons_append, List.cons_append, resume_key, hv]
      show goOn (settle (object ((key, v) :: done).reverse) frames) rest = _
      rw [List.reverse_cons]
    | cons n ns =>
      have hns := resume_memberLexemes (n :: ns) (by simp) hms.2 ((key, v) :: done) frames rest
      rw [memberLexemes_cons_cons, List.cons_append, List.cons_append, List.append_assoc,
        resume_key, hv]
      show resume .key (.object ((key, v) :: done) :: frames)
        (memberLexemes (n :: ns) ++ .mark '\x7d' :: rest) = _
      rw [hns, List.reverse_cons, List.append_assoc]
      rfl

end

/-- A text that is cut up into the lexemes of a value is read as the value. -/
lemma parse?_of_scans {v : Json} (hv : v.IsKept) {text : List Char}
    (h : Lexeme.Scans text v.lexemes) : parse? (String.ofList text) = some v := by
  have hread := resume_lexemes v hv [] []
  rw [List.append_nil] at hread
  rw [parse?, String.toList_ofList, h.scan, Option.bind_eq_bind, Option.bind_some, hread]
  rfl

/-- **A value that is laid out is read again.** -/
theorem parse?_prettyText {v : Json} (hv : v.IsKept) : parse? v.prettyText = some v :=
  parse?_of_scans hv (Lexeme.scans_pretty v 0)

/-- **A value that is written without blanks is read again.** -/
theorem parse?_compactText {v : Json} (hv : v.IsKept) : parse? v.compactText = some v :=
  parse?_of_scans hv (Lexeme.scans_compact v)

end StripAutomata.Json
