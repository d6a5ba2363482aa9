import Mathlib.Tactic.Common
import StripAutomata.Command.Arguments

/-!
# How arguments are spelled

There are many ways to give the same switches and operands to a command.  A switch can be called by
its long name or by its letter, and letters can be written together; a value can be attached or
stand apart.  `Switch.Spells` says which arguments spell what, with no regard to how they are read.

Arguments are read as what they spell (`Switch.IsClear.read_eq_some_iff`), if nothing is asked by
them and the switches of the command cannot be mistaken for one another.  This is shown for letters,
then for one argument, then for all of them, each time in both directions: at each stage, what is
read decides what becomes of that which follows (`Next`), and so does what is spelled.
-/

namespace StripAutomata.Command

namespace Switch

/-! ## How switches are spelled -/

section

variable (switches : List Switch)

/-- What letters give that are written together, and what they make of the next argument.  A switch
with a value is the last one among them, and the rest is its value. -/
inductive Letters : List Char → List Given → Next → Prop
  | flag {s : Switch} {c : Char} (hs : s ∈ switches) (hc : s.letter = some c)
    (hvalue : s.value = none) : Letters [c] [.switch s none] .free
  | valued {s : Switch} {c : Char} (hs : s ∈ switches) (hc : s.letter = some c)
    (hvalue : s.value.isSome = true) : Letters [c] [] (.valueOf s)
  | equals {s : Switch} {c : Char} (hs : s ∈ switches) (hc : s.letter = some c)
    (hvalue : s.value.isSome = true) (value : List Char) :
    Letters (c :: '=' :: value) [.switch s (some (String.ofList value))] .free
  | behind {s : Switch} {c c' : Char} (hs : s ∈ switches) (hc : s.letter = some c)
    (hvalue : s.value.isSome = true) (hc' : c' ≠ '=') (value : List Char) :
    Letters (c :: c' :: value) [.switch s (some (String.ofList (c' :: value)))] .free
  | cons {s : Switch} {c : Char} {letters : List Char} {first : List Given} {next : Next}
    (hs : s ∈ switches) (hc : s.letter = some c) (hvalue : s.value = none)
    (more : Letters letters first next) : Letters (c :: letters) (.switch s none :: first) next

/-- What one argument gives, and what it makes of the next one. -/
inductive Gives : String → List Given → Next → Prop
  | operand {text : String} (htext : looksLike text = false) : Gives text [.operand text] .free
  | letters {letters : List Char} {first : List Given} {next : Next}
    (h : Letters switches letters first next) : Gives (String.ofList ('-' :: letters)) first next
  | name {s : Switch} (hs : s ∈ switches) (hvalue : s.value = none) :
    Gives ("--" ++ s.long) [.switch s none] .free
  | valued {s : Switch} (hs : s ∈ switches) (hvalue : s.value.isSome = true) :
    Gives ("--" ++ s.long) [] (.valueOf s)
  | equals {s : Switch} (hs : s ∈ switches) (hvalue : s.value.isSome = true)
    (value : String) : Gives ("--" ++ s.long ++ "=" ++ value) [.switch s (some value)] .free

/-- How what is given is spelled as arguments, behind one that makes something of the first of them.
Behind two dashes, there are only operands. -/
inductive Spells : Next → List Given → List String → Prop
  | nothing : Spells .free [] []
  | operands (texts : List String) : Spells .free (texts.map .operand) ("--" :: texts)
  | argument {argument : String} {first given : List Given} {next : Next} {rest : List String}
    (hargument : Gives switches argument first next) (more : Spells next given rest) :
    Spells .free (first ++ given) (argument :: rest)
  | value {s : Switch} {value : String} {given : List Given} {rest : List String}
    (hvalue : looksLike value = false) (more : Spells .free given rest) :
    Spells (.valueOf s) (.switch s (some value) :: given) (value :: rest)

/-- Whether switches cannot be taken for one another, nor for anything else. -/
structure IsClear : Prop where
  long_inj : ∀ s ∈ switches, ∀ t ∈ switches, s.long = t.long → s = t
  letter_inj : ∀ s ∈ switches, ∀ t ∈ switches, s.letter = t.letter → s.letter = none ∨ s = t
  long_ne : ∀ s ∈ switches, s.long ≠ ""
  long_plain : ∀ s ∈ switches, '=' ∉ s.long.toList
  letter_ne : ∀ s ∈ switches, s.letter ≠ some '-'

/-- The switches that can be given, among those that a command knows: the others ask something. -/
def givable : List Switch := switches.filter fun s => s ≠ help ∧ s ≠ version

end

variable {known : List Switch}

lemma mem_givable_iff {s : Switch} : s ∈ givable known ↔ s ∈ known ∧ s ≠ help ∧ s ≠ version := by
  rw [givable, List.mem_filter, decide_eq_true_iff]

lemma question?_eq_none_iff {s : Switch} (long : Bool) :
    s.question? long = none ↔ s ≠ help ∧ s ≠ version := by
  unfold question?
  split_ifs with hhelp hversion <;> simp [*]

section

variable (hclear : IsClear known)

include hclear

lemma IsClear.find?_long_eq_some_iff {name : String} {s : Switch} :
    known.find? (·.long == name) = some s ↔ s ∈ known ∧ s.long = name := by
  constructor
  · intro h
    exact ⟨List.mem_of_find?_eq_some h, by simpa using List.find?_some h⟩
  · rintro ⟨hs, rfl⟩
    cases hfind : known.find? (·.long == s.long) with
    | none =>
      have hnone := List.find?_eq_none.1 hfind s hs
      exact absurd (beq_self_eq_true s.long) hnone
    | some t =>
      have ht : t.long = s.long := by simpa using List.find?_some hfind
      rw [hclear.long_inj t (List.mem_of_find?_eq_some hfind) s hs ht]

lemma IsClear.find?_letter_eq_some_iff {c : Char} {s : Switch} :
    known.find? (·.letter == some c) = some s ↔ s ∈ known ∧ s.letter = some c := by
  constructor
  · intro h
    exact ⟨List.mem_of_find?_eq_some h, by simpa using List.find?_some h⟩
  · rintro ⟨hs, hc⟩
    cases hfind : known.find? (·.letter == some c) with
    | none => exact absurd hc (by simpa using List.find?_eq_none.1 hfind s hs)
    | some t =>
      have ht : t.letter = some c := by simpa using List.find?_some hfind
      have hsame := hclear.letter_inj t (List.mem_of_find?_eq_some hfind) s hs (ht.trans hc.symm)
      rw [hsame.resolve_left (by simp [ht])]

lemma IsClear.letters_of_readLetters {letters : List Char} {first : List Given} {next : Next}
    (h : readLetters known letters = some (first, next)) (hne : letters ≠ [])
    (hnext : ∀ q, next ≠ .ignored q) : Letters (givable known) letters first next := by
  induction letters generalizing first with
  | nil => exact absurd rfl hne
  | cons c letters ih =>
    rw [readLetters] at h
    cases hfind : known.find? (·.letter == some c) with
    | none => simp [hfind] at h
    | some s =>
      obtain ⟨hmem, hc⟩ := hclear.find?_letter_eq_some_iff.1 hfind
      simp only [hfind] at h
      cases hquestion : s.question? false with
      | some question =>
        simp only [hquestion, Option.some.injEq, Prod.mk.injEq] at h
        exact absurd h.2.symm (hnext question)
      | none =>
        obtain ⟨hhelp, hversion⟩ := (question?_eq_none_iff false).1 hquestion
        have hs : s ∈ givable known := mem_givable_iff.2 ⟨hmem, hhelp, hversion⟩
        simp only [hquestion] at h
        split_ifs at h with hvalue
        · -- All that is behind the letter belongs to the value of the switch.
          split at h <;> cases h
          next => exact .valued hs hc hvalue
          next value => exact .equals hs hc hvalue value
          next hempty hequals =>
            obtain ⟨c', more, rfl⟩ := List.exists_cons_of_ne_nil hempty
            exact .behind hs hc hvalue (fun heq => hequals more (heq ▸ rfl)) more
        · -- The letters behind this one are read as if they stood alone.
          have hvalue : s.value = none := by simpa using hvalue
          obtain ⟨⟨given, next'⟩, hmore, hgiven⟩ := Option.bind_eq_some_iff.1 h
          cases hgiven
          cases letters with
          | nil =>
            cases hmore
            exact .flag hs hc hvalue
          | cons c' letters => exact .cons hs hc hvalue (ih hmore (List.cons_ne_nil _ _))

lemma IsClear.readLetters_of_letters {letters : List Char} {first : List Given} {next : Next}
    (h : Letters (givable known) letters first next) :
    readLetters known letters = some (first, next) ∧ letters ≠ [] := by
  have hread {s : Switch} {c : Char} (hs : s ∈ givable known) (hc : s.letter = some c) :
      known.find? (·.letter == some c) = some s ∧ s.question? false = none :=
    ⟨hclear.find?_letter_eq_some_iff.2 ⟨(mem_givable_iff.1 hs).1, hc⟩,
      (question?_eq_none_iff false).2 (mem_givable_iff.1 hs).2⟩
  induction h with
  | flag hs hc hvalue => simp [readLetters, hread hs hc, hvalue]
  | valued hs hc hvalue => simp [readLetters, hread hs hc, hvalue]
  | equals hs hc hvalue value => simp [readLetters, hread hs hc, hvalue]
  | behind hs hc hvalue hc' value => simp [readLetters, hread hs hc, hvalue, hc']
  | cons hs hc hvalue more ih => simp [readLetters, hread hs hc, hvalue, ih]

/-- How a long name is read, with what stands behind it up to the next argument. -/
lemma IsClear.readName_append {s : Switch} (hs : s ∈ givable known) (attached : List Char)
    (hattached : attached.head? = none ∨ attached.head? = some '=') :
    readName known (s.long.toList ++ attached) =
      if s.value.isSome then
        match attached with
        | [] => some ([], .valueOf s)
        | _ :: value => some ([.switch s (some (String.ofList value))], .free)
      else if attached = [] then some ([.switch s none], .free) else none := by
  obtain ⟨hmem, hasks⟩ := mem_givable_iff.1 hs
  have hplain : ∀ c ∈ s.long.toList, (c != '=') = true := by
    intro c hc
    refine bne_iff_ne.2 ?_
    rintro rfl
    exact hclear.long_plain s hmem hc
  have htake : (s.long.toList ++ attached).takeWhile (· != '=') = s.long.toList := by
    rw [List.takeWhile_append_of_pos hplain]
    cases attached with
    | nil => simp
    | cons c attached =>
      have hc : c = '=' := by simpa using hattached
      simp [hc]
  have hdrop : (s.long.toList ++ attached).dropWhile (· != '=') = attached := by
    rw [List.dropWhile_append_of_pos hplain]
    cases attached with
    | nil => simp
    | cons c attached =>
      have hc : c = '=' := by simpa using hattached
      simp [hc]
  have hfind : known.find? (·.long == String.ofList s.long.toList) = some s :=
    hclear.find?_long_eq_some_iff.2 ⟨hmem, String.ofList_toList.symm⟩
  have hquestion := (question?_eq_none_iff true).2 hasks
  simp only [readName, htake, hdrop, hfind, hquestion]
  cases attached <;> simp

/-- What is read by a long name gives it, unless it asks something. -/
lemma IsClear.exists_of_readName {cs : List Char} {first : List Given} {next : Next}
    (h : readName known cs = some (first, next)) (hnext : ∀ q, next ≠ .ignored q) :
    ∃ s attached, s ∈ givable known ∧ cs = s.long.toList ++ attached ∧
      (attached.head? = none ∨ attached.head? = some '=') := by
  unfold readName at h
  dsimp only at h
  split at h
  next => cases h
  next s hfind =>
    obtain ⟨hmem, hlong⟩ := hclear.find?_long_eq_some_iff.1 hfind
    refine ⟨s, cs.dropWhile (· != '='), ?_, ?_, ?_⟩
    · refine mem_givable_iff.2 ⟨hmem, (question?_eq_none_iff true).1 ?_⟩
      cases hquestion : s.question? true with
      | none => rfl
      | some question =>
        -- A switch that asks has no value, so it is read as its question.
        have hvalue : s.value.isSome = false := by
          by_contra hsome
          have hasks : s ≠ help ∧ s ≠ version := by
            constructor <;> rintro rfl <;> exact hsome rfl
          rw [(question?_eq_none_iff true).2 hasks] at hquestion
          cases hquestion
        rw [hvalue, if_neg Bool.false_ne_true] at h
        split_ifs at h
        simp only [hquestion, Option.some.injEq, Prod.mk.injEq] at h
        exact absurd h.2.symm (hnext question)
    · rw [hlong, String.toList_ofList, List.takeWhile_append_dropWhile]
    · cases hdrop : cs.dropWhile (· != '=') with
      | nil => exact .inl rfl
      | cons c rest =>
        have hc := List.head?_dropWhile_not (· != '=') cs
        rw [hdrop] at hc
        exact .inr (by simpa using hc)

omit hclear in
lemma toList_dashes (text : String) : ("--" ++ text).toList = '-' :: '-' :: text.toList := by
  rw [String.toList_append]
  rfl

/-- What is read of a name with two dashes before it. -/
lemma IsClear.gives_of_readName {cs : List Char} {first : List Given} {next : Next}
    (h : readName known cs = some (first, next)) (hnext : ∀ q, next ≠ .ignored q) :
    Gives (givable known) (String.ofList ('-' :: '-' :: cs)) first next := by
  obtain ⟨s, attached, hs, rfl, hattached⟩ := hclear.exists_of_readName h hnext
  rw [hclear.readName_append hs attached hattached] at h
  have hspelled : String.ofList ('-' :: '-' :: (s.long.toList ++ attached)) =
      "--" ++ s.long ++ String.ofList attached := by
    rw [← String.toList_inj, String.append_assoc, toList_dashes, String.toList_append,
      String.toList_ofList, String.toList_ofList]
  rw [hspelled]
  split_ifs at h with hvalue hempty
  · split at h <;> cases h
    next => exact String.append_empty ▸ .valued hs hvalue
    next c value =>
      have hc : c = '=' := by simpa using hattached
      have heq : String.ofList (c :: value) = "=" ++ String.ofList value := by
        simp [hc]
      rw [heq, ← String.append_assoc]
      exact .equals hs hvalue _
  · cases h
    rw [hempty]
    exact String.append_empty ▸ .name hs (by simpa using hvalue)

lemma IsClear.gives_of_readArgument {argument : String} {first : List Given} {next : Next}
    (h : readArgument known argument = some (first, next)) (hnext : ∀ q, next ≠ .ignored q) :
    Gives (givable known) argument first next := by
  unfold readArgument at h
  split at h
  next cs hargument =>
    have hgives := hclear.gives_of_readName h hnext
    rwa [← hargument, String.ofList_toList] at hgives
  next c cs hdash hargument =>
    have hgives := Gives.letters
      (hclear.letters_of_readLetters h (List.cons_ne_nil c cs) hnext)
    rwa [← hargument, String.ofList_toList] at hgives
  next hnone hone =>
    cases h
    refine .operand ?_
    unfold looksLike
    split
    next c cs heq => exact absurd heq (hone c cs)
    next => rfl

omit hclear in
lemma readArgument_of_looksLike_eq_false {argument : String} (h : looksLike argument = false) :
    readArgument known argument = some ([.operand argument], .free) := by
  unfold looksLike at h
  split at h
  next => cases h
  next hlooks =>
    unfold readArgument
    split
    next cs heq => exact absurd heq (hlooks _ _)
    next c cs _ heq => exact absurd heq (hlooks _ _)
    next => rfl

lemma IsClear.readArgument_of_letters {letters : List Char} {first : List Given} {next : Next}
    (h : Letters (givable known) letters first next) :
    readArgument known (String.ofList ('-' :: letters)) = some (first, next) := by
  obtain ⟨hread, hne⟩ := hclear.readLetters_of_letters h
  unfold readArgument
  rw [String.toList_ofList]
  split
  next cs heq =>
    -- No switch has a dash as its letter, so there is no second dash.
    cases heq
    have hnone : known.find? (·.letter == some '-') = none :=
      List.find?_eq_none.2 fun s hs => by simpa using hclear.letter_ne s hs
    simp [readLetters, hnone] at hread
  next c cs _ heq =>
    cases heq
    exact hread
  next hnone hone =>
    obtain ⟨c, cs, rfl⟩ := List.exists_cons_of_ne_nil hne
    exact absurd rfl (hone c cs)

lemma IsClear.readArgument_of_gives {argument : String} {first : List Given} {next : Next}
    (h : Gives (givable known) argument first next) :
    readArgument known argument = some (first, next) := by
  cases h with
  | operand htext => exact readArgument_of_looksLike_eq_false htext
  | letters h => exact hclear.readArgument_of_letters h
  | name hs hvalue =>
    have hread := hclear.readName_append hs [] (.inl rfl)
    rw [List.append_nil] at hread
    simp [readArgument, hread, hvalue]
  | valued hs hvalue =>
    have hread := hclear.readName_append hs [] (.inl rfl)
    rw [List.append_nil] at hread
    simp [readArgument, hread, hvalue]
  | equals hs hvalue value =>
    have hread := hclear.readName_append hs ('=' :: value.toList) (.inr rfl)
    simp [readArgument, hread, hvalue]

lemma IsClear.ne_dashes_of_gives {argument : String} {first : List Given} {next : Next}
    (h : Gives (givable known) argument first next) : argument ≠ "--" := by
  rintro rfl
  have hread := hclear.readArgument_of_gives h
  have hnone : known.find? (·.long == "") = none :=
    List.find?_eq_none.2 fun s hs => by simpa using hclear.long_ne s hs
  have hname : readName known [] = none := by
    simp [readName, hnone]
  exact nomatch hname.symm.trans hread

lemma IsClear.spells_of_read {next : Next} {arguments : List String} {given : List Given}
    (h : read known next arguments = some (given, none)) :
    Spells (givable known) next given arguments := by
  induction arguments generalizing next given with
  | nil =>
    cases next <;> cases h
    exact .nothing
  | cons argument rest ih =>
    cases next with
    | ignored question => cases h
    | valueOf s =>
      rw [read] at h
      split_ifs at h with hlooks
      obtain ⟨⟨more, question⟩, hmore, hgiven⟩ := Option.bind_eq_some_iff.1 h
      cases hgiven
      exact .value (by simpa using hlooks) (ih hmore)
    | free =>
      rw [read] at h
      split_ifs at h with hdashes
      · cases h
        rw [hdashes]
        exact .operands rest
      · -- The argument is read, and then the others under what it makes of them.
        obtain ⟨⟨first, next⟩, hargument, h⟩ := Option.bind_eq_some_iff.1 h
        obtain ⟨⟨more, question⟩, hmore, hgiven⟩ := Option.bind_eq_some_iff.1 h
        cases hgiven
        have hnext : ∀ q, next ≠ .ignored q := by
          rintro q rfl
          cases rest <;> cases hmore
        exact .argument (hclear.gives_of_readArgument hargument hnext) (ih hmore)

lemma IsClear.read_of_spells {next : Next} {arguments : List String} {given : List Given}
    (h : Spells (givable known) next given arguments) :
    read known next arguments = some (given, none) := by
  induction h with
  | nothing => rfl
  | operands texts => simp [read]
  | argument hargument more ih =>
    simp [read, hclear.ne_dashes_of_gives hargument, hclear.readArgument_of_gives hargument, ih]
  | value hvalue more ih => simp [read, hvalue, ih]

/-- **Arguments are read as what they spell.**  A reading in which nothing is asked is one of what
the arguments spell by switches that can be given. -/
theorem IsClear.read_eq_some_iff {next : Next} {arguments : List String} {given : List Given} :
    read known next arguments = some (given, none) ↔
      Spells (givable known) next given arguments :=
  ⟨hclear.spells_of_read, hclear.read_of_spells⟩

end

section

variable {switches : List Switch} {first given : List Given} {next : Next}

/-- Whether something given is an operand, or one of some switches, with a value if it takes one. -/
def IsAmong (switches : List Switch) : Given → Prop
  | .switch s value => s ∈ switches ∧ value.isSome = s.value.isSome
  | .operand _ => True

lemma Letters.isAmong {letters : List Char} (h : Letters switches letters first next) :
    (∀ g ∈ first, IsAmong switches g) ∧
      ∀ s, next = .valueOf s → ∀ value, IsAmong switches (.switch s (some value)) := by
  induction h with
  | flag hs hc hvalue => simp [IsAmong, hs, hvalue]
  | valued hs hc hvalue => simp [IsAmong, hs, hvalue]
  | equals hs hc hvalue value => simp [IsAmong, hs, hvalue]
  | behind hs hc hvalue hc' value => simp [IsAmong, hs, hvalue]
  | cons hs hc hvalue more ih => simpa [IsAmong, hs, hvalue] using ih

lemma Gives.isAmong {argument : String} (h : Gives switches argument first next) :
    (∀ g ∈ first, IsAmong switches g) ∧
      ∀ s, next = .valueOf s → ∀ value, IsAmong switches (.switch s (some value)) := by
  cases h with
  | operand htext => simp [IsAmong]
  | letters h => exact h.isAmong
  | name hs hvalue => simp [IsAmong, hs, hvalue]
  | valued hs hvalue => simp [IsAmong, hs, hvalue]
  | equals hs hvalue value => simp [IsAmong, hs, hvalue]

/-- What arguments spell is among the switches by which they spell it. -/
lemma Spells.isAmong {arguments : List String} (h : Spells switches next given arguments)
    (hnext : ∀ s, next = .valueOf s → ∀ value, IsAmong switches (.switch s (some value))) :
    ∀ g ∈ given, IsAmong switches g := by
  induction h with
  | nothing => simp
  | operands texts => simp [IsAmong]
  | argument hargument more ih =>
    obtain ⟨hfirst, hopen⟩ := hargument.isAmong
    exact List.forall_mem_append.2 ⟨hfirst, ih hopen⟩
  | value hvalue more ih =>
    exact List.forall_mem_cons.2 ⟨hnext _ rfl _, ih nofun⟩

end

end Switch

namespace Signature

open Switch

/-- The arguments of a command are accepted where they spell what it allows. -/
lemma read_eq_ok_iff {s : Signature} (hclear : IsClear (help :: loudness ++ s.switches))
    {arguments : List String} {given : List Given} :
    s.read arguments = .ok given ↔
      Spells (givable (help :: loudness ++ s.switches)) .free given arguments ∧
        s.allows given = true := by
  rw [← hclear.read_eq_some_iff, Signature.read]
  rcases Switch.read (help :: loudness ++ s.switches) .free arguments with _ | ⟨found, question⟩
  · simp
  · dsimp only
    constructor
    · intro h
      cases hallows : s.allows found with
      | false => simp [hallows] at h
      | true =>
        cases question with
        | none =>
          obtain rfl : found = given := by simpa [hallows] using h
          exact ⟨rfl, hallows⟩
        | some question => simp [hallows] at h
    · rintro ⟨heq, hallows⟩
      cases heq
      simp [hallows]

end Signature
end StripAutomata.Command
