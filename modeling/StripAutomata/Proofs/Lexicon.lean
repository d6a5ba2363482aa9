import StripAutomata.Lexicon
import StripAutomata.Proofs.Formula.Map

/-!
# Names and handles

Interning names that are there already changes nothing (`Lexicon.insertAll_of_subset`), and a
lexicon that has interned names has those and no others beside its own (`mem_names_insertAll`),
which come after its own in the order of their first interning (`names_insertAll`).  On the names of
a lexicon and on its handles, going over to the other and back changes nothing (`nameOf_handle`,
`handle_nameOf`), so the same holds of rules about them (`Rule.nameOf_handle`,
`Rule.handle_nameOf`).  A name that is there is found with its handle (`signal?_eq_handle`), which it
keeps when more names are interned (`handle_insertAll`).
-/

namespace StripAutomata

namespace Lexicon

/-- Whether a signal has a name. -/
def Knows (lexicon : Lexicon) (s : Signal) : Prop := s.index < lexicon.size

instance (lexicon : Lexicon) (s : Signal) : Decidable (lexicon.Knows s) :=
  inferInstanceAs (Decidable (s.index < lexicon.size))

/-! ## Interning -/

lemma mem_names_insert {lexicon : Lexicon} {name added : String} :
    name ∈ (lexicon.insert added).names ↔ name ∈ lexicon.names ∨ name = added := by
  by_cases h : added ∈ lexicon.names
  · rw [insert_of_mem h]
    refine ⟨Or.inl, ?_⟩
    rintro (hname | rfl)
    · exact hname
    · exact h
  · rw [names_insert_of_not_mem h, List.mem_append, List.mem_singleton]

lemma mem_names_insertAll {lexicon : Lexicon} {name : String} {names : List String} :
    name ∈ (lexicon.insertAll names).names ↔ name ∈ lexicon.names ∨ name ∈ names := by
  induction names generalizing lexicon with
  | nil => simp [insertAll]
  | cons added names ih =>
    have hrest : (lexicon.insertAll (added :: names)) = (lexicon.insert added).insertAll names := rfl
    rw [hrest, ih, mem_names_insert, List.mem_cons, or_assoc]

lemma insertAll_of_subset {lexicon : Lexicon} {names : List String} (h : names ⊆ lexicon.names) :
    lexicon.insertAll names = lexicon := by
  induction names with
  | nil => rfl
  | cons name names ih =>
    obtain ⟨hname, hnames⟩ := List.cons_subset.1 h
    have hrest : lexicon.insertAll (name :: names) = (lexicon.insert name).insertAll names := rfl
    rw [hrest, insert_of_mem hname, ih hnames]

/-- What a lexicon takes in are the names that it does not have, in the order in which they first
occur. -/
lemma names_insertAll (lexicon : Lexicon) (names : List String) :
    (lexicon.insertAll names).names =
      lexicon.names ++ (names.filter fun name => decide (name ∉ lexicon.names)).eraseDups := by
  induction names generalizing lexicon with
  | nil => exact (List.append_nil _).symm
  | cons name names ih =>
    have hrest : lexicon.insertAll (name :: names) = (lexicon.insert name).insertAll names := rfl
    rw [hrest, ih]
    -- A name that is there is filtered out; a new one is filtered out of those that follow.
    by_cases h : name ∈ lexicon.names
    · rw [insert_of_mem h, List.filter_cons_of_neg (by simpa using h)]
    · rw [List.filter_cons_of_pos (by simpa using h), List.eraseDups_cons, List.filter_filter,
        names_insert_of_not_mem h, List.append_assoc, List.singleton_append]
      congr 3
      refine List.filter_congr fun other _ => ?_
      by_cases hsame : other = name <;> simp [hsame]

/-- What a lexicon without names takes in are the names, each where it first occurs. -/
lemma names_insertAll_empty (names : List String) :
    (empty.insertAll names).names = names.eraseDups := by
  rw [names_insertAll]
  simp [empty]

lemma size_le_insertAll (lexicon : Lexicon) (names : List String) :
    lexicon.size ≤ (lexicon.insertAll names).size := by
  rw [size, size, names_insertAll, List.length_append]
  exact Nat.le_add_right _ _

lemma name?_insertAll {lexicon : Lexicon} {s : Signal} {name : String}
    (h : lexicon.name? s = some name) (names : List String) :
    (lexicon.insertAll names).name? s = some name := by
  obtain ⟨hlt, hname⟩ := List.getElem?_eq_some_iff.1 h
  rw [name?, names_insertAll, List.getElem?_append_left hlt, List.getElem?_eq_getElem hlt, hname]

/-! ## Going over and back -/

lemma nameOf_handle {lexicon : Lexicon} {name : String} (h : name ∈ lexicon.names) :
    lexicon.nameOf (lexicon.handle name) = name := by
  have hlt := List.idxOf_lt_length_of_mem h
  simp [nameOf, name?, handle, List.getElem?_eq_getElem hlt]

lemma name?_eq_some {lexicon : Lexicon} {s : Signal} (h : lexicon.Knows s) :
    lexicon.names[s.index]? = some (lexicon.nameOf s) := by
  have hlt : s.index < lexicon.names.length := h
  simp [nameOf, name?, List.getElem?_eq_getElem hlt]

lemma nameOf_mem {lexicon : Lexicon} {s : Signal} (h : lexicon.Knows s) :
    lexicon.nameOf s ∈ lexicon.names :=
  List.mem_of_getElem? (name?_eq_some h)

lemma knows_handle {lexicon : Lexicon} {name : String} :
    lexicon.Knows (lexicon.handle name) ↔ name ∈ lexicon.names :=
  List.idxOf_lt_length_iff

lemma handle_nameOf {lexicon : Lexicon} {s : Signal} (h : lexicon.Knows s) :
    lexicon.handle (lexicon.nameOf s) = s := by
  obtain ⟨hlt, hname⟩ := List.getElem?_eq_some_iff.1 (name?_eq_some h)
  rw [handle, ← hname, lexicon.nodup.idxOf_getElem]

lemma signal?_eq_handle {lexicon : Lexicon} {name : String} (h : name ∈ lexicon.names) :
    lexicon.signal? name = some (lexicon.handle name) := by
  have hname := name?_eq_some (knows_handle.2 h)
  rw [nameOf_handle h] at hname
  exact signal?_eq_some_iff.2 hname

lemma signal?_eq_none_iff {lexicon : Lexicon} {name : String} :
    lexicon.signal? name = none ↔ name ∉ lexicon.names := by
  rw [signal?, Option.map_eq_none_iff, List.idxOf?_eq_none_iff]

/-! ## Names that stay where they are -/

lemma insertAll_append (lexicon : Lexicon) (names more : List String) :
    lexicon.insertAll (names ++ more) = (lexicon.insertAll names).insertAll more :=
  List.foldl_append

/-- A name that the lexicon has keeps its handle when more names are taken in. -/
lemma handle_insertAll {lexicon : Lexicon} {name : String} (h : name ∈ lexicon.names)
    (names : List String) : (lexicon.insertAll names).handle name = lexicon.handle name := by
  induction names generalizing lexicon with
  | nil => rfl
  | cons added names ih =>
    have hmem : name ∈ (lexicon.insert added).names := mem_names_insert.2 (Or.inl h)
    have hfirst : (lexicon.insert added).handle name = lexicon.handle name := by
      -- A new name is put behind all others, so it changes none of their places.
      by_cases hadded : added ∈ lexicon.names
      · rw [insert_of_mem hadded]
      · rw [handle, handle, names_insert_of_not_mem hadded, List.idxOf_append_of_mem h]
    have hrest : lexicon.insertAll (added :: names) = (lexicon.insert added).insertAll names := rfl
    rw [hrest, ih hmem, hfirst]

lemma handle_insert_self (lexicon : Lexicon) (name : String) :
    (lexicon.insert name).handle name = lexicon.handle name := by
  by_cases h : name ∈ lexicon.names
  · rw [insert_of_mem h]
  · rw [handle, handle, names_insert_of_not_mem h, List.idxOf_append_of_notMem h,
      List.idxOf_cons_self, List.idxOf_eq_length h, Nat.add_zero]

lemma signal?_insert_of_not_mem {lexicon : Lexicon} {added : String}
    (h : added ∉ lexicon.names) (name : String) :
    (lexicon.insert added).signal? name =
      if name = added then some ⟨lexicon.size⟩ else lexicon.signal? name := by
  by_cases hname : name ∈ (lexicon.insert added).names
  · rw [signal?_eq_handle hname]
    split
    next heq => rw [heq, handle_insert_self, handle, List.idxOf_eq_length h, size]
    next hne =>
      have hold : name ∈ lexicon.names := (mem_names_insert.1 hname).resolve_right hne
      rw [signal?_eq_handle hold]
      exact congrArg some (handle_insertAll hold [added])
  · have hnot : name ∉ lexicon.names ∧ name ≠ added := by
      rwa [mem_names_insert, not_or] at hname
    rw [if_neg hnot.2, signal?_eq_none_iff.2 hname, signal?_eq_none_iff.2 hnot.1]

lemma handle_nameOf_insertAll {lexicon : Lexicon} {s : Signal} (h : lexicon.Knows s)
    (names : List String) : (lexicon.insertAll names).handle (lexicon.nameOf s) = s := by
  rw [handle_insertAll (nameOf_mem h), handle_nameOf h]

lemma nameOf_insertAll {lexicon : Lexicon} {s : Signal} (h : lexicon.Knows s)
    (names : List String) : (lexicon.insertAll names).nameOf s = lexicon.nameOf s := by
  have hmem : lexicon.nameOf s ∈ (lexicon.insertAll names).names :=
    mem_names_insertAll.2 (Or.inl (nameOf_mem h))
  have hback := nameOf_handle hmem
  rwa [handle_nameOf_insertAll h] at hback

lemma Knows.insertAll {lexicon : Lexicon} {s : Signal} (h : lexicon.Knows s)
    (names : List String) : (lexicon.insertAll names).Knows s := by
  have hmem : lexicon.nameOf s ∈ (lexicon.insertAll names).names :=
    mem_names_insertAll.2 (Or.inl (nameOf_mem h))
  have hknown := knows_handle.2 hmem
  rwa [handle_nameOf_insertAll h] at hknown

lemma handle_eq_handle_iff {lexicon : Lexicon} {name other : String} (h : name ∈ lexicon.names) :
    lexicon.handle name = lexicon.handle other ↔ name = other := by
  rw [handle, handle, Signal.mk.injEq, List.idxOf_inj h]

/-- A lexicon of two names, over which the rules of examples are. -/
def twoNames : Lexicon := ⟨["A", "B"], by decide⟩

end Lexicon

namespace Rule

/-- Rules over the names of a lexicon are the same after going over to the handles and back. -/
lemma nameOf_handle {lexicon : Lexicon} {r : Rule String} (h : r.signals ⊆ lexicon.names) :
    (r.map lexicon.handle).map lexicon.nameOf = r := by
  rw [map_map]
  exact map_eq_self fun name hname => Lexicon.nameOf_handle (h hname)

lemma handle_nameOf {lexicon : Lexicon} {r : Rule Signal}
    (h : ∀ s ∈ r.signals, lexicon.Knows s) : (r.map lexicon.nameOf).map lexicon.handle = r := by
  rw [map_map]
  exact map_eq_self fun s hs => Lexicon.handle_nameOf (h s hs)

end Rule
end StripAutomata
