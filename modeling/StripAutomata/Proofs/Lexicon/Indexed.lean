import StripAutomata.Proofs.Lexicon

/-!
# Names with an index

A lexicon looks a name up by going through its names.  An indexed lexicon has, beside the row of its
names, an index from each name to its handle, and a handle is a number of 32 bits that is made from
the length of the row.  The row and the index have to fit together after every call, and two names
must not get one handle when the lowest bits of the length are taken.

`Represents` is what fits together: the row is that of a lexicon, and the index answers as it does.
Interning keeps it as long as there is a handle left (`Represents.intern`), and so do any calls that
name at most as many strings as there are handles (`represents_internAll`).  Look-ups leave all as
it is, so calls are the names that are interned, in order.  What then holds of an indexed lexicon,
now and later, is read off the lexicon that it represents (`indexed_grows`).
-/

namespace StripAutomata

/-- The names of signals in a row, with an index of the handle of each name. -/
structure IndexedLexicon where
  names : Array String
  index : Std.HashMap String Signal

namespace IndexedLexicon

/-- The indexed lexicon without names. -/
def empty : IndexedLexicon := ⟨#[], ∅⟩

/-- The number of names. -/
def size (indexed : IndexedLexicon) : Nat := indexed.names.size

/-- The handle of a place in the row: the lowest 32 bits of the place. -/
def handleAt (place : Nat) : Signal := ⟨place % Signal.bound⟩

/-- The name of a signal, by its place in the row. -/
def name? (indexed : IndexedLexicon) (s : Signal) : Option String := indexed.names[s.index]?

/-- The signal of a name, by the index. -/
def signal? (indexed : IndexedLexicon) (name : String) : Option Signal := indexed.index[name]?

/-- The signal of a name, which is put at the end of the row and into the index if it is new. -/
def intern (indexed : IndexedLexicon) (name : String) : Signal × IndexedLexicon :=
  match indexed.signal? name with
  | some s => (s, indexed)
  | none =>
    let s := handleAt indexed.size
    (s, ⟨indexed.names.push name, indexed.index.insert name s⟩)

/-- The indexed lexicon after the names of a list have been interned in order. -/
def internAll (indexed : IndexedLexicon) (names : List String) : IndexedLexicon :=
  names.foldl (fun indexed name => (indexed.intern name).2) indexed

/-- Every handle with its name, in the order of the row. -/
def entries (indexed : IndexedLexicon) : List (Signal × String) :=
  indexed.names.toList.zipIdx.map fun entry => (handleAt entry.2, entry.1)

/-- Whether the row of an indexed lexicon is that of a lexicon, and its index answers alike. -/
structure Represents (indexed : IndexedLexicon) (lexicon : Lexicon) : Prop where
  names : indexed.names.toList = lexicon.names
  index : ∀ name, indexed.signal? name = lexicon.signal? name

variable {indexed : IndexedLexicon} {lexicon : Lexicon} {name : String}

/-! ## What represents a lexicon -/

lemma represents_empty : empty.Represents Lexicon.empty where
  names := rfl
  index _ := Std.HashMap.getElem?_empty

lemma handleAt_of_lt {place : Nat} (h : place < Signal.bound) : handleAt place = ⟨place⟩ := by
  rw [handleAt, Nat.mod_eq_of_lt h]

namespace Represents

lemma size_eq (h : indexed.Represents lexicon) : indexed.size = lexicon.size :=
  congrArg List.length h.names

lemma name?_eq (h : indexed.Represents lexicon) (s : Signal) :
    indexed.name? s = lexicon.name? s := by
  rw [IndexedLexicon.name?, Lexicon.name?, ← h.names, Array.getElem?_toList]

/-- As long as there is a handle for every place, the entries are those of the lexicon. -/
lemma entries_eq (h : indexed.Represents lexicon) (hroom : lexicon.size ≤ Signal.bound) :
    indexed.entries = lexicon.entries := by
  rw [IndexedLexicon.entries, Lexicon.entries, h.names]
  refine List.map_congr_left fun entry hentry => ?_
  have hplace : entry.2 < lexicon.size := List.snd_lt_of_mem_zipIdx hentry
  rw [handleAt_of_lt (hplace.trans_le hroom)]

lemma intern_of_mem (h : indexed.Represents lexicon) (hname : name ∈ lexicon.names) :
    indexed.intern name = (lexicon.handle name, indexed) := by
  rw [IndexedLexicon.intern, h.index, Lexicon.signal?_eq_handle hname]

lemma intern_of_not_mem (h : indexed.Represents lexicon) (hname : name ∉ lexicon.names)
    (hroom : lexicon.size < Signal.bound) :
    indexed.intern name =
      (⟨lexicon.size⟩, ⟨indexed.names.push name, indexed.index.insert name ⟨lexicon.size⟩⟩) := by
  rw [IndexedLexicon.intern, h.index, Lexicon.signal?_eq_none_iff.2 hname, h.size_eq,
    handleAt_of_lt hroom]

/-- **Interning keeps the row and the index together**, as long as there is a handle left. -/
lemma intern (h : indexed.Represents lexicon)
    (hroom : (lexicon.insert name).size ≤ Signal.bound) :
    (indexed.intern name).1 = lexicon.handle name ∧
      (indexed.intern name).2.Represents (lexicon.insert name) := by
  by_cases hname : name ∈ lexicon.names
  · rw [h.intern_of_mem hname, Lexicon.insert_of_mem hname]
    exact ⟨rfl, h⟩
  · -- A new name takes the next place, so there must be a handle for that place.
    have hnames := Lexicon.names_insert_of_not_mem hname
    have hfree : lexicon.size < Signal.bound := by
      rw [Lexicon.size, hnames, List.length_append] at hroom
      exact hroom
    rw [h.intern_of_not_mem hname hfree]
    refine ⟨congrArg Signal.mk (List.idxOf_eq_length hname).symm, ⟨?_, fun other => ?_⟩⟩
    · rw [hnames, ← h.names, Array.toList_push]
    · rw [Lexicon.signal?_insert_of_not_mem hname, ← h.index, IndexedLexicon.signal?,
        IndexedLexicon.signal?, Std.HashMap.getElem?_insert]
      simp only [beq_iff_eq, eq_comm (a := name)]

end Represents

/-- **So do any calls**, if they name no more strings than there are handles. -/
lemma represents_internAll (h : indexed.Represents lexicon) {names : List String}
    (hroom : (lexicon.insertAll names).size ≤ Signal.bound) :
    (indexed.internAll names).Represents (lexicon.insertAll names) := by
  induction names generalizing indexed lexicon with
  | nil => exact h
  | cons name names ih =>
    have hfirst : (lexicon.insert name).size ≤ Signal.bound :=
      (Lexicon.size_le_insertAll (lexicon.insert name) names).trans hroom
    exact ih (h.intern hfirst).2 hroom

/-! ## Names and handles -/

/-- What holds of an indexed lexicon with the names of a list: they are its row and stand in it
once; name and handle are found from each other; the handles are the places of the row, and the
entries list both in order; a name is interned again without a change, and a new one is appended
with the next place as its handle, if there is a handle left. -/
structure Numbers (indexed : IndexedLexicon) (names : List String) : Prop where
  row : indexed.names.toList = names
  nodup : names.Nodup
  inverse : ∀ name s, indexed.signal? name = some s ↔ indexed.name? s = some name
  handles : ∀ s, (∃ name, indexed.name? s = some name) ↔ s.index < names.length
  entries_handles : indexed.entries.map (·.1.index) = List.range names.length
  entries_names : indexed.entries.map (·.2) = names
  known : ∀ name ∈ names, ∃ s, indexed.signal? name = some s ∧ indexed.intern name = (s, indexed)
  unknown : ∀ name ∉ names, names.length < Signal.bound → indexed.signal? name = none ∧
    (indexed.intern name).1 = ⟨names.length⟩ ∧
      (indexed.intern name).2.names = indexed.names.push name

namespace Represents

/-- What represents a lexicon numbers its names. -/
lemma numbers (h : indexed.Represents lexicon) (hroom : lexicon.size ≤ Signal.bound) :
    indexed.Numbers lexicon.names where
  row := h.names
  nodup := lexicon.nodup
  inverse name s := by rw [h.index, h.name?_eq, Lexicon.signal?_eq_some_iff]
  handles s := by
    rw [h.name?_eq, Lexicon.name?, ← Option.isSome_iff_exists]
    simp
  entries_handles := by
    rw [h.entries_eq hroom, Lexicon.entries, List.map_map]
    exact (List.zipIdx_map_snd 0 lexicon.names).trans List.range_eq_range'.symm
  entries_names := by
    rw [h.entries_eq hroom, Lexicon.entries, List.map_map]
    exact List.zipIdx_map_fst 0 lexicon.names
  known name hname := ⟨lexicon.handle name, by rw [h.index, Lexicon.signal?_eq_handle hname],
    h.intern_of_mem hname⟩
  unknown name hname hfree := by
    rw [h.intern_of_not_mem hname hfree, h.index, Lexicon.signal?_eq_none_iff]
    exact ⟨hname, rfl, rfl⟩

lemma keeps (h : indexed.Represents lexicon) {names : List String}
    (hroom : (lexicon.insertAll names).size ≤ Signal.bound) :
    (∀ name ∈ lexicon.names, (indexed.internAll names).signal? name = indexed.signal? name) ∧
      ∀ s name, indexed.name? s = some name → (indexed.internAll names).name? s = some name := by
  have hafter := represents_internAll h hroom
  constructor
  · intro name hname
    have hlater : name ∈ (lexicon.insertAll names).names :=
      Lexicon.mem_names_insertAll.2 (Or.inl hname)
    rw [hafter.index, h.index, Lexicon.signal?_eq_handle hlater, Lexicon.signal?_eq_handle hname,
      Lexicon.handle_insertAll hname]
  · intro s name hs
    rw [h.name?_eq] at hs
    rw [hafter.name?_eq]
    exact Lexicon.name?_insertAll hs names

end Represents

/-- **Names and handles grow together.**  Calls on a new indexed lexicon may intern any strings, as
long as no more of them are different than there are handles.  After the `earlier` ones the strings
that were interned are numbered in the order of their first interning, each once.  The `later` ones
change neither the handle of a name nor the name of a handle.  A lexicon, which has no index and
takes its handles as they come, gives the same answers, to the next string that is interned, too. -/
theorem indexed_grows (earlier later : List String)
    (hroom : (earlier ++ later).eraseDups.length ≤ Signal.bound) :
    let now := empty.internAll earlier
    let lexicon := Lexicon.empty.insertAll earlier
    now.Numbers earlier.eraseDups ∧
    ((∀ name ∈ earlier, (now.internAll later).signal? name = now.signal? name) ∧
      ∀ s name, now.name? s = some name → (now.internAll later).name? s = some name) ∧
    ((∀ name, lexicon.signal? name = now.signal? name) ∧ (∀ s, lexicon.name? s = now.name? s) ∧
      lexicon.entries = now.entries ∧
      ∀ name, (lexicon.insert name).size ≤ Signal.bound →
        (lexicon.intern name).1 = (now.intern name).1 ∧
          (now.intern name).2.Represents (lexicon.intern name).2) := by
  intro now lexicon
  have hnames : lexicon.names = earlier.eraseDups := Lexicon.names_insertAll_empty earlier
  have hlater : (lexicon.insertAll later).size ≤ Signal.bound := by
    rw [← Lexicon.insertAll_append, Lexicon.size, Lexicon.names_insertAll_empty]
    exact hroom
  have hnow : lexicon.size ≤ Signal.bound :=
    (Lexicon.size_le_insertAll lexicon later).trans hlater
  -- What holds of the names is read off the lexicon that the calls represent.
  have h : now.Represents lexicon := represents_internAll represents_empty hnow
  obtain ⟨hhandles, hkept⟩ := h.keeps hlater
  refine ⟨hnames ▸ h.numbers hnow, ⟨fun name hname => hhandles name ?_, hkept⟩,
    fun name => (h.index name).symm, fun s => (h.name?_eq s).symm, (h.entries_eq hnow).symm,
    fun name hfree => ?_⟩
  · rwa [hnames, List.mem_eraseDups]
  · obtain ⟨hhandle, hrepresents⟩ := h.intern hfree
    exact ⟨hhandle.symm, hrepresents⟩

/-- Of three strings two are the same, so the next one gets the third handle, which it keeps; the
string that came twice still has the first one. -/
theorem indexed_grows_repeated :
    (["Right", "Half", "Right"] ++ ["Wall", "Half"]).eraseDups.length ≤ Signal.bound ∧
    (empty.internAll ["Right", "Half", "Right"]).Numbers ["Right", "Half"] ∧
    ((empty.internAll ["Right", "Half", "Right"]).internAll ["Wall", "Half"]).signal? "Right" =
      some ⟨0⟩ ∧
    ((empty.internAll ["Right", "Half", "Right"]).intern "Wall").1 = ⟨2⟩ := by
  have hroom :
      (["Right", "Half", "Right"] ++ ["Wall", "Half"]).eraseDups.length ≤ Signal.bound := by decide
  obtain ⟨hnumbers, ⟨hkept, -⟩, hsignal, -⟩ :=
    indexed_grows ["Right", "Half", "Right"] ["Wall", "Half"] hroom
  have hdistinct : ["Right", "Half", "Right"].eraseDups = ["Right", "Half"] := by decide
  rw [hdistinct] at hnumbers
  refine ⟨hroom, hnumbers, ?_, (hnumbers.unknown "Wall" (by decide) (by decide)).2.1⟩
  rw [hkept "Right" (by decide), ← hsignal]
  decide

end IndexedLexicon
end StripAutomata
