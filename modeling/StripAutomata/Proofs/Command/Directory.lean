import Mathlib.Tactic.Common
import StripAutomata.Command.Directory

/-!
# What is written is read again

A text that is written under a name in the folder of a command is read under this name afterwards
(`IsPlainName.read_of_write`), and what is written anywhere else does not show there
(`IsPlainName.read_of_write_of_ne`).

Both rest on what writing does to a directory as a whole.  A text goes to one place
(`exists_wrote`), of which `Wrote` says what has become, and that place lies in a folder which was
there before (`hasFolder_of_locate`).  So writing never makes a folder (`Wrote.hasFolder_eq`),
though a place is also a folder where only the place of some file says so.
-/

namespace StripAutomata.Command

/-! ## Paths that lead outward -/

namespace Path

lemma names_up (path : String) : names ("../" ++ path) = ".." :: names path := by
  have hpieces : pieces ("../" ++ path).toList = ".." :: pieces path.toList := by
    have hchars : ("../" ++ path).toList = ['.', '.'] ++ '/' :: path.toList := by
      rw [String.toList_append]
      rfl
    rw [pieces, hchars, List.splitOn, List.splitOnP_append_cons _ _ (by decide)]
    rfl
  rw [names, hpieces]
  rfl

lemma outward_succ (name : String) (n : Nat) :
    outward name (n + 1) = "../" ++ outward name n := by
  rw [outward, List.replicate_succ, String.join_cons, String.append_assoc]
  rfl

lemma outward_zero (name : String) : outward name 0 = name := String.empty_append

lemma names_outward (name : String) (n : Nat) :
    names (outward name n) = List.replicate n ".." ++ names name := by
  induction n with
  | zero =>
    rw [outward_zero]
    rfl
  | succ n ih =>
    rw [outward_succ, names_up, ih]
    rfl

lemma isTooLong_outward {name : String} {n m : Nat} (hle : n ≤ m)
    (h : isTooLong (outward name n) = true) :
    isTooLong (outward name m) = true := by
  induction hle with
  | refl => exact h
  | step _ ih =>
    rw [isTooLong, decide_eq_true_eq] at ih ⊢
    rw [outward_succ, String.utf8ByteSize_append]
    omega

lemma isAbsolute_up (path : String) : isAbsolute ("../" ++ path) = false := by
  rw [isAbsolute, String.toList_append]
  rfl

lemma wantsFolder_up {path : String} (hpath : path ≠ "") :
    wantsFolder ("../" ++ path) = wantsFolder path := by
  have hnonempty : path.toList ≠ [] := by simpa using hpath
  have hlast := List.getLast?_eq_some_getLast hnonempty
  rw [wantsFolder, wantsFolder, String.toList_append, List.getLast?_append, hlast]
  rfl

end Path

namespace Directory

variable {d d' : Directory} {path text : String}

/-! ## Folders -/

lemma hasFolder_iff {place : Place} :
    d.hasFolder place = true ↔ place = [] ∨ place ∈ d.folders ∨ place <+: d.home ∨
      ∃ p ∈ d.files.map (·.1) ++ d.folders, place <+: p ∧ p ≠ place := by
  simp only [hasFolder, Bool.or_eq_true, List.isEmpty_iff, List.contains_iff_mem,
    List.isPrefixOf_iff_prefix, List.any_eq_true, Bool.and_eq_true, bne_iff_ne, or_assoc]

lemma hasFolder_outer {place outer : Place} (houter : outer <+: place)
    (h : d.hasFolder place = true) : d.hasFolder outer = true := by
  by_cases heq : place = outer
  · rwa [← heq]
  · rw [hasFolder_iff] at h ⊢
    rcases h with hempty | hlisted | hhome | ⟨p, hp, hplace, hne⟩
    · rw [hempty] at houter
      exact .inl (List.prefix_nil.1 houter)
    · exact .inr (.inr (.inr ⟨place, List.mem_append_right _ hlisted, houter, heq⟩))
    · exact .inr (.inr (.inl (houter.trans hhome)))
    · -- The outer place is not the end of the path either.
      refine .inr (.inr (.inr ⟨p, hp, houter.trans hplace, ?_⟩))
      rintro rfl
      exact hne (hplace.eq_of_length_le houter.length_le).symm

lemma hasFolder_home : d.hasFolder d.home = true :=
  hasFolder_iff.2 (.inr (.inr (.inl (List.prefix_refl _))))

/-- Following names never leaves the folders. -/
lemma hasFolder_of_follow {names : List String} {place p : Place}
    (hplace : d.hasFolder place = true) (h : d.follow place names = .ok p) :
    d.hasFolder p = true := by
  induction names generalizing place with
  | nil =>
    cases h
    exact hplace
  | cons name names ih =>
    rw [follow] at h
    dsimp only at h
    split_ifs at h with hpoint hpoints hlong hinner
    · exact ih hplace h
    · exact ih (hasFolder_outer (List.dropLast_prefix _) hplace) h
    · exact ih hinner h

lemma hasFolder_of_locate {place : Place} {name : String} {wantsFolder : Bool}
    (h : d.locate path = .ok (.entry place name wantsFolder)) : d.hasFolder place = true := by
  have hstart : d.hasFolder (if Path.isAbsolute path then [] else d.home) = true := by
    split
    · exact hasFolder_iff.2 (.inl rfl)
    · exact hasFolder_home
  rw [locate] at h
  generalize (if Path.isAbsolute path then [] else d.home) = start at h hstart
  split_ifs at h with hempty hlong
  dsimp only at h
  cases hfollow : d.follow start (Path.names path).dropLast with
  | error e =>
    rw [hfollow] at h
    cases h
  | ok p =>
    rw [hfollow] at h
    simp only [bind, Except.bind] at h
    split at h <;> cases h
    exact hasFolder_of_follow hstart hfollow

/-! ## Writing -/

lemma any_put (files : List (Place × String)) (place : Place) (text : String)
    (f : Place → Bool) :
    ((put files place text).map (·.1)).any f = ((files.map (·.1)).any f || f place) := by
  induction files with
  | nil => simp [put]
  | cons entry files ih =>
    obtain ⟨p, old⟩ := entry
    by_cases hp : p = place
    · subst hp
      simp only [put, if_true, List.map_cons, List.any_cons]
      cases f p <;> simp
    · simp only [put, if_neg hp, List.map_cons, List.any_cons, ih, Bool.or_assoc]

lemma lookup_put_self (files : List (Place × String)) (place : Place) (text : String) :
    (put files place text).lookup place = some text := by
  induction files with
  | nil => simp [put]
  | cons entry files ih =>
    obtain ⟨p, old⟩ := entry
    by_cases hp : p = place
    · subst hp
      simp [put]
    · simp [put, hp, List.lookup_cons, ih, beq_eq_false_iff_ne.2 (Ne.symm hp)]

lemma lookup_put_of_ne (files : List (Place × String)) {place other : Place} (h : other ≠ place)
    (text : String) : (put files place text).lookup other = files.lookup other := by
  induction files with
  | nil => simp [put, List.lookup_cons, beq_eq_false_iff_ne.2 h]
  | cons entry files ih =>
    obtain ⟨p, old⟩ := entry
    by_cases hp : p = place
    · subst hp
      simp [put, List.lookup_cons, beq_eq_false_iff_ne.2 h]
    · simp [put, hp, List.lookup_cons, ih]

lemma hasFolder_put (place q : Place) (text : String) :
    { d with files := put d.files place text }.hasFolder q =
      (d.hasFolder q || (q.isPrefixOf place && place != q)) := by
  simp only [hasFolder, List.any_append, any_put]
  grind

/-- The place of the file that a path leads to. -/
def place? (d : Directory) (path : String) : Option Place :=
  match d.locate path with
  | .ok (.entry place name _) => some (place ++ [name])
  | _ => none

/-- What has become of a directory where a text was written to the file at a place: nothing, if
the file forgets it, or what is shown has grown, or an ordinary file has the text. -/
inductive Wrote (d : Directory) (place : Place) (text : String) : Directory → Prop
  | forgotten (h : place ∈ emptyFiles) : Wrote d place text d
  | shown (h : place = watchedFile) : Wrote d place text { d with shown := d.shown ++ text }
  | stored (h : place ∉ standingFiles) :
    Wrote d place text { d with files := put d.files place text }

/-- A text is written only to a file that lies in a folder and is none itself. -/
lemma exists_wrote (h : d.write path text = .ok d') :
    ∃ place name, d.place? path = some (place ++ [name]) ∧ d.hasFolder place = true ∧
      d.hasFolder (place ++ [name]) = false ∧ Wrote d (place ++ [name]) text d' := by
  unfold write at h
  cases hlocate : d.locate path with
  | error e => rw [hlocate] at h; cases h
  | ok target =>
    rw [hlocate] at h
    cases target with
    | folder place => cases h
    | entry place name wantsFolder =>
      simp only [bind, Except.bind] at h
      -- Three of the ways through lead to a write; the others fail.
      split_ifs at h with hwants hlong hfolder hempty hfull hwatched hclosed <;> cases h
      all_goals
        refine ⟨place, name, by rw [place?, hlocate], hasFolder_of_locate hlocate,
          Bool.not_eq_true _ ▸ hfolder, ?_⟩
        rw [List.contains_iff_mem] at hempty
      · exact Wrote.forgotten hempty
      · exact Wrote.shown hwatched
      · refine Wrote.stored ?_
        simp [standingFiles, hempty, hfull, hwatched]

section

variable {place : Place} {name : String}

lemma Wrote.home_eq (h : Wrote d place text d') : d'.home = d.home := by
  cases h <;> rfl

/-- Writing makes no folders, for the file that is written lies in one. -/
lemma Wrote.hasFolder_eq (h : Wrote d (place ++ [name]) text d') (hplace : d.hasFolder place = true)
    (q : Place) : d'.hasFolder q = d.hasFolder q := by
  cases h with
  | forgotten => rfl
  | shown => rfl
  | stored =>
    rw [hasFolder_put]
    -- The file is new evidence for the folders around it only, and these are there already.
    by_cases hq : q <+: place ++ [name] ∧ place ++ [name] ≠ q
    · have houter : q <+: place :=
        (List.prefix_concat_iff.1 hq.1).resolve_left fun h => hq.2 h.symm
      rw [hasFolder_outer houter hplace, Bool.true_or]
    · have hfalse : (q.isPrefixOf (place ++ [name]) && (place ++ [name]) != q) = false := by
        simpa using hq
      rw [hfalse, Bool.or_false]

lemma Wrote.file?_of_ne (h : Wrote d place text d') {q : Place} (hq : q ≠ place) :
    d'.file? q = d.file? q := by
  cases h with
  | forgotten => rfl
  | shown => rfl
  | stored => simp only [file?, lookup_put_of_ne d.files hq]

lemma Wrote.file?_self (h : Wrote d place text d') (hplace : place ∉ standingFiles) :
    d'.file? place = some text := by
  have hempty : place ∉ emptyFiles := fun he => hplace (List.mem_append_left _ he)
  cases h with
  | forgotten he => exact absurd he hempty
  | shown hw =>
    subst hw
    exact absurd (by decide) hplace
  | stored => simp [file?, hempty, lookup_put_self]

end

/-! ## Names in the folder that a command runs in, and in the folders around it -/

/-- The folder that is some number of folders outward from where a command runs. -/
def around (d : Directory) (n : Nat) : Place := d.home.take (d.home.length - n)

lemma around_zero (d : Directory) : d.around 0 = d.home := List.take_length

lemma follow_up (place : Place) (n : Nat) :
    d.follow place (List.replicate n "..") = .ok (place.take (place.length - n)) := by
  induction n generalizing place with
  | zero => exact congrArg Except.ok List.take_length.symm
  | succ n ih =>
    have htake : place.dropLast.take (place.dropLast.length - n) =
        place.take (place.length - (n + 1)) := by
      rw [List.dropLast_eq_take, List.take_take, List.length_take]
      congr 1
      omega
    rw [List.replicate_succ, follow, if_neg (by decide), if_pos rfl, ih, htake]

/-- Whether a path is only a name that any file could have. -/
structure IsPlainName (name : String) : Prop where
  names : Path.names name = [name]
  relative : Path.isAbsolute name = false
  noSlash : Path.wantsFolder name = false
  ne_point : name ≠ "."
  ne_points : name ≠ ".."
  short : Path.isTooLongName name = false
  ordinary : ∀ place ∈ standingFiles, place.getLast? ≠ some name

namespace IsPlainName

variable {name : String} (hname : IsPlainName name)

include hname

lemma not_isTooLong : Path.isTooLong name = false := by
  have hshort := hname.short
  simp only [Path.isTooLongName, Path.isTooLong, decide_eq_false_iff_not] at hshort ⊢
  omega

lemma outward_ne_empty (n : Nat) : Path.outward name n ≠ "" := by
  intro h
  have hnames := Path.names_outward name n
  rw [h, hname.names] at hnames
  exact List.append_ne_nil_of_right_ne_nil _ (List.cons_ne_nil _ _) hnames.symm

lemma isAbsolute_outward (n : Nat) : Path.isAbsolute (Path.outward name n) = false := by
  cases n with
  | zero => rw [Path.outward_zero, hname.relative]
  | succ n => rw [Path.outward_succ, Path.isAbsolute_up]

lemma wantsFolder_outward (n : Nat) : Path.wantsFolder (Path.outward name n) = false := by
  induction n with
  | zero => rw [Path.outward_zero, hname.noSlash]
  | succ n ih => rw [Path.outward_succ, Path.wantsFolder_up (hname.outward_ne_empty n), ih]

lemma locate_outward (d : Directory) {n : Nat}
    (hlong : Path.isTooLong (Path.outward name n) = false) :
    d.locate (Path.outward name n) = .ok (.entry (d.around n) name false) := by
  rw [locate, if_neg (hname.outward_ne_empty n), hlong, if_neg Bool.false_ne_true,
    Path.names_outward, hname.names, hname.isAbsolute_outward, hname.wantsFolder_outward]
  dsimp only
  rw [if_neg Bool.false_ne_true, List.dropLast_concat, follow_up, List.getLast?_concat]
  simp only [bind, Except.bind]
  -- A name that is neither one point nor two is that of an entry.
  split
  next heq => cases heq
  next heq => exact absurd (Option.some.inj heq) hname.ne_point
  next heq => exact absurd (Option.some.inj heq) hname.ne_points
  next heq =>
    rw [Option.some.inj heq]
    rfl

lemma read_outward (d : Directory) {n : Nat}
    (hlong : Path.isTooLong (Path.outward name n) = false) :
    d.read (Path.outward name n) =
      if d.hasFolder (d.around n ++ [name]) then .error .isDirectory
      else match d.file? (d.around n ++ [name]) with
        | none => .error .missing
        | some text => .ok text := by
  cases hfile : d.file? (d.around n ++ [name]) <;>
    simp [read, hname.locate_outward d hlong, bind, Except.bind, hname.short, hfile]

lemma locate_eq (d : Directory) : d.locate name = .ok (.entry d.home name false) := by
  have hlong : Path.isTooLong (Path.outward name 0) = false := by
    rw [Path.outward_zero, hname.not_isTooLong]
  have hlocate := hname.locate_outward d hlong
  rwa [Path.outward_zero, around_zero] at hlocate

lemma read_eq (d : Directory) :
    d.read name =
      if d.hasFolder (d.home ++ [name]) then .error .isDirectory
      else match d.file? (d.home ++ [name]) with
        | none => .error .missing
        | some text => .ok text := by
  have hlong : Path.isTooLong (Path.outward name 0) = false := by
    rw [Path.outward_zero, hname.not_isTooLong]
  have hread := hname.read_outward d hlong
  rwa [Path.outward_zero, around_zero] at hread

/-- Where a file cannot be read that might be further outward, the path is too long, and then those
that lead further outward are too long as well. -/
lemma read_outward_cases (d : Directory) (n : Nat) {e : FileFault}
    (h : d.read (Path.outward name n) = .error e) : e = .missing ∨ e = .isDirectory ∨
      ∀ m, n ≤ m → d.read (Path.outward name m) = .error .nameTooLong := by
  cases hlong : Path.isTooLong (Path.outward name n) with
  | false =>
    rw [hname.read_outward d hlong] at h
    split_ifs at h with hfolder
    · cases h
      exact .inr (.inl rfl)
    · split at h <;> cases h
      exact .inl rfl
  | true =>
    refine .inr (.inr fun m hm => ?_)
    rw [read, locate, if_neg (hname.outward_ne_empty m), if_pos (Path.isTooLong_outward hm hlong)]
    rfl

/-- What can come of reading under a name. -/
lemma read_cases (d : Directory) : d.read name = .error .isDirectory ∨
    d.read name = .error .missing ∨ ∃ text, d.read name = .ok text := by
  rw [hname.read_eq]
  split
  · exact .inl rfl
  · cases d.file? (d.home ++ [name]) with
    | none => exact .inr (.inl rfl)
    | some text => exact .inr (.inr ⟨text, rfl⟩)

lemma notMem_standingFiles (place : Place) : place ++ [name] ∉ standingFiles := by
  intro h
  exact hname.ordinary _ h List.getLast?_concat

/-- Anything can be written under a name, unless it is the name of a folder or nothing can be made
in the folder of the command. -/
lemma exists_write {d : Directory} (hnone : d.hasFolder (d.home ++ [name]) = false)
    (hhome : d.home ≠ closedFolder) (text : String) : ∃ d', d.write name text = .ok d' := by
  have hstanding := hname.notMem_standingFiles d.home
  simp only [standingFiles, List.mem_append, List.mem_cons, List.not_mem_nil, or_false,
    not_or] at hstanding
  obtain ⟨hempty, hfull, hwatched⟩ := hstanding
  simp [write, hname.locate_eq d, bind, Except.bind, hname.short, hnone, hempty, hfull, hwatched,
    hhome]

/-- **A text that was written under a name is read under it.** -/
theorem read_of_write {d d' : Directory} {text : String} (h : d.write name text = .ok d') :
    d'.read name = .ok text := by
  obtain ⟨place, last, hplace, hfolder, hnone, hwrote⟩ := exists_wrote h
  -- The path leads to one place, both when it is written to and when it is read.
  have heq : d.home ++ [name] = place ++ [last] := by
    rw [place?, hname.locate_eq d] at hplace
    exact Option.some.inj hplace
  rw [← heq] at hnone
  have hhas : d'.hasFolder (d'.home ++ [name]) = false := by
    rw [hwrote.home_eq, hwrote.hasFolder_eq hfolder, hnone]
  have hfile : d'.file? (d'.home ++ [name]) = some text := by
    rw [hwrote.home_eq, heq]
    exact hwrote.file?_self (heq ▸ hname.notMem_standingFiles d.home)
  rw [hname.read_eq, hhas, if_neg Bool.false_ne_true, hfile]

/-- What is written to another file leaves alone what is read under a name. -/
theorem read_of_write_of_ne {d d' : Directory} {path text : String}
    (h : d.write path text = .ok d') (hne : d.place? path ≠ some (d.home ++ [name])) :
    d'.read name = d.read name := by
  obtain ⟨place, last, hplace, hfolder, hnone, hwrote⟩ := exists_wrote h
  have hother : d.home ++ [name] ≠ place ++ [last] := by
    rintro heq
    exact hne (heq ▸ hplace)
  rw [hname.read_eq, hname.read_eq, hwrote.home_eq, hwrote.hasFolder_eq hfolder,
    hwrote.file?_of_ne hother]

end IsPlainName

end Directory
end StripAutomata.Command
