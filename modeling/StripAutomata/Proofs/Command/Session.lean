import Mathlib.Tactic.Common
import StripAutomata.Command.Session
import StripAutomata.Proofs.Command.Directory

/-!
# What a session does to a directory

Most pieces of a session only read (`Directory.Keeps`), and carrying out a run writes at most to
the path of its output, and only if all goes well (`Directory.WritesAtEnd`).  Both are put together
along the steps of a session by the lemmas for `>>=`: behind a piece that keeps the directory, the
session goes on where it was.

So a request is carried out in the directory that the session began in, if the session gets its
settings (`Session.Prepares`), and otherwise it ends in one way whatever the request is
(`carryOut_cases`).  The variables that were given to a session are the same behind its variable
file, which is the nearest one (`Directory.nearest?`); any other variable has the first value that
this file assigns to it (`Session.get?_eq_of_loadVariables?`).
-/

namespace StripAutomata.Command

/-! ## Steps -/

namespace Directory

variable {α β : Type}

/-- Whether a piece of a session leaves every directory as it is. -/
def Keeps (x : StateM Directory α) : Prop := ∀ d, (x d).2 = d

/-- Whether a piece of a session changes a directory at most by writing to one path. -/
def WritesTo (path : Option String) (x : StateM Directory α) : Prop :=
  ∀ d, (x d).2 = d ∨ ∃ p text, path = some p ∧ d.write p text = .ok (x d).2

/-- Whether a piece of a session changes a directory at most by writing to one path, and only if it
ends well. -/
def WritesAtEnd (path : Option String) (x : StateM Directory Result) : Prop :=
  ∀ d, (x d).2 = d ∨
    (x d).1.outcome.code = 0 ∧ ∃ p text, path = some p ∧ d.write p text = .ok (x d).2

lemma WritesAtEnd.writesTo {x : StateM Directory Result} {path : Option String}
    (hx : WritesAtEnd path x) : WritesTo path x := fun d => (hx d).imp id And.right

lemma read_apply {d : Directory} {path : String} {r : Except FileFault String}
    (h : d.read path = r) : access.read path d = (r, d) := by
  subst h
  rfl

lemma write_apply {d d' : Directory} {path text : String} (h : d.write path text = .ok d') :
    access.write path text d = (.ok (), d') := by
  simp only [access, change, h]

lemma write_apply_of_error {d : Directory} {path text : String} {e : FileFault}
    (h : d.write path text = .error e) : access.write path text d = (.error e, d) := by
  simp only [access, change, h]

lemma bind_apply {x : StateM Directory α} {a : α} {d d' : Directory} (h : x d = (a, d'))
    (f : α → StateM Directory β) : (x >>= f) d = f a d' := by
  show f (x d).1 (x d).2 = f a d'
  rw [h]

lemma Keeps.apply_eq {x : StateM Directory α} (hx : Keeps x) (d : Directory) :
    x d = ((x d).1, d) :=
  Prod.ext rfl (hx d)

lemma keeps_pure (a : α) : Keeps (pure a) := fun _ => rfl

lemma keeps_read (path : String) : Keeps (access.read path) := fun _ => rfl

lemma Keeps.bind {x : StateM Directory α} {f : α → StateM Directory β} (hx : Keeps x)
    (hf : ∀ a, Keeps (f a)) : Keeps (x >>= f) := by
  intro d
  rw [bind_apply (hx.apply_eq d)]
  exact hf _ d

lemma Keeps.writesAtEnd {x : StateM Directory Result} (hx : Keeps x) (path : Option String) :
    WritesAtEnd path x := fun d => .inl (hx d)

lemma Keeps.bind_writesAtEnd {x : StateM Directory α} {f : α → StateM Directory Result}
    {path : Option String} (hx : Keeps x) (hf : ∀ a, WritesAtEnd path (f a)) :
    WritesAtEnd path (x >>= f) := by
  intro d
  rw [bind_apply (hx.apply_eq d)]
  exact hf _ d

end Directory

/-! ## Variables -/

namespace VariableFile

/-- What lines assign, up to the first one that is malformed or unfinished.  The variables that a
value brings in are those before its line. -/
def assignments (vars : Variables) : List (Option (List Char)) → Variables
  | [] | none :: _ => []
  | some l :: ls =>
    match readLine? vars l with
    | none => []
    | some none => assignments vars ls
    | some (some (name, value)) =>
      (name, value) :: assignments ((assign? vars name value).getD vars) ls

/-- What a text assigns. -/
def assigned (vars : Variables) (text : String) : Variables :=
  let cs :=
    match text.toList with
    | '\uFEFF' :: cs => cs
    | cs => cs
  assignments vars (gather [] .nothing (rawLines cs))

lemma get?_of_assign? {vars after : Variables} {assigned value : String}
    (h : assign? vars assigned value = some after) (name : String) :
    after.get? name = (vars.get? name).or (Variables.get? [(assigned, value)] name) := by
  unfold assign? at h
  split_ifs at h with hsome
  · obtain rfl := Option.some.inj h
    by_cases hname : name = assigned
    · rw [hname, Option.or_of_isSome hsome]
    · have hother : Variables.get? [(assigned, value)] name = none :=
        List.lookup_eq_none_iff.2 fun entry hentry => by
          obtain rfl := List.mem_singleton.1 hentry
          exact bne_iff_ne.2 hname
      rw [hother, Option.or_none]
  · obtain rfl := Option.some.inj h
    exact List.lookup_append

/-- A variable that has a value keeps it, and any other has the first one that is assigned to it. -/
lemma get?_of_readLines? {vars after : Variables} {lines : List (Option (List Char))}
    (h : readLines? vars lines = some after) (name : String) :
    after.get? name = (vars.get? name).or ((assignments vars lines).get? name) := by
  -- Each line is read under the variables that the lines before it have left.
  induction lines generalizing vars with
  | nil =>
    obtain rfl := Option.some.inj h
    exact (Option.or_none ..).symm
  | cons line lines ih =>
    cases line with
    | none =>
      obtain rfl := Option.some.inj h
      exact (Option.or_none ..).symm
    | some l =>
      rcases hline : readLine? vars l with _ | _ | ⟨assigned, value⟩
      · simp only [readLines?, hline] at h
        obtain rfl := Option.some.inj h
        simp only [assignments, hline]
        exact (Option.or_none ..).symm
      · simp only [readLines?, hline] at h
        simp only [assignments, hline]
        exact ih h
      · simp only [readLines?, hline, Option.bind_eq_bind, Option.bind_eq_some_iff] at h
        obtain ⟨next, hassign, hrest⟩ := h
        have hentry : Variables.get? ((assigned, value) :: assignments next lines) name =
            (Variables.get? [(assigned, value)] name).or ((assignments next lines).get? name) := by
          show Variables.get? ([(assigned, value)] ++ assignments next lines) name = _
          exact List.lookup_append
        simp only [assignments, hline, hassign, Option.getD_some]
        rw [ih hrest, hentry, get?_of_assign? hassign, Option.or_assoc]

end VariableFile

namespace Directory

variable {d : Directory}

/-- The text of the nearest file of a name, in the folder that a command runs in or in one around
it. -/
def nearest? (d : Directory) (name : String) : Option String :=
  (List.range (d.home.length + 1)).findSome? fun n => (d.read (Path.outward name n)).toOption

/-- A search finds the first file that can be read, if a fault that ends it is only where nothing
can be read further on. -/
lemma readFirst?_apply {paths : List String}
    (h : paths.Pairwise fun p q => ∀ e, d.read p = .error e →
      e = .missing ∨ e = .isDirectory ∨ ∃ e', d.read q = .error e') :
    access.readFirst? paths d = (paths.findSome? fun path => (d.read path).toOption, d) := by
  induction paths with
  | nil => rfl
  | cons path paths ih =>
    obtain ⟨hhead, htail⟩ := List.pairwise_cons.1 h
    rw [Files.readFirst?, List.findSome?_cons]
    cases hread : d.read path with
    | ok text =>
      rw [bind_apply (read_apply hread)]
      rfl
    | error e =>
      rw [bind_apply (read_apply hread)]
      -- The search goes on at the two faults that say that there is no file, and ends at any other.
      have hends (hmissing : e ≠ .missing) (hfolder : e ≠ .isDirectory) :
          (paths.findSome? fun path => (d.read path).toOption) = none := by
        refine List.findSome?_eq_none_iff.2 fun q hq => ?_
        obtain ⟨e', hq⟩ := ((hhead q hq e hread).resolve_left hmissing).resolve_left hfolder
        rw [hq]
        rfl
      cases e with
      | missing => exact ih htail
      | isDirectory => exact ih htail
      | _ => exact congrArg (·, d) (hends nofun nofun).symm

lemma IsPlainName.readFirst?_apply {name : String} (hname : IsPlainName name) (d : Directory) :
    access.readFirst? ((List.range (d.home.length + 1)).map (Path.outward name)) d =
      (d.nearest? name, d) := by
  rw [Directory.readFirst?_apply, List.findSome?_map]
  · rfl
  · refine List.pairwise_map.2 (List.pairwise_lt_range.imp fun {n m} hlt e he => ?_)
    rcases hname.read_outward_cases d n he with hmissing | hfolder | hlong
    · exact .inl hmissing
    · exact .inr (.inl hfolder)
    · exact .inr (.inr ⟨_, hlong m (Nat.le_of_lt hlt)⟩)

end Directory

/-! ## Requests -/

namespace Session

open Directory

lemma isPlainName_variableFile : IsPlainName variableFile where
  names := by decide
  relative := by decide
  noSlash := by decide
  ne_point := by decide
  ne_points := by decide
  short := by decide
  ordinary := by decide

lemma loadVariables?_apply (given : Variables) (d : Directory) :
    loadVariables? access given d =
      match d.nearest? variableFile with
      | some text => (VariableFile.extend? given text, d)
      | none => (some given, d) := by
  have hdepth : access.depth d = (d.home.length, d) := rfl
  rw [loadVariables?, bind_apply hdepth, variableFiles,
    bind_apply (isPlainName_variableFile.readFirst?_apply d)]
  cases d.nearest? variableFile <;> rfl

lemma keeps_loadVariables? (given : Variables) : Keeps (loadVariables? access given) := by
  intro d
  rw [loadVariables?_apply]
  split <;> rfl

/-- What the nearest variable file assigns, also to variables that are given already. -/
def assigned (given : Variables) (d : Directory) : Variables :=
  match d.nearest? variableFile with
  | some text => VariableFile.assigned given text
  | none => []

/-- A variable has the value that is given, or else the first one that the variable file assigns. -/
lemma get?_eq_of_loadVariables? {given vars : Variables} {d : Directory}
    (h : (loadVariables? access given d).1 = some vars) (name : String) :
    vars.get? name = (given.get? name).or ((assigned given d).get? name) := by
  rw [loadVariables?_apply] at h
  unfold assigned
  cases hnearest : d.nearest? variableFile with
  | none =>
    rw [hnearest] at h
    obtain rfl := Option.some.inj h
    exact (Option.or_none ..).symm
  | some text =>
    rw [hnearest] at h
    exact VariableFile.get?_of_readLines? h name

/-- The variable file does not change the variables that are given. -/
lemma get?_of_loadVariables? {given vars : Variables} {d : Directory}
    (h : (loadVariables? access given d).1 = some vars) {name v : String}
    (hv : given.get? name = some v) : vars.get? name = some v := by
  rw [get?_eq_of_loadVariables? h, hv, Option.some_or]

lemma keeps_loadStored (path : Option String) : Keeps (loadStored access path) := by
  cases path with
  | none => exact keeps_pure _
  | some path =>
    refine (keeps_read path).bind fun r => ?_
    split
    · split <;> exact keeps_pure _
    all_goals exact keeps_pure _

lemma keeps_loadRules (path : String) : Keeps (loadRules access path) :=
  (keeps_read path).bind fun _ => keeps_pure _

lemma keeps_describeRules (describe : Automaton → String) (path : String) :
    Keeps (describeRules access describe path) := by
  refine (keeps_loadRules path).bind fun r => ?_
  split <;> exact keeps_pure _

lemma writesAtEnd_deliver (output : Option String) (text : String) (steps : Nat) :
    WritesAtEnd output (deliver access output text steps) := by
  cases output with
  | none => exact (keeps_pure _).writesAtEnd none
  | some path =>
    intro d
    cases h : d.write path text with
    | error e =>
      refine .inl ?_
      rw [deliver, bind_apply (write_apply_of_error h)]
      rfl
    | ok d' =>
      have hrun : deliver access (some path) text steps d =
          (.success s!"Wrote {steps} steps to {path}\n", d') := by
        rw [deliver, bind_apply (write_apply h)]
        rfl
      rw [hrun]
      exact .inr ⟨rfl, path, text, rfl, h⟩

lemma writesAtEnd_runRules (s : Settings) (r : RunRequest) :
    WritesAtEnd r.output (runRules access s r) := by
  -- The run only reads until it delivers its output.
  unfold runRules
  split
  · exact (keeps_pure _).writesAtEnd _
  · refine (keeps_loadRules r.rules).bind_writesAtEnd fun a => ?_
    split
    · exact (keeps_pure _).writesAtEnd _
    · split
      · exact (keeps_pure _).writesAtEnd _
      · exact (keeps_pure _).writesAtEnd _
      · exact writesAtEnd_deliver _ _ _

lemma writesTo_runRules (s : Settings) (r : RunRequest) :
    WritesTo r.output (runRules access s r) :=
  (writesAtEnd_runRules s r).writesTo

/-! ## Settings -/

/-- Whether a session gets to its request, with a path of the settings file and settings. -/
def Prepares (given : Variables) (folder? : SettingsFolder) (d : Directory)
    (path : Option String) (s : Settings) : Prop :=
  ∃ vars stored, (loadVariables? access given d).1 = some vars ∧
    settingsPath? folder? vars = path ∧ (loadStored access path d).1 = .ok stored ∧
    vars.override stored = .ok s

section

variable {given : Variables} {folder? : SettingsFolder} {d : Directory}
  {path : Option String} {s : Settings}

/-- What comes before a request only reads. -/
lemma carryOut_eq (given : Variables) (folder? : SettingsFolder) (request : Request)
    (d : Directory) :
    carryOut access given folder? request d =
      match (loadVariables? access given d).1 with
      | none => (.broken, d)
      | some vars =>
        match (loadStored access (settingsPath? folder? vars) d).1 with
        | .error report => (.failed report, d)
        | .ok stored =>
          match vars.override stored with
          | .error report => (.failed report, d)
          | .ok s => perform access (settingsPath? folder? vars) s request d := by
  unfold carryOut
  rw [bind_apply ((keeps_loadVariables? given).apply_eq d)]
  cases (loadVariables? access given d).1 with
  | none => rfl
  | some vars =>
    dsimp only
    rw [bind_apply ((keeps_loadStored _).apply_eq d)]
    cases (loadStored access (settingsPath? folder? vars) d).1 with
    | error report => rfl
    | ok stored =>
      dsimp only
      cases vars.override stored with
      | error report => rfl
      | ok s => rfl

lemma carryOut_of_prepares (h : Prepares given folder? d path s) (request : Request) :
    carryOut access given folder? request d = perform access path s request d := by
  obtain ⟨vars, stored, hvars, rfl, hstored, hs⟩ := h
  simp only [carryOut_eq, hvars, hstored, hs]

/-- A session that does not get to its request ends in one way, whatever the request is. -/
lemma carryOut_of_not_prepares (h : ∀ path s, ¬ Prepares given folder? d path s) :
    ∃ r : Result, r.outcome.code ≠ 0 ∧ r.printed = "" ∧
      ∀ request, carryOut access given folder? request d = (r, d) := by
  simp only [carryOut_eq]
  -- There are three places at which a session can end before its request.
  cases hvars : (loadVariables? access given d).1 with
  | none => exact ⟨.broken, show 101 ≠ 0 by decide, rfl, fun _ => rfl⟩
  | some vars =>
    dsimp only
    cases hstored : (loadStored access (settingsPath? folder? vars) d).1 with
    | error report => exact ⟨.failed report, show 1 ≠ 0 by decide, rfl, fun _ => rfl⟩
    | ok stored =>
      dsimp only
      cases hs : vars.override stored with
      | error report => exact ⟨.failed report, show 1 ≠ 0 by decide, rfl, fun _ => rfl⟩
      | ok s => exact absurd ⟨vars, stored, hvars, rfl, hstored, hs⟩ (h _ s)

/-- A request is carried out in the directory as it was, or it fails before that. -/
lemma carryOut_cases (given : Variables) (folder? : SettingsFolder) (request : Request)
    (d : Directory) :
    (∃ r, carryOut access given folder? request d = (r, d) ∧ r.outcome.code ≠ 0) ∨
    ∃ vars s, (loadVariables? access given d).1 = some vars ∧
      carryOut access given folder? request d =
        perform access (settingsPath? folder? vars) s request d := by
  by_cases h : ∃ path s, Prepares given folder? d path s
  · obtain ⟨path, s, hprepares⟩ := h
    obtain ⟨vars, -, hvars, rfl, -⟩ := id hprepares
    exact .inr ⟨vars, s, hvars, carryOut_of_prepares hprepares request⟩
  · simp only [not_exists] at h
    obtain ⟨r, hcode, -, hr⟩ := carryOut_of_not_prepares h
    exact .inl ⟨r, hr request, hcode⟩

end

/-- A variable that names the settings file is the first to say where it is. -/
lemma settingsPath?_of_get? {folder? : SettingsFolder} {vars : Variables} {path : String}
    (h : vars.get? settingsFileVariable = some path) : settingsPath? folder? vars = some path := by
  rw [settingsPath?, h, Option.some_or]

end Session
end StripAutomata.Command
