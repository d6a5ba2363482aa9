import StripAutomata.Proofs.Command.Directory
import StripAutomata.Proofs.Command.Session
import StripAutomata.Proofs.Settings.RoundTrip

/-!
# The stored settings are the replay of the edits

The command line is used again and again in some directory, where other things may happen in between
(`History`).  What the settings file holds in the end is what it held at first, changed by the edits
of those uses that ended with code 0, in their order (`loadStored_eq_replay`).  Nothing else comes
into it: neither the variables of a use nor its variable file nor what a run is told.

The step is `Use.run_cases`.  A use that asks for an edit reads the stored settings for itself,
whatever its variables say about settings, changes them and stores them if they are valid;
otherwise, and in all other uses, the settings file is left alone.  That the next use finds what
this one has stored is the round trip of the settings through their text, for which their sizes must
have 64 bits; those that an edit brings in have no more (`Use.isSized_of_edit?`).
-/

namespace StripAutomata.Command

lemma isPlainName_settingsFile : Directory.IsPlainName settingsFile where
  names := by decide
  relative := by decide
  noSlash := by decide
  ne_point := by decide
  ne_points := by decide
  short := by decide
  ordinary := by decide

/-! ## Edits -/

/-- A change of the stored settings. -/
inductive Edit where
  | cells (n : Nat)
  | steps (n : Nat)
  | start (name : Option String)
  | reset
  deriving DecidableEq, Repr

namespace Edit

/-- The settings after an edit.  Only a reset changes more than one of them. -/
def apply : Edit → Settings → Settings
  | cells n, s => { s with cells := n }
  | steps n, s => { s with steps := n }
  | start name, s => { s with start := name }
  | reset, _ => .default

/-- The settings after edits, one after the other. -/
def applyAll (edits : List Edit) (s : Settings) : Settings := edits.foldl (fun s e => e.apply s) s

/-- The edit that a key and a value ask for, if the key is known and the value fits it. -/
def ofSetting? (key value : String) : Option Edit :=
  if key = "cells" then (Numeral.unsigned Numeral.sizeBound value.toList).toOption.map cells
  else if key = "steps" then (Numeral.unsigned Numeral.sizeBound value.toList).toOption.map steps
  else if key = "start-signal" ∨ key = "start" then
    some (start (if value = "" ∨ value = "none" then none else some value))
  else none

/-- The edit that a request asks for, if it asks for one. -/
def ofRequest? : Request → Option Edit
  | .changeSetting key value => ofSetting? key value
  | .resetSettings => some reset
  | _ => none

/-- Whether an edit brings in no size of more than 64 bits. -/
def IsSized : Edit → Prop
  | cells n | steps n => n < Numeral.sizeBound
  | _ => True

lemma isSized_of_ofSetting? {key value : String} {e : Edit} (h : ofSetting? key value = some e) :
    e.IsSized := by
  have hsize (make : Nat → Edit) (hmake : ∀ n < Numeral.sizeBound, (make n).IsSized)
      (h : (Numeral.unsigned Numeral.sizeBound value.toList).toOption.map make = some e) :
      e.IsSized := by
    cases hread : Numeral.unsigned Numeral.sizeBound value.toList with
    | error fault =>
      rw [hread] at h
      cases h
    | ok n =>
      rw [hread] at h
      cases h
      exact hmake n (Item.lt_of_unsigned_eq_ok (by decide) hread)
  unfold ofSetting? at h
  split_ifs at h
  · exact hsize cells (fun _ hn => hn) h
  · exact hsize steps (fun _ hn => hn) h
  · cases h
    exact trivial
  · cases h
    exact trivial

lemma isSized_of_ofRequest? {request : Request} {e : Edit} (h : ofRequest? request = some e) :
    e.IsSized := by
  cases request with
  | changeSetting key value => exact isSized_of_ofSetting? h
  | resetSettings =>
    cases h
    exact trivial
  | _ => cases h

lemma fits_apply {e : Edit} (he : e.IsSized) {s : Settings} (hs : s.Fits) : (e.apply s).Fits := by
  cases e with
  | cells n => exact ⟨he, hs.steps⟩
  | steps n => exact ⟨hs.cells, he⟩
  | start name => exact ⟨hs.cells, hs.steps⟩
  | reset => exact Settings.fits_default

end Edit

/-! ## Storing -/

namespace Session

open Directory

/-- How an edit ends: the new settings are stored if they are valid, or all stays as it is. -/
inductive Edited (d : Directory) (s : Settings) : Result × Directory → Prop
  | stored {d' : Directory} (printed : String) (hvalid : s.validate = .ok ())
    (hwrite : d.write settingsFile s.toJson.prettyText = .ok d') :
    Edited d s (Result.success printed, d')
  | refused {r : Result} (hcode : r.outcome.code ≠ 0) : Edited d s (r, d)

/-- What an edit has led to shows in the code: at code 0, the new settings are in the file. -/
lemma Edited.read_eq {d : Directory} {s : Settings} {r : Result × Directory} (h : Edited d s r) :
    (r.1.outcome.code = 0 ∧ s.validate = .ok () ∧
      r.2.read settingsFile = .ok s.toJson.prettyText) ∨
    (r.1.outcome.code ≠ 0 ∧ r.2.read settingsFile = d.read settingsFile) := by
  cases h with
  | stored printed hvalid hwrite =>
    exact .inl ⟨rfl, hvalid, isPlainName_settingsFile.read_of_write hwrite⟩
  | refused hcode => exact .inr ⟨hcode, rfl⟩

lemma store_eq (s : Settings) (d : Directory) :
    store access (some settingsFile) s d =
      match d.write settingsFile s.toJson.prettyText with
      | .ok d' => (.ok (), d')
      | .error e =>
        (.error ⟨s!"Failed to write config to {settingsFile}", [e.message]⟩, d) := by
  -- The settings file lies beside the command, so no folder is made for it.
  have hfolders : Path.folders settingsFile = [] := by decide
  have hmake : access.makeFolders [] d = (.ok (), d) := rfl
  simp only [store, hfolders]
  rw [bind_apply hmake]
  dsimp only
  cases h : d.write settingsFile s.toJson.prettyText with
  | error e =>
    rw [bind_apply (write_apply_of_error h)]
    rfl
  | ok d' =>
    rw [bind_apply (write_apply h)]
    rfl

/-- Settings are stored by a write to the settings file, or nothing changes. -/
lemma store_settingsFile (s : Settings) (d : Directory) :
    (∃ d', d.write settingsFile s.toJson.prettyText = .ok d' ∧
      store access (some settingsFile) s d = (.ok (), d')) ∨
    ∃ report, store access (some settingsFile) s d = (.error report, d) := by
  rw [store_eq]
  cases d.write settingsFile s.toJson.prettyText with
  | error e => exact .inr ⟨_, rfl⟩
  | ok d' => exact .inl ⟨d', rfl, rfl⟩

lemma edited_resetSettings (d : Directory) :
    Edited d .default (resetSettings access (some settingsFile) d) := by
  unfold resetSettings
  rcases store_settingsFile .default d with ⟨d', hwrite, hstore⟩ | ⟨report, hstore⟩
  · rw [bind_apply hstore]
    exact Edited.stored _ (by decide) hwrite
  · rw [bind_apply hstore]
    exact Edited.refused (show 1 ≠ 0 by decide)

/-- A key and a value are refused exactly if they ask for no edit. -/
lemma edit_cases (s : Settings) (key value : String) :
    (∃ e name, Edit.ofSetting? key value = some e ∧ edit s key value = .ok (e.apply s, name)) ∨
      Edit.ofSetting? key value = none ∧ ∃ report, edit s key value = .error report := by
  unfold edit Edit.ofSetting? sizeSetting
  split_ifs with hcells hsteps hstart
  · cases Numeral.unsigned Numeral.sizeBound value.toList with
    | error e => exact .inr ⟨rfl, _, rfl⟩
    | ok n => exact .inl ⟨.cells n, "cells", rfl, rfl⟩
  · cases Numeral.unsigned Numeral.sizeBound value.toList with
    | error e => exact .inr ⟨rfl, _, rfl⟩
    | ok n => exact .inl ⟨.steps n, "steps", rfl, rfl⟩
  · exact .inl ⟨.start _, "start-signal", rfl, rfl⟩
  · exact .inl ⟨.start _, "start-signal", rfl, rfl⟩
  · exact .inr ⟨rfl, _, rfl⟩

/-- A change starts from the stored settings, and is refused unless it ends in valid ones. -/
lemma edited_changeSetting {d : Directory} {s : Settings}
    (hstored : loadStored access (some settingsFile) d = (.ok s, d)) (key value : String) :
    (∃ e, Edit.ofSetting? key value = some e ∧
      Edited d (e.apply s) (changeSetting access (some settingsFile) key value d)) ∨
    Edit.ofSetting? key value = none ∧
      (changeSetting access (some settingsFile) key value d).2 = d := by
  unfold changeSetting
  rw [bind_apply hstored]
  dsimp only
  rcases edit_cases s key value with ⟨e, name, he, hok⟩ | ⟨hnone, report, herror⟩
  · refine .inl ⟨e, he, ?_⟩
    rw [hok]
    dsimp only
    -- The settings are looked at as a whole before they are stored.
    cases hvalid : (e.apply s).validate with
    | error fault => exact Edited.refused (show 1 ≠ 0 by decide)
    | ok =>
      dsimp only
      rcases store_settingsFile (e.apply s) d with ⟨d', hwrite, hstore⟩ | ⟨report, hstore⟩
      · rw [bind_apply hstore]
        exact Edited.stored _ hvalid hwrite
      · rw [bind_apply hstore]
        exact Edited.refused (show 1 ≠ 0 by decide)
  · refine .inr ⟨hnone, ?_⟩
    rw [herror]
    rfl

end Session

/-! ## Stored settings -/

/-- Whether settings are those that a directory has stored: what its settings file says, or the
defaults where there is no such file. -/
def Directory.Stores (d : Directory) (s : Settings) : Prop :=
  (d.read settingsFile = .error .missing ∧ s = .default) ∨
    ∃ text, d.read settingsFile = .ok text ∧ Settings.ofStored? text = some s

namespace Directory.Stores

variable {d d' : Directory} {s : Settings}

lemma loadStored_eq (h : d.Stores s) : loadStored access (some settingsFile) d = (.ok s, d) := by
  simp only [loadStored]
  rcases h with ⟨hread, rfl⟩ | ⟨text, hread, hs⟩
  · rw [bind_apply (read_apply hread)]
    rfl
  · rw [bind_apply (read_apply hread)]
    dsimp only
    rw [hs]
    rfl

lemma fits (h : d.Stores s) : s.Fits := by
  rcases h with ⟨-, rfl⟩ | ⟨text, -, hs⟩
  · exact Settings.fits_default
  · exact Settings.fits_of_ofStored? hs

lemma of_read_eq (h : d.Stores s) (hread : d'.read settingsFile = d.read settingsFile) :
    d'.Stores s := by
  rwa [Stores, hread]

lemma of_prettyText (hread : d.read settingsFile = .ok s.toJson.prettyText) (hs : s.Fits) :
    d.Stores s :=
  .inr ⟨_, hread, Settings.ofStored?_prettyText hs⟩

end Directory.Stores

/-! ## Uses -/

/-- One use of the command line: the variables given to it, its arguments, and which folder its user
has for settings. -/
structure Use where
  given : Variables
  arguments : List String
  folder? : SettingsFolder

namespace Use

open Directory Session

variable {u : Use} {d : Directory} {s : Settings}

/-- The outcome of a use in a directory, and the directory after it. -/
def run (u : Use) (d : Directory) : Outcome × Directory :=
  Session.run access u.given u.arguments u.folder? d

/-- The edit that a use asks for, if it asks for one. -/
def edit? (u : Use) : Option Edit := (Request.read u.arguments).toOption.bind Edit.ofRequest?

/-- Whether a use has its settings in the settings file, and no output there. -/
structure Fits (u : Use) (d : Directory) : Prop where
  settings : ∀ vars, (loadVariables? access u.given d).1 = some vars →
    vars.get? settingsFileVariable = some settingsFile
  output : ∀ r path, Request.read u.arguments = .ok (.run r) → r.output = some path →
    d.place? path ≠ some (d.home ++ [settingsFile])

lemma fits_of_given (hgiven : u.given.get? settingsFileVariable = some settingsFile)
    (houtput : ∀ r path, Request.read u.arguments = .ok (.run r) → r.output = some path →
      d.place? path ≠ some (d.home ++ [settingsFile])) : u.Fits d :=
  ⟨fun _ hvars => get?_of_loadVariables? hvars hgiven, houtput⟩

lemma fits_of_edit? (hgiven : u.given.get? settingsFileVariable = some settingsFile)
    (hedit : u.edit?.isSome = true) : u.Fits d := by
  refine fits_of_given hgiven fun r path hrequest => ?_
  rw [edit?, hrequest] at hedit
  cases hedit

lemma isSized_of_edit? {e : Edit} (h : u.edit? = some e) : e.IsSized := by
  obtain ⟨request, -, hrequest⟩ := Option.bind_eq_some_iff.1 h
  exact Edit.isSized_of_ofRequest? hrequest

/-- A request under any settings whatever: only an edit that is accepted shows in the file. -/
lemma perform_cases (hd : d.Stores s) (given : Settings) (request : Request)
    (houtput : ∀ r path, request = .run r → r.output = some path →
      d.place? path ≠ some (d.home ++ [settingsFile])) :
    let result := perform access (some settingsFile) given request d
    (∃ e, Edit.ofRequest? request = some e ∧ result.1.outcome.code = 0 ∧
      (e.apply s).validate = .ok () ∧
      result.2.read settingsFile = .ok (e.apply s).toJson.prettyText) ∨
    (Edit.ofRequest? request = none ∨ result.1.outcome.code ≠ 0) ∧
      result.2.read settingsFile = d.read settingsFile := by
  intro result
  have hkept (hnone : Edit.ofRequest? request = none) (h : result.2 = d) :
      (Edit.ofRequest? request = none ∨ result.1.outcome.code ≠ 0) ∧
        result.2.read settingsFile = d.read settingsFile :=
    ⟨.inl hnone, congrArg (·.read settingsFile) h⟩
  cases request with
  | run r =>
    rcases writesTo_runRules given r d with h | ⟨path, text, hpath, hwrite⟩
    · exact .inr (hkept rfl h)
    · -- The output of a run may be written, but it is not the settings file.
      have hne := houtput r path rfl hpath
      exact .inr ⟨.inl rfl, isPlainName_settingsFile.read_of_write_of_ne hwrite hne⟩
  | check rules => exact .inr (hkept rfl (keeps_describeRules summary rules d))
  | signals rules => exact .inr (hkept rfl (keeps_describeRules signalLines rules d))
  | showSettings => exact .inr (hkept rfl rfl)
  | changeSetting key value =>
    -- The edit starts from what is stored, and not from the settings that the request is under.
    rcases edited_changeSetting hd.loadStored_eq key value with ⟨e, he, hedited⟩ | ⟨hnone, h⟩
    · rcases hedited.read_eq with h | ⟨hcode, hread⟩
      · exact .inl ⟨e, he, h⟩
      · exact .inr ⟨.inr hcode, hread⟩
    · exact .inr (hkept hnone h)
  | resetSettings =>
    rcases (edited_resetSettings d).read_eq with h | ⟨hcode, hread⟩
    · exact .inl ⟨.reset, rfl, h⟩
    · exact .inr ⟨.inr hcode, hread⟩

/-- A use that asks for an edit and ends with code 0 has stored the settings after it, which are
valid; any other use leaves the settings file as it is. -/
lemma run_cases (hd : d.Stores s) (hu : u.Fits d) :
    (∃ e, u.edit? = some e ∧ (u.run d).1.code = 0 ∧ (e.apply s).validate = .ok () ∧
      (u.run d).2.read settingsFile = .ok (e.apply s).toJson.prettyText) ∨
    (u.edit? = none ∨ (u.run d).1.code ≠ 0) ∧
      (u.run d).2.read settingsFile = d.read settingsFile := by
  unfold run edit? Session.run
  cases hrequest : Request.read u.arguments with
  | error refusal =>
    refine .inr ⟨.inl rfl, ?_⟩
    cases refusal <;> rfl
  | ok request =>
    dsimp only
    rcases carryOut_cases u.given u.folder? request d with
      ⟨r, hr, hcode⟩ | ⟨vars, given, hvars, hcarry⟩
    · rw [bind_apply hr]
      exact .inr ⟨.inr hcode, rfl⟩
    · rw [settingsPath?_of_get? (hu.settings vars hvars)] at hcarry
      rw [bind_apply hcarry]
      exact perform_cases hd given request fun r path hr => hu.output r path (hr ▸ hrequest)

end Use

/-! ## Histories -/

/-- What happens in a directory over time: the command line is used, which the log says together
with the outcome, and meanwhile anything else may happen that leaves the settings file alone. -/
inductive History : Directory → List (Use × Outcome) → Directory → Prop
  | done (d : Directory) : History d [] d
  | use {d d' : Directory} {log : List (Use × Outcome)} (u : Use) (hu : u.Fits d)
    (rest : History (u.run d).2 log d') : History d ((u, (u.run d).1) :: log) d'
  | meanwhile {d d₁ d' : Directory} {log : List (Use × Outcome)}
    (h : d₁.read settingsFile = d.read settingsFile) (rest : History d₁ log d') : History d log d'

/-- The edits of a log that were accepted: those of the uses that ended with code 0. -/
def acceptedEdits (log : List (Use × Outcome)) : List Edit :=
  log.filterMap fun entry => if entry.2.code = 0 then entry.1.edit? else none

/-- **The stored settings are the replay of the accepted edits.** -/
theorem loadStored_eq_replay {d d' : Directory} {s : Settings} {log : List (Use × Outcome)}
    (hd : d.Stores s) (h : History d log d') :
    loadStored Directory.access (some settingsFile) d' =
        (.ok (Edit.applyAll (acceptedEdits log) s), d') ∧
      (acceptedEdits log = [] → d'.read settingsFile = d.read settingsFile) ∧
      (acceptedEdits log ≠ [] →
        (Edit.applyAll (acceptedEdits log) s).validate = .ok () ∧
        d'.read settingsFile = .ok (Edit.applyAll (acceptedEdits log) s).toJson.prettyText) := by
  -- The settings at the beginning are those of the directory in which the rest of the history
  -- begins.
  induction h generalizing s with
  | done d => exact ⟨hd.loadStored_eq, fun _ => rfl, fun h => absurd rfl h⟩
  | meanwhile hread rest ih =>
    obtain ⟨hload, hsame, hnew⟩ := ih (hd.of_read_eq hread)
    exact ⟨hload, fun hnone => (hsame hnone).trans hread, hnew⟩
  | @use d d' log u hu rest ih =>
    rcases u.run_cases hd hu with ⟨e, he, hcode, hvalid, hread⟩ | ⟨hnone, hread⟩
    · have haccepted : acceptedEdits ((u, (u.run d).1) :: log) = e :: acceptedEdits log := by
        simp [acceptedEdits, hcode, he]
      have hstores : (u.run d).2.Stores (e.apply s) :=
        .of_prettyText hread (Edit.fits_apply (Use.isSized_of_edit? he) hd.fits)
      obtain ⟨hload, hsame, hnew⟩ := ih hstores
      rw [haccepted]
      refine ⟨hload, fun h => absurd h (List.cons_ne_nil _ _), fun _ => ?_⟩
      -- What this edit has stored is in the file at the end unless a later edit is accepted.
      by_cases hlast : acceptedEdits log = []
      · rw [hlast]
        exact ⟨hvalid, (hsame hlast).trans hread⟩
      · exact hnew hlast
    · have haccepted : acceptedEdits ((u, (u.run d).1) :: log) = acceptedEdits log := by
        rcases hnone with h | h <;> simp [acceptedEdits, h]
      rw [haccepted]
      obtain ⟨hload, hsame, hnew⟩ := ih (hd.of_read_eq hread)
      exact ⟨hload, fun hnone => (hsame hnone).trans hread, hnew⟩

namespace History.Sample

/-- What the settings file says at first: no cells and no start signal. -/
def text : String := "\x7b \"cells\": 0, \"start_signal\": null \x7d"

def directory : Directory := .ofFiles [(settingsFile, text)]

/-- The variables name the settings file. -/
def naming : Variables := [(settingsFileVariable, settingsFile)]

/-- A use by someone without a folder for settings. -/
def use (given : Variables) (arguments : List String) : Use := ⟨given, arguments, fun _ => none⟩

/-- A use that stores no settings, since the cells that it is given are not stored ones. -/
def refused : Use := use (naming ++ [(cellsVariable, "5")]) ["config", "set", "steps", "7"]

def accepted : Use := use (naming ++ [(cellsVariable, "5")]) ["config", "set", "cells", "3"]

/-- A use under a variable file, which has appeared before it. -/
def last : Use := use naming ["config", "set", "start", "Go"]

/-- The directory before the last use. -/
def before : Directory :=
  (Directory.access.write Session.variableFile "SCA_STEPS=9\n"
    (accepted.run (refused.run directory).2).2).2

end History.Sample

section

open History.Sample

/-- Two edits are accepted after one was refused, and no variable is stored. -/
theorem loadStored_eq_replay_sample :
    ∃ log d', directory.Stores ⟨0, 40, none⟩ ∧ History directory log d' ∧
      log.map (·.1) = [refused, accepted, last] ∧
      acceptedEdits log = [.cells 3, .start (some "Go")] ∧
      loadStored Directory.access (some settingsFile) d' = (.ok ⟨3, 40, some "Go"⟩, d') := by
  have hstores : directory.Stores ⟨0, 40, none⟩ := .inr ⟨text, by decide +kernel, by decide +kernel⟩
  have hbefore : before.read settingsFile =
      (accepted.run (refused.run directory).2).2.read settingsFile := by decide +kernel
  have hlast : History before [(last, (last.run before).1)] (last.run before).2 :=
    .use last (Use.fits_of_edit? (by decide) (by decide +kernel)) (.done _)
  have hhistory := History.use refused (Use.fits_of_edit? (by decide) (by decide +kernel))
    (.use accepted (Use.fits_of_edit? (by decide) (by decide +kernel)) (.meanwhile hbefore hlast))
  have hedits : acceptedEdits [(refused, (refused.run directory).1),
      (accepted, (accepted.run (refused.run directory).2).1), (last, (last.run before).1)] =
        [.cells 3, .start (some "Go")] := by decide +kernel
  have hreplay := (loadStored_eq_replay hstores hhistory).1
  rw [hedits] at hreplay
  exact ⟨_, _, hstores, hhistory, rfl, hedits, hreplay⟩

end

end StripAutomata.Command
