import StripAutomata.Proofs.Command.Stored

/-!
# Settings are loaded first

A session loads its settings before it does what is asked, and it does so for every request.  There
are requests that have no use for them: to describe the rules of a file, and to reset the settings.
What such a request does is the same under all settings, but only where settings can be loaded
(`Use.Loads`); a settings file that cannot be read or is malformed, and a variable for a size that
is no number, stop it like any other request (`Use.run_loads_first`).  In particular, settings that
are damaged cannot be reset.
-/

namespace StripAutomata.Command

/-! ## Loading -/

/-- Whether the value of a variable is a size, if the variable is there. -/
def Variables.isSize (vars : Variables) (name : String) : Bool :=
  (vars.get? name).all Kind.size.accepts

lemma Variables.exists_size?_iff (vars : Variables) (name : String) :
    (∃ n, vars.size? name = .ok n) ↔ vars.isSize name = true := by
  unfold size? isSize
  cases vars.get? name with
  | none => exact ⟨fun _ => rfl, fun _ => ⟨none, rfl⟩⟩
  | some text =>
    dsimp only [Option.all, Kind.accepts]
    cases Numeral.unsigned Numeral.sizeBound text.toList with
    | ok n => exact ⟨fun _ => rfl, fun _ => ⟨some n, rfl⟩⟩
    | error e => simp [Except.isOk, Except.toBool]

/-- The variables for sizes must be sizes, and there is nothing else that can be wrong with
variables. -/
lemma Variables.exists_override_iff (vars : Variables) (stored : Settings) :
    (∃ s, vars.override stored = .ok s) ↔
      vars.isSize cellsVariable = true ∧ vars.isSize stepsVariable = true := by
  rw [← exists_size?_iff, ← exists_size?_iff, override]
  cases vars.size? cellsVariable with
  | error report => simp [bind, Except.bind]
  | ok cells =>
    cases vars.size? stepsVariable with
    | error report => simp [bind, Except.bind]
    | ok steps => exact ⟨fun _ => ⟨⟨cells, rfl⟩, ⟨steps, rfl⟩⟩, fun _ => ⟨_, rfl⟩⟩

namespace Session

open Directory

lemma loadStored_eq_ok_iff {d : Directory} {s : Settings} :
    (loadStored access (some settingsFile) d).1 = .ok s ↔ d.Stores s := by
  refine ⟨fun h => ?_, fun h => by rw [h.loadStored_eq]⟩
  unfold loadStored at h
  dsimp only at h
  rcases isPlainName_settingsFile.read_cases d with hread | hread | ⟨text, hread⟩
  · rw [bind_apply (read_apply hread)] at h
    cases h
  · rw [bind_apply (read_apply hread)] at h
    cases h
    exact .inl ⟨hread, rfl⟩
  · rw [bind_apply (read_apply hread)] at h
    refine .inr ⟨text, hread, ?_⟩
    dsimp only at h
    cases hstored : Settings.ofStored? text with
    | none =>
      rw [hstored] at h
      cases h
    | some stored =>
      rw [hstored] at h
      cases h
      rfl

end Session

/-! ## Requests without settings -/

/-- The file whose rules a request is to describe. -/
def Request.described? : Request → Option String
  | .check rules | .signals rules => some rules
  | .run _ | .showSettings | .changeSetting _ _ | .resetSettings => none

namespace Session

open Directory

/-- What comes of describing rules that were loaded from a path, or could not be. -/
def described (describe : Automaton → String) (path : String) : Except Failure Automaton → Result
  | .ok a => .success (describe a)
  | .error e => .failed (loadReport path e)

lemma describeRules_eq (describe : Automaton → String) (path : String) (d : Directory) :
    (describeRules access describe path d).1 =
      described describe path (Automaton.load (d.read path)) := by
  have hrules : (loadRules access path d).1 =
      (Automaton.load (d.read path)).mapError (loadReport path) := rfl
  unfold describeRules
  rw [bind_apply ((keeps_loadRules path).apply_eq d), hrules]
  cases Automaton.load (d.read path) <;> rfl

/-- A description of rules depends on nothing but the file of the rules. -/
lemma exists_perform_eq_described {request : Request} {path : String}
    (hrequest : request.described? = some path) :
    ∃ describe, ∀ (file : Option String) (s : Settings) (d : Directory),
      (perform access file s request d).1 =
        described describe path (Automaton.load (d.read path)) := by
  cases request with
  | check rules =>
    cases hrequest
    exact ⟨summary, fun _ _ d => describeRules_eq summary path d⟩
  | signals rules =>
    cases hrequest
    exact ⟨signalLines, fun _ _ d => describeRules_eq signalLines path d⟩
  | _ => cases hrequest

lemma code_described (describe : Automaton → String) (path : String)
    (loaded : Except Failure Automaton) :
    (described describe path loaded).outcome.code = 0 ↔ ∃ a, loaded = .ok a := by
  cases loaded with
  | ok a => exact ⟨fun _ => ⟨a, rfl⟩, fun _ => rfl⟩
  | error e => simp [described, Result.failed, Result.outcome]

/-- The defaults can be stored where there are settings already, or could be. -/
lemma exists_resetSettings {d : Directory} {s : Settings} (hd : d.Stores s)
    (hhome : d.home ≠ closedFolder) :
    ∃ d', d'.read settingsFile = .ok Settings.default.toJson.prettyText ∧
      resetSettings access (some settingsFile) d =
        (.success "Configuration reset to defaults\n", d') := by
  have hnone : d.hasFolder (d.home ++ [settingsFile]) = false := by
    -- A folder of that name could not have been read as a settings file.
    rw [← Bool.not_eq_true]
    intro hfolder
    have hread := isPlainName_settingsFile.read_eq d
    rw [if_pos hfolder] at hread
    rcases hd with ⟨hmissing, -⟩ | ⟨text, htext, -⟩
    · exact nomatch hread.symm.trans hmissing
    · exact nomatch hread.symm.trans htext
  obtain ⟨d', hwrite⟩ :=
    isPlainName_settingsFile.exists_write hnone hhome Settings.default.toJson.prettyText
  have hstore : store access (some settingsFile) .default d = (.ok (), d') := by
    rw [store_eq, hwrite]
  refine ⟨d', isPlainName_settingsFile.read_of_write hwrite, ?_⟩
  rw [resetSettings, bind_apply hstore]
  rfl

end Session

/-! ## Uses -/

namespace Use

open Directory Session

/-- Whether a use gets settings: its settings file is missing or well-formed, its variable file is
possible, and the variables for sizes are sizes. -/
structure Loads (u : Use) (d : Directory) : Prop where
  stored : ∃ s, d.Stores s
  sizes : ∃ vars, (loadVariables? access u.given d).1 = some vars ∧
    vars.isSize cellsVariable = true ∧ vars.isSize stepsVariable = true

section

variable {u v : Use} {d e : Directory} {request : Request}

lemma loads_iff : u.Loads d ↔ (loadStored access (some settingsFile) d).1.isOk = true ∧
    (loadVariables? access u.given d).1.any (fun vars =>
      vars.isSize cellsVariable && vars.isSize stepsVariable) = true := by
  rw [Option.any_eq_true]
  simp only [Bool.and_eq_true]
  constructor
  · rintro ⟨⟨s, hs⟩, hsizes⟩
    refine ⟨?_, hsizes⟩
    rw [loadStored_eq_ok_iff.2 hs]
    rfl
  · rintro ⟨hok, hsizes⟩
    -- That settings are loaded can be decided, and the ones that are loaded are those that are
    -- stored.
    cases hstored : (loadStored access (some settingsFile) d).1 with
    | error report =>
      rw [hstored] at hok
      cases hok
    | ok s => exact ⟨⟨s, loadStored_eq_ok_iff.1 hstored⟩, hsizes⟩

instance : Decidable (u.Loads d) := decidable_of_iff' _ loads_iff

lemma loads_iff_prepares (hgiven : u.given.get? settingsFileVariable = some settingsFile) :
    u.Loads d ↔ ∃ s, Prepares u.given u.folder? d (some settingsFile) s := by
  constructor
  · rintro ⟨⟨stored, hstored⟩, vars, hvars, hsizes⟩
    obtain ⟨s, hs⟩ := (vars.exists_override_iff stored).2 hsizes
    exact ⟨s, vars, stored, hvars, settingsPath?_of_get? (get?_of_loadVariables? hvars hgiven),
      loadStored_eq_ok_iff.2 hstored, hs⟩
  · rintro ⟨s, vars, stored, hvars, -, hstored, hs⟩
    exact ⟨⟨stored, loadStored_eq_ok_iff.1 hstored⟩, vars, hvars,
      (vars.exists_override_iff stored).1 ⟨s, hs⟩⟩

lemma run_of_request (hrequest : Request.read u.arguments = .ok request) {r : Result × Directory}
    (h : carryOut access u.given u.folder? request d = r) : u.run d = (r.1.outcome, r.2) := by
  rw [run, Session.run, hrequest]
  exact bind_apply h _

lemma exists_run_of_loads (hgiven : u.given.get? settingsFileVariable = some settingsFile)
    (hrequest : Request.read u.arguments = .ok request) (h : u.Loads d) :
    ∃ s, u.run d = ((perform access (some settingsFile) s request d).1.outcome,
      (perform access (some settingsFile) s request d).2) := by
  obtain ⟨s, hprepares⟩ := (loads_iff_prepares hgiven).1 h
  exact ⟨s, run_of_request hrequest (carryOut_of_prepares hprepares request)⟩

/-- A use that gets no settings fails before it looks at what is asked. -/
lemma run_of_not_loads (hgiven : u.given.get? settingsFileVariable = some settingsFile)
    (hrequest : Request.read u.arguments = .ok request) (h : ¬ u.Loads d) :
    (u.run d).1.code ≠ 0 ∧ (u.run d).1.stdout = "" ∧ (u.run d).2 = d := by
  have hprepares : ∀ path s, ¬ Prepares u.given u.folder? d path s := by
    intro path s hprepares
    obtain ⟨vars, -, hvars, hpath, -⟩ := id hprepares
    rw [settingsPath?_of_get? (get?_of_loadVariables? hvars hgiven)] at hpath
    subst hpath
    exact h ((loads_iff_prepares hgiven).2 ⟨s, hprepares⟩)
  obtain ⟨r, hcode, hprinted, hr⟩ := carryOut_of_not_prepares hprepares
  rw [run_of_request hrequest (hr request)]
  refine ⟨hcode, ?_, rfl⟩
  rw [← hprinted]
  cases r with
  | mk printed ending => cases ending <;> rfl

end

/-- **Settings are loaded first, and then they need not matter.**  Take uses whose variables name
the settings file.  One that gets no settings fails, prints nothing and changes nothing, whatever is
asked.  One that gets settings and is to describe the rules of a file ends well exactly if they can
be loaded, with the same outcome under all settings.  One that gets settings and is to reset them
ends well, and then the defaults are stored. -/
theorem run_loads_first (u : Use) (d : Directory) {request : Request}
    (hgiven : u.given.get? settingsFileVariable = some settingsFile)
    (hrequest : Request.read u.arguments = .ok request) :
    (¬ u.Loads d → (u.run d).1.code ≠ 0 ∧ (u.run d).1.stdout = "" ∧ (u.run d).2 = d) ∧
    (u.Loads d →
      (∀ path, request.described? = some path →
        ((u.run d).1.code = 0 ↔ ∃ a, Automaton.load (d.read path) = .ok a) ∧
        ∀ (v : Use) (e : Directory), v.given.get? settingsFileVariable = some settingsFile →
          v.arguments = u.arguments → e.read path = d.read path → v.Loads e →
          (u.run d).1 = (v.run e).1) ∧
      (request = .resetSettings → d.home ≠ closedFolder →
        (u.run d).1 = ⟨0, "Configuration reset to defaults\n", ""⟩ ∧
        (u.run d).2.read settingsFile = .ok Settings.default.toJson.prettyText ∧
        loadStored access (some settingsFile) (u.run d).2 = (.ok .default, (u.run d).2))) := by
  refine ⟨run_of_not_loads hgiven hrequest, fun hloads => ?_⟩
  obtain ⟨s, hrun⟩ := exists_run_of_loads hgiven hrequest hloads
  rw [hrun]
  refine ⟨fun path hpath => ?_, fun hreset hhome => ?_⟩
  · -- Two uses describe the same file, each of them under settings of its own.
    obtain ⟨describe, hdescribe⟩ := exists_perform_eq_described hpath
    rw [hdescribe]
    refine ⟨code_described describe path _, fun v e hgiven' harguments hread hloads' => ?_⟩
    obtain ⟨s', hrun'⟩ := exists_run_of_loads hgiven' (harguments ▸ hrequest) hloads'
    rw [hrun', hdescribe, hread]
  · obtain ⟨stored, hstored⟩ := hloads.stored
    obtain ⟨d', hread, hd'⟩ := exists_resetSettings hstored hhome
    subst hreset
    rw [perform, hd']
    exact ⟨rfl, hread, (Stores.of_prettyText hread Settings.fits_default).loadStored_eq⟩

namespace Sample

/-- A directory with a file of rules, and perhaps a settings file. -/
def directory (settings : List (String × String)) : Directory :=
  .ofFiles (("rules.sca", "A: B\n") :: settings)

/-- There is no settings file. -/
def bare : Directory := directory []

/-- The settings file is unfinished. -/
def damaged : Directory := directory [(settingsFile, "\x7b")]

/-- The settings file describes no run, but it is well-formed. -/
def odd : Directory := directory [(settingsFile, "\x7b \"cells\": 0 \x7d")]

/-- A use under variables besides the one that names the settings file. -/
def use (vars : Variables) (arguments : List String) : Use :=
  ⟨(settingsFileVariable, settingsFile) :: vars, arguments, fun _ => none⟩

end Sample

section

open Sample

/-- Settings that describe no run do not show in a description of rules, and they can be reset; an
unfinished settings file is in the way even of showing it. -/
theorem run_loads_first_sample :
    let checking := use [(cellsVariable, "3")] ["check", "rules.sca"]
    let checking' := use [(startVariable, " ")] ["check", "rules.sca"]
    let resetting := use [(stepsVariable, "+05")] ["config", "reset"]
    let showing := use [] ["config", "show"]
    (checking.Loads bare ∧ checking'.Loads odd ∧ (checking.run bare).1 = (checking'.run odd).1) ∧
    (resetting.Loads odd ∧
      (resetting.run odd).1 = ⟨0, "Configuration reset to defaults\n", ""⟩) ∧
    ¬ showing.Loads damaged ∧ (showing.run damaged).2 = damaged := by
  intro checking checking' resetting showing
  have hbare : checking.Loads bare := by decide +kernel
  have hodd : checking'.Loads odd := by decide +kernel
  have hreset : resetting.Loads odd := by decide +kernel
  have hdamaged : ¬ showing.Loads damaged := by decide +kernel
  have hcheckRequest : Request.read checking.arguments = .ok (.check "rules.sca") := by
    decide +kernel
  have hresetRequest : Request.read resetting.arguments = .ok .resetSettings := by decide +kernel
  have hshowRequest : Request.read showing.arguments = .ok .showSettings := by decide +kernel
  have hrules : odd.read "rules.sca" = bare.read "rules.sca" := by decide +kernel
  have hhome : odd.home ≠ closedFolder := by decide
  refine ⟨⟨hbare, hodd, ?_⟩, ⟨hreset, ?_⟩, hdamaged, ?_⟩
  · exact (((run_loads_first checking bare rfl hcheckRequest).2 hbare).1 "rules.sca" rfl).2
      checking' odd rfl rfl hrules hodd
  · exact (((run_loads_first resetting odd rfl hresetRequest).2 hreset).2 rfl hhome).1
  · exact ((run_loads_first showing damaged rfl hshowRequest).1 hdamaged).2.2

/-- **Settings that a use has no need for can stop it.**  With the same file of rules, its
description fails if the settings file is unfinished or a variable for a size is no number, and so
does a reset, which leaves an unfinished settings file as it is. -/
theorem exists_run_disturbed :
    (∀ name ∈ ["check", "signals"],
      ((use [] [name, "rules.sca"]).run bare).1.code = 0 ∧
      ((use [] [name, "rules.sca"]).run damaged).1.code = 1 ∧
      ((use [(cellsVariable, "many")] [name, "rules.sca"]).run bare).1.code = 1 ∧
      ((use [(stepsVariable, "")] [name, "rules.sca"]).run bare).1.code = 1) ∧
    ((use [] ["config", "reset"]).run damaged).1.code = 1 ∧
    ((use [] ["config", "reset"]).run damaged).2 = damaged ∧
    ((use [(cellsVariable, "many")] ["config", "reset"]).run bare).1.code = 1 := by
  decide +kernel

end

end Use
end StripAutomata.Command
