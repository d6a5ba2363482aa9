import StripAutomata.Proofs.Command.Loading
import StripAutomata.Proofs.Command.RunLine
import StripAutomata.Proofs.Decoding

/-!
# Each setting comes from the first layer that has it

A run is told its settings in many places, and a session overwrites those of a later layer by those
of an earlier one, for all settings at once.  Here each setting is found for itself, by a search
through the layers (`Layer.resolve`): what the arguments say, the variables given, the assignments
of the nearest variable file, the members of the settings file, and the defaults behind all of them.
That both come to the same (`Use.override_eq_resolve`) is seen layer by layer, since to search
behind one more layer is to overwrite what was found by what this layer has (`Layer.resolve_cons`).

A layer may say that there is no start signal, which is not the same as to say nothing about it:
this is why the start signal of a layer has two options around it.

What a use does is what becomes of the answer of its automaton to a run under the settings found
(`concluded`).  So it depends on its rules, its format and these settings, and no more on the layers
that they were found in (`Use.run_resolves_layers`).
-/

namespace StripAutomata.Command

/-! ## Layers -/

/-- What is said about each of the settings in one place. -/
structure Layer where
  cells : Option Nat
  steps : Option Nat
  start : Option (Option String)
  deriving DecidableEq, Repr

namespace Layer

/-- Nothing is said. -/
def silent : Layer := ⟨none, none, none⟩

/-- The settings under a layer, which keeps those of them about which it says nothing. -/
def laidOver (l : Layer) (s : Settings) : Settings :=
  ⟨l.cells.getD s.cells, l.steps.getD s.steps, l.start.getD s.start⟩

/-- Each of the settings as the first of the layers has it that says something about it, or else
the default. -/
def resolve (layers : List Layer) : Settings where
  cells := (layers.findSome? (·.cells)).getD Settings.default.cells
  steps := (layers.findSome? (·.steps)).getD Settings.default.steps
  start := (layers.findSome? (·.start)).getD Settings.default.start

lemma resolve_nil : resolve [] = .default := rfl

lemma resolve_cons (l : Layer) (layers : List Layer) :
    resolve (l :: layers) = l.laidOver (resolve layers) := by
  obtain ⟨cells, steps, start⟩ := l
  simp only [resolve, laidOver, List.findSome?_cons]
  cases cells <;> cases steps <;> cases start <;> rfl

/-- What is said to a run by its arguments. -/
def ofItems (items : List RunItem) : Layer where
  cells := (items.findSome? RunItem.cells?).bind sizeOf?
  steps := (items.findSome? RunItem.steps?).bind sizeOf?
  start := if .noStart ∈ items then some none else (items.findSome? RunItem.start?).map some

/-- What variables say.  An empty variable for the start signal says that there is none, and one for
a size that is no size says nothing: where it would count, a session ends before its request. -/
def ofVariables (vars : Variables) : Layer where
  cells := (vars.get? cellsVariable).bind sizeOf?
  steps := (vars.get? stepsVariable).bind sizeOf?
  start := (vars.get? startVariable).map fun name => if name = "" then none else some name

/-- The value of a key among the members of an object. -/
def valueOf? (members : List (Option String × Json)) (key : String) : Option Json :=
  (members.find? (·.1 == some key)).map (·.2)

/-- What the text of a settings file says.  A `null` for the start signal says that there is
none. -/
def ofText (text : String) : Layer :=
  match Json.parse? text with
  | some (.object members) => {
      cells := (valueOf? members "cells").bind Json.size?
      steps := (valueOf? members "steps").bind Json.size?
      start := (valueOf? members "start_signal").bind (Json.orNull? Json.text?) }
  | _ => silent

end Layer

/-! ## What layers make of settings -/

lemma Variables.size?_eq_ok_iff {vars : Variables} {name : String} {found : Option Nat} :
    vars.size? name = .ok found ↔ (vars.get? name).map sizeOf? = found.map some := by
  unfold size?
  cases vars.get? name with
  | none => cases found <;> simp
  | some text =>
    dsimp only [Option.map_some, sizeOf?]
    cases Numeral.unsigned Numeral.sizeBound text.toList <;> cases found <;> simp [Except.toOption]

namespace Layer

lemma getD_size {first second : Option String} {found : Option Nat}
    (h : (first.or second).map sizeOf? = found.map some) (n : Nat) :
    found.getD n = (first.bind sizeOf?).getD ((second.bind sizeOf?).getD n) := by
  have hcounts (text : String) (htext : (some text).map sizeOf? = found.map some) :
      ∃ m, sizeOf? text = some m ∧ found = some m := by
    obtain ⟨m, hm, hsize⟩ := Option.map_eq_some_iff.1 htext.symm
    exact ⟨m, hsize.symm, hm⟩
  -- Only the variable that counts has to be a size.
  cases first with
  | some text =>
    obtain ⟨m, hm, rfl⟩ := hcounts text h
    rw [Option.bind_some, hm]
    rfl
  | none =>
    cases second with
    | some text =>
      obtain ⟨m, hm, rfl⟩ := hcounts text h
      rw [Option.bind_some, hm]
      rfl
    | none =>
      obtain rfl := Option.map_eq_none_iff.1 h.symm
      rfl

/-- Variables that are put together from two parts are two layers. -/
lemma laidOver_ofVariables {vars first second : Variables}
    (hget : ∀ name, vars.get? name = (first.get? name).or (second.get? name))
    {s overridden : Settings} (h : vars.override s = .ok overridden) :
    overridden = (ofVariables first).laidOver ((ofVariables second).laidOver s) := by
  unfold Variables.override at h
  cases hcells : vars.size? cellsVariable with
  | error report =>
    rw [hcells] at h
    cases h
  | ok cells =>
    cases hsteps : vars.size? stepsVariable with
    | error report =>
      rw [hcells, hsteps] at h
      cases h
    | ok steps =>
      rw [hcells, hsteps] at h
      cases h
      rw [Variables.size?_eq_ok_iff, hget] at hcells hsteps
      rw [getD_size hcells, getD_size hsteps, hget, Option.map_or, Option.getD_or]
      rfl

lemma getD_of_member? {α : Type} {value? : Json → Option α} {members : List (Option String × Json)}
    {key : String} {missing found : α} {v : Option Json} (hv : Json.member? members key = some v)
    (h : Json.orElse? missing value? v = some found) :
    found = ((valueOf? members key).bind value?).getD missing := by
  -- A key that stands twice has no answer, so the first value of the key is the only one.
  have hvalue : valueOf? members key = v := by
    rw [valueOf?, ← List.head?_filter]
    unfold Json.member? at hv
    split at hv
    next hnone =>
      obtain rfl := Option.some.inj hv
      rw [hnone]
      rfl
    next m hone =>
      obtain rfl := Option.some.inj hv
      rw [hone]
      rfl
    next => cases hv
  rw [hvalue]
  cases v with
  | none => exact (Option.some.inj h).symm
  | some v =>
    change value? v = some found at h
    rw [Option.bind_some, h]
    rfl

/-- Stored settings are what their text says over the defaults. -/
lemma laidOver_of_ofStored? {text : String} {s : Settings} (h : Settings.ofStored? text = some s) :
    s = (ofText text).laidOver .default := by
  unfold Settings.ofStored? at h
  simp only [Option.bind_eq_bind, Option.bind_eq_some_iff] at h
  obtain ⟨v, hparse, hv⟩ := h
  split at hv
  next members =>
    obtain ⟨-, hread⟩ := Option.ite_none_right_eq_some.1 hv
    unfold Settings.ofJson? at hread
    simp only [Option.bind_eq_bind, Option.bind_eq_some_iff] at hread
    obtain ⟨values, hvalues, hread⟩ := hread
    split at hread
    next cells steps start =>
      obtain ⟨-, hmembers⟩ := Option.ite_none_right_eq_some.1 hvalues
      have hfound := Decoding.mapM_eq_some_iff.1 hmembers
      simp only [Settings.keys, List.forall₂_cons, List.Forall₂.nil, and_true] at hfound
      -- Each of the three keys is read for itself.
      obtain ⟨hcells, hsteps, hstart⟩ := hfound
      simp only [Option.bind_eq_some_iff] at hread
      obtain ⟨c, hc, t, ht, i, hi, hs⟩ := hread
      obtain rfl := Option.some.inj hs
      rw [ofText, hparse, getD_of_member? hcells hc, getD_of_member? hsteps ht,
        getD_of_member? hstart hi]
      rfl
    next => cases hread
  next => cases hv

end Layer

/-! ## What a session finds in its files -/

namespace Session

open Directory

variable {d : Directory}

/-- What the settings file at a path says; a file that is missing says nothing. -/
def storedLayer (path : Option String) (d : Directory) : Layer :=
  ((path.bind fun path => (d.read path).toOption).map Layer.ofText).getD .silent

lemma laidOver_of_loadStored {path : Option String} {s : Settings}
    (h : (loadStored access path d).1 = .ok s) : s = (storedLayer path d).laidOver .default := by
  unfold loadStored at h
  unfold storedLayer
  cases path with
  | none =>
    obtain rfl := Except.ok.inj h
    rfl
  | some path =>
    rw [Option.bind_some]
    cases hread : d.read path with
    | ok text =>
      dsimp only at h
      rw [bind_apply (read_apply hread)] at h
      dsimp only at h
      cases hstored : Settings.ofStored? text with
      | none =>
        rw [hstored] at h
        cases h
      | some stored =>
        rw [hstored] at h
        obtain rfl := Except.ok.inj h
        exact Layer.laidOver_of_ofStored? hstored
    | error e =>
      dsimp only at h
      rw [bind_apply (read_apply hread)] at h
      -- A fault is one of those that count as a missing file, or there are no settings.
      cases e <;> cases h <;> rfl

end Session

/-! ## What comes of the answer of an automaton -/

section

open Directory Session

variable {d e : Directory} {rules : String} {output : Option String} {format : Format}

/-- How a use ends after an automaton has answered to a run, and the directory after it.  There may
have been no room for the run, or the settings were refused; a diagram is shown or goes to a file,
if its format has room for it. -/
def concluded (rules : String) (output : Option String) (format : Format) (d : Directory) :
    Option (Automaton × Except Failure Diagram) → Outcome × Directory
  | none => (⟨101, "", ""⟩, d)
  | some (_, .error e) => (⟨1, "", Report.text ⟨s!"Failed to simulate {rules}", [e.message]⟩⟩, d)
  | some (a, .ok diagram) =>
    match format.render? a.lexicon diagram with
    | none => (⟨101, "", ""⟩, d)
    | some text =>
      match output with
      | none => (⟨0, text, ""⟩, d)
      | some path =>
        match d.write path text with
        | .ok d' => (⟨0, s!"Wrote {diagram.size} steps to {path}\n", ""⟩, d')
        | .error e =>
          (⟨1, "", Report.text ⟨s!"Failed to write diagram to {path}", [e.message]⟩⟩, d)

lemma deliver_to_file (path text : String) (steps : Nat) (d : Directory) :
    deliver access (some path) text steps d =
      match d.write path text with
      | .ok d' => (.success s!"Wrote {steps} steps to {path}\n", d')
      | .error e => (.failed ⟨s!"Failed to write diagram to {path}", [e.message]⟩, d) := by
  unfold deliver
  cases hwrite : d.write path text with
  | error e => exact bind_apply (write_apply_of_error hwrite) _
  | ok d' => exact bind_apply (write_apply hwrite) _

lemma runRules_eq_concluded {r : RunRequest} {a : Automaton}
    (hformat : Format.ofName? r.format = .ok format)
    (hrules : Automaton.load (d.read r.rules) = .ok a) (s : Settings) :
    ((runRules access s r d).1.outcome, (runRules access s r d).2) =
      concluded r.rules r.output format d (a.run? (r.override s)) := by
  have hload : (loadRules access r.rules d).1 = .ok a := by
    show (Automaton.load (d.read r.rules)).mapError (loadReport r.rules) = .ok a
    rw [hrules]
    rfl
  unfold runRules
  rw [hformat]
  dsimp only
  rw [bind_apply ((keeps_loadRules r.rules).apply_eq d), hload]
  dsimp only [simulate?]
  -- The cases are those of the answer: no room, refused settings, and a diagram.
  rcases a.run? (r.override s) with _ | ⟨a', refusal | diagram⟩
  · rfl
  · rfl
  · dsimp only [bind, Option.bind, concluded]
    cases format.render? a'.lexicon diagram with
    | none => rfl
    | some text =>
      cases houtput : r.output with
      | none => rfl
      | some path =>
        show ((deliver access (some path) text diagram.size d).1.outcome,
          (deliver access (some path) text diagram.size d).2) = _
        rw [deliver_to_file]
        dsimp only
        cases d.write path text <;> rfl

/-- The answer of an automaton comes to the same where the output can be written alike, and there it
is the same text that is written. -/
lemma concluded_congr (answer : Option (Automaton × Except Failure Diagram))
    (h : ∀ path, output = some path → ∀ text,
      (access.write path text d).1 = (access.write path text e).1) :
    (concluded rules output format d answer).1 = (concluded rules output format e answer).1 ∧
    ∀ path, output = some path → (concluded rules output format d answer).1.code = 0 →
      ∃ text, d.write path text = .ok (concluded rules output format d answer).2 ∧
        e.write path text = .ok (concluded rules output format e answer).2 := by
  rcases answer with _ | ⟨a, refusal | diagram⟩
  · exact ⟨rfl, fun _ _ hcode => nomatch hcode⟩
  · exact ⟨rfl, fun _ _ hcode => nomatch hcode⟩
  · dsimp only [concluded]
    cases format.render? a.lexicon diagram with
    | none => exact ⟨rfl, fun _ _ hcode => nomatch hcode⟩
    | some text =>
      cases output with
      | none => exact ⟨rfl, nofun⟩
      | some path =>
        have hwritten := h path rfl text
        dsimp only
        -- Either both directories take the text, or they refuse it for the same reason.
        cases hd : d.write path text with
        | error fault =>
          rw [write_apply_of_error hd] at hwritten
          cases he : e.write path text with
          | error fault' =>
            rw [write_apply_of_error he] at hwritten
            obtain rfl := Except.error.inj hwritten
            exact ⟨rfl, fun _ _ hcode => nomatch hcode⟩
          | ok e' =>
            rw [write_apply he] at hwritten
            cases hwritten
        | ok d' =>
          rw [write_apply hd] at hwritten
          cases he : e.write path text with
          | error fault' =>
            rw [write_apply_of_error he] at hwritten
            cases hwritten
          | ok e' =>
            refine ⟨rfl, fun q hq _ => ⟨text, ?_⟩⟩
            obtain rfl := Option.some.inj hq
            exact ⟨hd, he⟩

end

/-! ## Runs -/

namespace Use

open Directory Session

variable {u v : Use} {d e : Directory} {items said : List RunItem} {a : Automaton} {format : Format}

/-- The layers that the settings of a run come from, with the defaults behind them.  The settings
file is named by a variable, or else it is in the folder that the user has for settings. -/
def layers (u : Use) (d : Directory) (items : List RunItem) : List Layer :=
  let added := assigned u.given d
  let value? (name : String) : Option String := (u.given.get? name).or (added.get? name)
  let path := (value? settingsFileVariable).or
    ((u.folder? value?).map fun folder => Path.inFolder folder settingsFile)
  [.ofItems items, .ofVariables u.given, .ofVariables added, storedLayer path d]

/-- Whether a use comes to simulate an automaton: its arguments are those of a run to which things
are said, it gets settings, there is such a format, and the automaton is that of the rules. -/
structure Simulates (u : Use) (d : Directory) (items : List RunItem) (a : Automaton)
    (format : Format) : Prop where
  arguments : RunLine u.arguments items
  settings : ∃ path s, Prepares u.given u.folder? d path s
  format : Format.ofName? (RunRequest.ofItems items).format = .ok format
  rules : Automaton.load (d.read (RunRequest.ofItems items).rules) = .ok a

/-- To overwrite layer by layer is to search for each of the settings. -/
lemma override_eq_resolve {path : Option String} {s : Settings}
    (h : Prepares u.given u.folder? d path s) (items : List RunItem) :
    (RunRequest.ofItems items).override s = Layer.resolve (u.layers d items) := by
  obtain ⟨vars, stored, hvars, rfl, hstored, hs⟩ := h
  have hget := get?_eq_of_loadVariables? hvars
  rw [Layer.laidOver_ofVariables hget hs, laidOver_of_loadStored hstored, settingsPath?, hget,
    funext hget]
  simp only [layers, Layer.resolve_cons, Layer.resolve_nil]
  rfl

lemma Simulates.run_eq (h : u.Simulates d items a format) :
    u.run d = concluded (RunRequest.ofItems items).rules (RunRequest.ofItems items).output format d
      (a.run? (Layer.resolve (u.layers d items))) := by
  obtain ⟨path, s, hprepares⟩ := h.settings
  have hrequest := Request.read_eq_run_iff.2 ⟨items, h.arguments, rfl⟩
  rw [run_of_request hrequest (carryOut_of_prepares hprepares (.run _)), perform,
    runRules_eq_concluded h.format h.rules, override_eq_resolve hprepares]

/-- A use with the arguments of a run comes to simulate an automaton, or it fails before that and
changes nothing. -/
theorem simulates_or_fails (h : RunLine u.arguments items) (d : Directory) :
    (∃ a format, u.Simulates d items a format) ∨
      (u.run d).1.code ≠ 0 ∧ (u.run d).1.stdout = "" ∧ (u.run d).2 = d := by
  have hrequest := Request.read_eq_run_iff.2 ⟨items, h, rfl⟩
  -- There are three ways to fail: there are no settings, no such format, or no rules.
  by_cases hsettings : ∃ path s, Prepares u.given u.folder? d path s
  · obtain ⟨path, s, hprepares⟩ := id hsettings
    rw [run_of_request hrequest (carryOut_of_prepares hprepares (.run _)), perform, runRules]
    cases hformat : Format.ofName? (RunRequest.ofItems items).format with
    | error report => exact .inr ⟨Nat.one_ne_zero, rfl, rfl⟩
    | ok format =>
      dsimp only
      have hload : loadRules access (RunRequest.ofItems items).rules d =
          ((Automaton.load (d.read (RunRequest.ofItems items).rules)).mapError
            (loadReport (RunRequest.ofItems items).rules), d) := rfl
      rw [bind_apply hload]
      cases hrules : Automaton.load (d.read (RunRequest.ofItems items).rules) with
      | error e => exact .inr ⟨Nat.one_ne_zero, rfl, rfl⟩
      | ok a => exact .inl ⟨a, format, h, hsettings, hformat, hrules⟩
  · simp only [not_exists] at hsettings
    obtain ⟨r, hcode, hprinted, hr⟩ := carryOut_of_not_prepares hsettings
    rw [run_of_request hrequest (hr _)]
    refine .inr ⟨hcode, ?_, rfl⟩
    rw [← hprinted]
    rcases r with ⟨printed, _ | _ | _⟩ <;> rfl

/-- **Each setting of a run comes from the first layer that has it.**  A use that comes to simulate
an automaton runs it under settings each of which is found for itself: among what the arguments
say, among the variables given, in the nearest variable file, in the settings file, or else it is
the default.  So uses with the same rules in one format end with the same code and print the same,
if the same settings are found, wherever they are; and if their output goes to a file that can be
written alike, they write the same text. -/
theorem run_resolves_layers (h : u.Simulates d items a format) :
    u.run d = concluded (RunRequest.ofItems items).rules (RunRequest.ofItems items).output format d
      (a.run? (Layer.resolve (u.layers d items))) ∧
    ∀ v e said, Simulates v e said a format →
      (RunRequest.ofItems said).rules = (RunRequest.ofItems items).rules →
      (RunRequest.ofItems said).output = (RunRequest.ofItems items).output →
      (∀ path, (RunRequest.ofItems items).output = some path → ∀ text,
        (access.write path text d).1 = (access.write path text e).1) →
      Layer.resolve (v.layers e said) = Layer.resolve (u.layers d items) →
      (u.run d).1 = (v.run e).1 ∧
      ∀ path, (RunRequest.ofItems items).output = some path → (u.run d).1.code = 0 →
        ∃ text, d.write path text = .ok (u.run d).2 ∧ e.write path text = .ok (v.run e).2 := by
  refine ⟨h.run_eq, fun v e said h' hrules houtput hwrites hresolved => ?_⟩
  rw [h.run_eq, h'.run_eq, hrules, houtput, hresolved]
  exact concluded_congr _ hwrites

section

open Sample

/-- All settings are among the arguments, but the settings file and a variable have others. -/
def byArguments : Use :=
  use [(cellsVariable, "9")] ["-v", "run", "rules.sca", "-c3", "--steps=2", "--start", "Go"]

/-- Where `byArguments` runs. -/
def plainFolder : Directory := directory [(settingsFile, "\x7b \"steps\": 7 \x7d")]

/-- No setting is among the arguments, and no variable names the settings file. -/
def byLayers : Use where
  given := [("HOME", "/home/me"), (cellsVariable, "3")]
  arguments := ["run", "rules.sca"]
  folder? value? := (value? "HOME").map (· ++ "/.config/sca")

/-- Where `byLayers` runs: a variable file has the steps, in the folder around the one with the rules,
and the start signal is in the user's folder for settings. -/
def layeredFolder : Directory where
  files := [(["home", "me", "work", "rules.sca"], "A: B\n"),
    (["home", "me", variableFile], "SCA_STEPS=2\nSCA_CELLS=8\nSCA_STEPS=5\n"),
    (["home", "me", ".config", "sca", settingsFile],
      "\x7b \"steps\": 11, \"start_signal\": \"Go\" \x7d")]
  folders := []
  home := ["home", "me", "work"]
  shown := ""

/-- What is said by the arguments of `byArguments`. -/
def allSaid : List RunItem := [.rules "rules.sca", .cells "3", .steps "2", .start "Go"]

lemma runLine_byArguments : RunLine byArguments.arguments allSaid := by
  have hbefore : ∀ argument ∈ ["-v"], Switch.looksLike argument = true ∧ argument ≠ "--" := by decide
  have hloud : Switch.Spells RunItem.loudness .free ([.verbose].map RunItem.given) ["-v"] :=
    .argument (.letters (.flag (by decide) rfl rfl)) .nothing
  have hitems : Switch.Spells RunItem.switches .free (allSaid.map RunItem.given)
      ["rules.sca", "-c3", "--steps=2", "--start", "Go"] :=
    .argument (.operand (by decide)) <|
    .argument (.letters (.behind (by decide) rfl rfl (by decide) [])) <|
    .argument (.equals (by decide) rfl "2") <|
    .argument (.valued (by decide) rfl) <|
    .value (by decide) .nothing
  have hgood : ∀ i ∈ allSaid, i.IsGood := by
    simp only [allSaid, List.forall_mem_cons, RunItem.IsGood]
    exact ⟨by decide, ⟨3, by decide⟩, ⟨2, by decide⟩, trivial, nofun⟩
  exact .spelled hbefore hloud (by decide) (by decide) hitems
    ⟨⟨_, rfl⟩, by decide, hgood, fun _ _ => by decide⟩

lemma runLine_byLayers : RunLine byLayers.arguments [.rules "rules.sca"] := by
  have hgood : ∀ i ∈ [RunItem.rules "rules.sca"], i.IsGood := by
    simp only [List.forall_mem_cons, RunItem.IsGood]
    exact ⟨by decide, nofun⟩
  have hitems : Switch.Spells RunItem.switches .free
      ([.rules "rules.sca"].map RunItem.given) ["rules.sca"] :=
    .argument (.operand (by decide)) .nothing
  exact @RunLine.spelled [] _ [] _ nofun .nothing nofun .nil hitems
    ⟨⟨_, rfl⟩, by decide, hgood, fun _ _ => by decide⟩

lemma prepares_byLayers : Prepares byLayers.given byLayers.folder? layeredFolder
    (some "/home/me/.config/sca/config.json") ⟨3, 2, some "Go"⟩ :=
  ⟨byLayers.given ++ [(stepsVariable, "2")], ⟨40, 11, some "Go"⟩, by decide +kernel,
    by decide +kernel, by decide +kernel, by decide +kernel⟩

/-- The same settings, from the arguments alone and from three layers behind them. -/
theorem run_resolves_layers_sample :
    ∃ a, Simulates byArguments plainFolder allSaid a .text ∧
      Simulates byLayers layeredFolder [.rules "rules.sca"] a .text ∧
      byArguments.run plainFolder =
        concluded "rules.sca" none .text plainFolder (a.run? ⟨3, 2, some "Go"⟩) ∧
      (byArguments.run plainFolder).1 = (byLayers.run layeredFolder).1 := by
  have hloads : byArguments.Loads plainFolder := by decide +kernel
  obtain ⟨loaded, hloaded⟩ := (loads_iff_prepares rfl).1 hloads
  have hplain : plainFolder.read "rules.sca" = .ok "A: B\n" := by decide +kernel
  have hlayered : layeredFolder.read "rules.sca" = .ok "A: B\n" := by decide +kernel
  obtain ⟨a, ha⟩ : ∃ a, Automaton.load (.ok "A: B\n") = .ok a := ⟨_, rfl⟩
  have hfirst : Simulates byArguments plainFolder allSaid a .text :=
    ⟨runLine_byArguments, ⟨_, loaded, hloaded⟩, by decide +kernel, hplain ▸ ha⟩
  have hsecond : Simulates byLayers layeredFolder [.rules "rules.sca"] a .text :=
    ⟨runLine_byLayers, ⟨_, _, prepares_byLayers⟩, by decide +kernel, hlayered ▸ ha⟩
  -- Both searches find the same settings.
  have hresolved : Layer.resolve (byArguments.layers plainFolder allSaid) = ⟨3, 2, some "Go"⟩ := by
    decide +kernel
  have hresolved' : Layer.resolve (byLayers.layers layeredFolder [.rules "rules.sca"]) =
      ⟨3, 2, some "Go"⟩ := by decide +kernel
  obtain ⟨hrun, hsame⟩ := run_resolves_layers hfirst
  rw [hresolved] at hrun
  refine ⟨a, hfirst, hsecond, hrun, ?_⟩
  exact (hsame _ _ _ hsecond rfl rfl nofun (hresolved'.trans hresolved.symm)).1

end

end Use

end StripAutomata.Command
