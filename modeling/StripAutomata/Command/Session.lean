import StripAutomata.Chart.Grid
import StripAutomata.Chart.Json
import StripAutomata.Command.Help
import StripAutomata.Command.Layers
import StripAutomata.Command.VariableFile
import StripAutomata.Memory

/-!
# Sessions

A session is one use of the command line: it has arguments and variables, reads and writes files,
and ends with an exit code and what it printed (`Session.run`).

* Arguments that are no request end it before anything else is looked at: with code 2, or, if they
  ask a question, with its answer and code 0.
* The nearest variable file, the settings file and the variables are read next, for every request,
  and then the request is carried out.  A failure on the way ends the session with code 1 and a
  report.
* Two things break a session off with code 101 and without a report: a variable file that sets a
  variable to an impossible value, and a run that there is no room for, in memory or in the columns
  of its text.
* Otherwise the code is 0.

No request writes more than one file, and it does so at its very end, so a session that fails or
breaks off has changed no file; at most it has made folders.
-/

namespace StripAutomata.Command

/-- What a session leaves behind besides files. -/
structure Outcome where
  code : Nat
  stdout : String
  stderr : String
  deriving DecidableEq, Repr

/-- How carrying out a request ends. -/
inductive Ending where
  | done
  | failed (report : Report)
  | broken
  deriving DecidableEq, Repr

/-- What carrying out a request printed, and how it ended. -/
structure Result where
  printed : String
  ending : Ending
  deriving DecidableEq, Repr

namespace Result

/-- Everything went well. -/
def success (printed : String) : Result := ⟨printed, .done⟩

/-- It went wrong. -/
def failed (report : Report) : Result := ⟨"", .failed report⟩

/-- It broke off. -/
def broken : Result := ⟨"", .broken⟩

/-- The end of the session. -/
def outcome (r : Result) : Outcome :=
  match r.ending with
  | .done => ⟨0, r.printed, ""⟩
  | .failed report => ⟨1, r.printed, report.text⟩
  | .broken => ⟨101, r.printed, ""⟩

end Result

/-- The ways to write a diagram. -/
inductive Format where
  | text
  | json
  deriving DecidableEq, Repr

namespace Format

/-- The format of a name, in which case does not matter. -/
def ofName? (name : String) : Except Report Format :=
  let lower := String.ofList (name.toList.map Char.toLower)
  if lower = "text" ∨ lower = "txt" then .ok text
  else if lower = "json" then .ok json
  else .error ⟨s!"Unknown format: {name}. Use 'text' or 'json'", []⟩

/-- A diagram in a format, if the format has room for it. -/
def render? (lexicon : Lexicon) (d : Diagram) : Format → Option String
  | text => (d.chart lexicon).text?
  | json => some ((d.chart lexicon).toJson.prettyText ++ "\n")

end Format

namespace Session

/-- The variable file, which lies in the folder that the command runs in or in one around it. -/
def variableFile : String := ".env"

/-- The paths that a variable file may have, from the folder that the command runs in outward. -/
def variableFiles (depth : Nat) : List String :=
  (List.range (depth + 1)).map (Path.outward variableFile)

/-- What is printed where something is wrong with the arguments. -/
def usageText : String :=
  "Usage: sca [OPTIONS] <COMMAND>\n\nFor more information, try '--help'.\n"

section

variable {m : Type → Type} [Monad m]

/-- The variables given, with those that the nearest variable file adds if they are possible. -/
def loadVariables? (files : Files m) (given : Variables) : m (Option Variables) := do
  match ← files.readFirst? (variableFiles (← files.depth)) with
  | some text => return VariableFile.extend? given text
  | none => return some given

/-- The report of rules that cannot be loaded. -/
def loadReport (path : String) (e : Failure) : Report :=
  ⟨s!"Failed to load rules from {path}",
    match e with
    | .file fault => [e.message, fault.message]
    | _ => [e.message]⟩

/-- The automaton of the rules in a file. -/
def loadRules (files : Files m) (path : String) : m (Except Report Automaton) := do
  return (Automaton.load (← files.read path)).mapError (loadReport path)

/-- The diagram of a run, in a format, with the number of its time steps.  There is no answer where
there is no room for it. -/
def simulate? (a : Automaton) (path : String) (s : Settings) (format : Format) :
    Option (Except Report (String × Nat)) := do
  let (a, outcome) ← a.run? s
  match outcome with
  | .ok d => return .ok (← format.render? a.lexicon d, d.size)
  | .error e => return .error ⟨s!"Failed to simulate {path}", [e.message]⟩

/-- Prints a diagram, or writes it to a file. -/
def deliver (files : Files m) (output : Option String) (text : String) (steps : Nat) :
    m Result := do
  match output with
  | none => return .success text
  | some path =>
    match ← files.write path text with
    | .ok () => return .success s!"Wrote {steps} steps to {path}\n"
    | .error e => return .failed ⟨s!"Failed to write diagram to {path}", [e.message]⟩

/-- Runs the rules of a file. -/
def runRules (files : Files m) (s : Settings) (r : RunRequest) : m Result := do
  match Format.ofName? r.format with
  | .error report => return .failed report
  | .ok format =>
    match ← loadRules files r.rules with
    | .error report => return .failed report
    | .ok a =>
      match simulate? a r.rules (r.override s) format with
      | none => return .broken
      | some (.error report) => return .failed report
      | some (.ok (text, steps)) => deliver files r.output text steps

/-- The summary of an automaton. -/
def summary (a : Automaton) : String :=
  s!"{a.render}\n\n" ++
  s!"rules:        {a.rules.length}\n" ++
  s!"neighborhood: [{a.reach.least}, {a.reach.greatest}]\n" ++
  s!"lookahead:    {a.reach.lookahead}\n"

/-- The names of the signals of an automaton, one on a line. -/
def signalLines (a : Automaton) : String :=
  let names := a.signals.toList.filterMap a.lexicon.name?
  String.join ((sortNames names).map (· ++ "\n"))

/-- Prints what `describe` says about the automaton of the rules in a file. -/
def describeRules (files : Files m) (describe : Automaton → String) (path : String) :
    m Result := do
  match ← loadRules files path with
  | .error report => return .failed report
  | .ok a => return .success (describe a)

/-- The settings as they are shown. -/
def settingsText (s : Settings) (path : Option String) : String :=
  let start := s.start.getD "(none)"
  "Signal Automaton CLI Configuration\n" ++
  "----------------------------------------\n" ++
  s!"Cells:         {s.cells}\n" ++
  s!"Steps:         {s.steps}\n" ++
  s!"Start Signal:  {start}\n" ++
  (match path with
    | some path => s!"\nConfig file: {path}\n"
    | none => "")

/-- A size as the value of a setting. -/
def sizeSetting (value : String) : Except Report Nat :=
  (Numeral.unsigned Numeral.sizeBound value.toList).mapError fun e => ⟨e.message, []⟩

/-- The settings with a change, and the name of the setting that changes. -/
def edit (s : Settings) (key value : String) : Except Report (Settings × String) :=
  if key = "cells" then do return ({ s with cells := ← sizeSetting value }, "cells")
  else if key = "steps" then do return ({ s with steps := ← sizeSetting value }, "steps")
  else if key = "start-signal" ∨ key = "start" then
    .ok ({ s with start := if value = "" ∨ value = "none" then none else some value },
      "start-signal")
  else .error ⟨s!"Unknown config key: {key}. Valid keys: cells, steps, start-signal", []⟩

/-- Changes a setting in the settings file. -/
def changeSetting (files : Files m) (path : Option String) (key value : String) : m Result := do
  match ← loadStored files path with
  | .error report => return .failed report
  | .ok stored =>
    match edit stored key value with
    | .error report => return .failed report
    | .ok (s, name) =>
      let printed := s!"Set {name} to: {value}\n"
      match s.validate with
      | .error e => return ⟨printed, .failed ⟨e.message, []⟩⟩
      | .ok () =>
        match ← store files path s with
        | .error report => return ⟨printed, .failed report⟩
        | .ok () => return .success printed

/-- Puts the defaults into the settings file. -/
def resetSettings (files : Files m) (path : Option String) : m Result := do
  match ← store files path .default with
  | .error report => return .failed report
  | .ok () => return .success "Configuration reset to defaults\n"

/-- Carries out a request under the settings that the file and the variables give. -/
def perform (files : Files m) (path : Option String) (s : Settings) : Request → m Result
  | .run r => runRules files s r
  | .check rules => describeRules files summary rules
  | .signals rules => describeRules files signalLines rules
  | .showSettings => return .success (settingsText s path)
  | .changeSetting key value => changeSetting files path key value
  | .resetSettings => resetSettings files path

/-- Carries out a request. -/
def carryOut (files : Files m) (given : Variables) (folder? : SettingsFolder)
    (request : Request) : m Result := do
  match ← loadVariables? files given with
  | none => return .broken
  | some vars =>
    let path := settingsPath? folder? vars
    match ← loadStored files path with
    | .error report => return .failed report
    | .ok stored =>
      match vars.override stored with
      | .error report => return .failed report
      | .ok s => perform files path s request

/-- One use of the command line, by a user who may have a folder for settings. -/
def run (files : Files m) (given : Variables) (arguments : List String)
    (folder? : SettingsFolder := fun _ => none) : m Outcome := do
  match Request.read arguments with
  | .error .usage => return ⟨2, "", usageText⟩
  | .error (.asks way question) => return ⟨0, question.answer way, ""⟩
  | .ok request => return (← carryOut files given folder? request).outcome

end

end Session
end StripAutomata.Command
