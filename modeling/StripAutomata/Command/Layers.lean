import StripAutomata.Command.Arguments
import StripAutomata.Command.Files
import StripAutomata.Command.Report
import StripAutomata.Command.Variables
import StripAutomata.Json.Printer
import StripAutomata.Settings.Json

/-!
# Layers of settings

Each of the settings of a run comes from the first of these layers that says something about it:

1. the arguments of the run;
2. the variables, those given before those from a variable file;
3. the settings that are stored in the settings file;
4. the defaults.

The layers are laid one over the other from the last to the first.  An empty variable for the
start signal and a stored `null` say that there is none.

The settings file is named by a variable, or else it lies in the folder that the user has for
settings.  Which folder that is, the user's surroundings decide, so it is a parameter; it depends on
variables, and there may be none.  Without a path, or where the path leads to nothing, the stored
settings are the defaults; what is there must be readable and well-formed.  The folders that the
file needs are made when the settings are stored.
-/

namespace StripAutomata.Command

/-- The variable that names the settings file. -/
def settingsFileVariable : String := "SCA_CONFIG_FILE"

/-- The name under which the settings are stored. -/
def settingsFile : String := "config.json"

/-- The folder that a user has for settings, if there is one, by the values of variables. -/
abbrev SettingsFolder := (String → Option String) → Option String

/-- The path of the settings file, if there is one.  A variable that names it comes before the folder
that the user has for settings. -/
def settingsPath? (folder? : SettingsFolder) (vars : Variables) : Option String :=
  (vars.get? settingsFileVariable).or
    ((folder? vars.get?).map fun folder => Path.inFolder folder settingsFile)

/-- The variable for the number of cells. -/
def cellsVariable : String := "SCA_CELLS"

/-- The variable for the number of steps. -/
def stepsVariable : String := "SCA_STEPS"

/-- The variable for the start signal. -/
def startVariable : String := "SCA_START_SIGNAL"

/-- The variables that say something about the settings. -/
def variableNames : List String :=
  [settingsFileVariable, cellsVariable, stepsVariable, startVariable]

/-- A size that a variable may give. -/
def Variables.size? (vars : Variables) (name : String) : Except Report (Option Nat) :=
  match vars.get? name with
  | none => .ok none
  | some text =>
    match Numeral.unsigned Numeral.sizeBound text.toList with
    | .ok n => .ok (some n)
    | .error e => .error ⟨s!"{name} is not a number: {text}", [e.message]⟩

/-- The settings under what variables say. -/
def Variables.override (vars : Variables) (s : Settings) : Except Report Settings := do
  let cells ← vars.size? cellsVariable
  let steps ← vars.size? stepsVariable
  let start := (vars.get? startVariable).map fun name =>
    if name = "" then none else some name
  return ⟨cells.getD s.cells, steps.getD s.steps, start.getD s.start⟩

/-- The settings under what the arguments of a run say. -/
def RunRequest.override (r : RunRequest) (s : Settings) : Settings :=
  ⟨r.cells.getD s.cells, r.steps.getD s.steps, r.start.getD s.start⟩

section

variable {m : Type → Type} [Monad m]

/-- The settings that are stored in a file. -/
def loadStored (files : Files m) (path : Option String) : m (Except Report Settings) := do
  match path with
  | none => return .ok .default
  | some path =>
    match ← files.read path with
    | .ok text =>
      match Settings.ofStored? text with
      | some s => return .ok s
      | none => return .error ⟨"Failed to parse config file", []⟩
    | .error .missing | .error .notDirectory | .error .nameTooLong => return .ok .default
    | .error e => return .error ⟨s!"Failed to read config from {path}", [e.message]⟩

/-- Stores settings in a file, for which a folder is made if it needs one. -/
def store (files : Files m) (path : Option String) (s : Settings) : m (Except Report Unit) := do
  match path with
  | none => return .ok ()
  | some path =>
    let folders := Path.folders path
    match ← files.makeFolders folders with
    | .error e =>
      let folder := folders.headD ""
      return .error ⟨s!"Failed to create config directory: {folder}", [e.message]⟩
    | .ok () =>
      match ← files.write path s.toJson.prettyText with
      | .ok () => return .ok ()
      | .error e => return .error ⟨s!"Failed to write config to {path}", [e.message]⟩

end

end StripAutomata.Command
