import StripAutomata.Command.Session

/-!
# The command line

The program `sca`: a session on the files of the machine, with the arguments and the variables
that it is started with.  All that is decided is decided by `Command.Session.run`; here are only
the ways to the file system, the environment, the user's folders and the standard streams.
-/

namespace StripAutomata.Main

open Command

/-- Whether an error has a code, which some ways to the file system give negated. -/
def hasCode (code expected : UInt32) : Bool := code == expected || code == 0 - expected

/-- The fault that an error of the file system is. -/
def faultOf : IO.Error → FileFault
  | .noFileOrDirectory _ _ _ => .missing
  | .noSuchThing _ _ _ => .missing
  | .permissionDenied _ _ _ => .denied
  | .alreadyExists _ _ _ => .occupied
  | .inappropriateType _ code details =>
    if hasCode code 20 then .notDirectory
    else if hasCode code 21 then .isDirectory
    else .other details
  | .resourceExhausted _ code details => if hasCode code 28 then .noSpace else .other details
  | .invalidArgument _ code details => if hasCode code 36 then .nameTooLong else .other details
  | e => .other (toString e)

/-- The fault of an action, if it has one. -/
def attempt {α : Type} (action : IO α) : IO (Except FileFault α) := do
  try return .ok (← action)
  catch e => return .error (faultOf e)

/-- The files of the machine. -/
def machineFiles : Files IO where
  depth := do
    match ← attempt IO.currentDir with
    | .ok home => return (Path.names home.toString).length
    | .error _ => return 0
  read path := do return (← attempt (IO.FS.readBinFile path)).bind File.decode
  write path text := attempt <| IO.FS.withFile path .write fun h => do
    h.putStr text
    h.flush
  makeFolder path := attempt (IO.FS.createDir path)

/-- Where the machine lists the variables that the program is started with. -/
def entriesPath : String := "/proc/self/environ"

/-- The variables that the program is started with; where they are not listed, those that a session
asks for by name. -/
def givenVariables : IO Variables := do
  match ← machineFiles.read entriesPath with
  | .ok entries => return .ofEntries entries
  | .error _ =>
    let values ← variableNames.mapM fun name => do
      return (← IO.getEnv name).map fun value => (name, value)
    return values.filterMap id

/-- The folder that a user has for the settings of this program: in the folder for settings, which a
variable names by an absolute path, or else in the usual one in the user's own folder. -/
def settingsFolder? (value? : String → Option String) : Option String := do
  let settings := (value? "XDG_CONFIG_HOME").filter Path.isAbsolute
  let usual := ((value? "HOME").filter (· != "")).map (Path.inFolder · ".config")
  return Path.inFolder (← settings.or usual) "sca"

end StripAutomata.Main

open StripAutomata in
/-- Runs a session and ends with its exit code. -/
def main (arguments : List String) : IO UInt32 := do
  let outcome ← Command.Session.run Main.machineFiles (← Main.givenVariables) arguments
    Main.settingsFolder?
  IO.print outcome.stdout
  IO.eprint outcome.stderr
  return outcome.code.toUInt32
