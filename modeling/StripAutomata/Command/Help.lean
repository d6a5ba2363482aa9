import StripAutomata.Command.Arguments

/-!
# Help

What the command line answers to a question (`Question.answer`).  An explanation of a command says
in its first lines what the command is for, then how it is written, and then lists what may be
written there.  Each entry of a list stands on one line, in two columns.

Only the command `run` has more to say at length than in short.  There the lists have their second
column below the first one, with a free line between entries.
-/

namespace StripAutomata.Command

namespace Help

/-- The answer about the version. -/
def version : String := "sca 0.1.0\n"

/-- An explanation of a command: what it is for, how it is written, and its lists. -/
def page (purpose usage : String) (lists : List String) : String :=
  purpose ++ "\n\nUsage: " ++ usage ++ "\n" ++ String.join (lists.map ("\n" ++ ·))

/-- A list with its heading, an entry on a line. -/
def list (heading : String) (entries : List String) : String :=
  heading ++ ":\n" ++ String.join (entries.map ("  " ++ · ++ "\n"))

/-- The switches that every command knows. -/
def commonSwitches : List String := [
  "-v, --verbose  Enable verbose output",
  "-q, --quiet    Suppress all output except errors",
  "-h, --help     Print help"]

/-- The list of the switches of a command that has no others. -/
def commonOptions : String := list "Options" commonSwitches

/-- What the command `help` is for. -/
def helpPurpose : String := "Print this message or the help of the given subcommand(s)"

/-- The explanation of the whole. -/
def programPage : String :=
  page "Signal Automaton: parse rule files and print space-time diagrams"
    "sca [OPTIONS] <COMMAND>" [
    list "Commands" [
      "run      Simulate a rule file and print the diagram",
      "check    Parse a rule file and print its canonical form and bounds",
      "signals  List the signals a rule file references",
      "config   Manage CLI configuration",
      "help     " ++ helpPurpose],
    list "Options" (commonSwitches ++ ["-V, --version  Print version"])]

/-- How the command `run` is written. -/
def runUsage : String := "sca run [OPTIONS] <RULES>"

/-- The explanation of the command `run`, in short. -/
def runSummary : String :=
  page "Simulate a rule file and print the diagram" runUsage [
    list "Arguments" ["<RULES>  Path to the rule file"],
    list "Options" [
      "-c, --cells <CELLS>    Number of cells in the strip",
      "-v, --verbose          Enable verbose output",
      "-q, --quiet            Suppress all output except errors",
      "-s, --steps <STEPS>    Number of steps to simulate",
      "    --start <START>    Signal placed in cell 0 before the first step",
      "    --no-start         Start from an all-empty configuration",
      "-f, --format <FORMAT>  Output format: text or json [default: text]",
      "-o, --output <OUTPUT>  Write the diagram to a file instead of stdout",
      "-h, --help             Print help (see more with '--help')"]]

/-- A list with its heading, where each entry has further lines below its first one. -/
def longList (heading : String) (entries : List (String × List String)) : String :=
  heading ++ ":\n" ++ "\n".intercalate (entries.map fun entry =>
    "  " ++ entry.1 ++ "\n" ++ String.join (entry.2.map ("          " ++ · ++ "\n")))

/-- The explanation of the command `run`, at length. -/
def runManual : String :=
  page ("Simulate a rule file and print the diagram.\n\n" ++
      "Cell 0 of the initial configuration is seeded with the start signal unless " ++
      "`--no-start` is given.") runUsage [
    longList "Arguments" [("<RULES>", ["Path to the rule file"])],
    longList "Options" [
      ("-c, --cells <CELLS>", ["Number of cells in the strip"]),
      ("-v, --verbose", ["Enable verbose output"]),
      ("-q, --quiet", ["Suppress all output except errors"]),
      ("-s, --steps <STEPS>", ["Number of steps to simulate"]),
      ("    --start <START>", ["Signal placed in cell 0 before the first step"]),
      ("    --no-start", ["Start from an all-empty configuration"]),
      ("-f, --format <FORMAT>", ["Output format: text or json", "", "[default: text]"]),
      ("-o, --output <OUTPUT>", ["Write the diagram to a file instead of stdout"]),
      ("-h, --help", ["Print help (see a summary with '-h')"])]]

/-- The explanation of a command that says something about the rules of a file. -/
def rulesPage (name purpose : String) : String :=
  page purpose ("sca " ++ name ++ " [OPTIONS] <RULES>") [
    list "Arguments" ["<RULES>  Path to the rule file"],
    commonOptions]

/-- The explanation of the commands about the settings. -/
def settingsPage : String :=
  page "Manage CLI configuration" "sca config [OPTIONS] <COMMAND>" [
    list "Commands" [
      "show   Show current configuration",
      "set    Set a configuration value",
      "reset  Reset configuration to defaults",
      "help   " ++ helpPurpose],
    commonOptions]

/-- The explanation of the command that changes a setting. -/
def changePage : String :=
  page "Set a configuration value" "sca config set [OPTIONS] <KEY> <VALUE>" [
    list "Arguments" [
      "<KEY>    Configuration key (cells, steps, start-signal)",
      "<VALUE>  Value to set"],
    commonOptions]

/-- The explanation of a command `help`, which knows no switches, by what stands before its name. -/
def helpPage (before : String) : String :=
  page helpPurpose (before ++ " help [COMMAND]...") [
    list "Arguments" ["[COMMAND]...  Print help for the subcommand(s)"]]

/-- The explanation of the command that some names lead to. -/
def pageOf (way : List String) (atLength : Bool) : String :=
  match way with
  | ["run"] => if atLength then runManual else runSummary
  | ["check"] => rulesPage "check" "Parse a rule file and print its canonical form and bounds"
  | ["signals"] => rulesPage "signals" "List the signals a rule file references"
  | ["help"] => helpPage "sca"
  | ["config"] => settingsPage
  | ["config", "show"] =>
    page "Show current configuration" "sca config show [OPTIONS]" [commonOptions]
  | ["config", "set"] => changePage
  | ["config", "reset"] =>
    page "Reset configuration to defaults" "sca config reset [OPTIONS]" [commonOptions]
  | ["config", "help"] => helpPage "sca config"
  | _ => programPage

end Help

/-- The answer to a question about the command that some names lead to. -/
def Question.answer (way : List String) : Question → String
  | summary => Help.pageOf way false
  | manual => Help.pageOf way true
  | version => Help.version

end StripAutomata.Command
