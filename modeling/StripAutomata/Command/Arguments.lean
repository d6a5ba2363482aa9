import StripAutomata.Numeral

/-!
# Arguments

The arguments of a command are read in three steps.

The first step (`Switch.read`) tells switches, their values and operands apart.  A switch has a long
name, `--name`, and may have a letter, `-n`; letters may be written together.  A value follows its
switch as the next argument, after an equals sign, or right behind a letter.  An argument that
looks like a switch is never the value of one, unless it is attached; after `--`, every argument
is an operand.  A switch that asks a question ends the reading: nothing behind it counts.

The second step (`Signature.allows`) compares what was given with what the command takes.  No
switch may be given twice to one command, no value may be malformed, and there may not be more
operands than the command has a use for.  So a question is answered only where nothing is wrong with
the arguments before the switch that asks it.

The third step takes what was given as a `Request`; only here an operand can be missing.
-/

namespace StripAutomata.Command

/-- What arguments may ask instead of giving a command. -/
inductive Question where
  /-- How a command is used, in short. -/
  | summary
  /-- How a command is used, at length. -/
  | manual
  /-- Which version of the program this is. -/
  | version
  deriving DecidableEq, Repr

/-- Why arguments are not a request: something is wrong with them, or they ask something about the
command that some names lead to. -/
inductive Refusal where
  | usage
  | asks (way : List String) (question : Question)
  deriving DecidableEq, Repr

/-- The kinds of values that arguments give. -/
inductive Kind where
  | text
  | size
  | path
  deriving DecidableEq, Repr

/-- Whether a text is a value of a kind.  A path is never empty. -/
def Kind.accepts : Kind → String → Bool
  | text, _ => true
  | size, value => (Numeral.unsigned Numeral.sizeBound value.toList).isOk
  | path, value => value != ""

/-- A switch that a command knows, with the kind of its value if it has one. -/
structure Switch where
  long : String
  letter : Option Char
  value : Option Kind
  deriving DecidableEq, Repr

/-- What is given to a command: a switch, with its value if it has one, or an operand. -/
inductive Given where
  | switch (s : Switch) (value : Option String)
  | operand (text : String)
  deriving DecidableEq, Repr

/-- What a switch makes of the argument behind it. -/
inductive Next where
  /-- It is read for itself. -/
  | free
  /-- It is the value of the switch. -/
  | valueOf (s : Switch)
  /-- It does not count, since the switch asks a question. -/
  | ignored (question : Question)
  deriving DecidableEq, Repr

namespace Switch

/-- The switch that asks how a command is used. -/
def help : Switch := ⟨"help", some 'h', none⟩

/-- The switch that asks for the version. -/
def version : Switch := ⟨"version", some 'V', none⟩

/-- The switches about how much is said on the way, which every command knows. -/
def loudness : List Switch := [⟨"verbose", some 'v', none⟩, ⟨"quiet", some 'q', none⟩]

/-- Whether an argument looks like a switch. -/
def looksLike (argument : String) : Bool :=
  match argument.toList with
  | '-' :: _ :: _ => true
  | _ => false

/-- The question that a switch asks, which may depend on whether its long name is used. -/
def question? (s : Switch) (long : Bool) : Option Question :=
  if s = help then some (if long then .manual else .summary)
  else if s = version then some .version
  else none

/-- Reads letters that are written together.  The last one may want a value from the next
argument. -/
def readLetters (known : List Switch) : List Char → Option (List Given × Next)
  | [] => some ([], .free)
  | c :: cs =>
    match known.find? (·.letter == some c) with
    | none => none
    | some s =>
      if let some question := s.question? false then some ([], .ignored question)
      else if s.value.isSome then
        match cs with
        | [] => some ([], .valueOf s)
        | '=' :: value => some ([.switch s (some (String.ofList value))], .free)
        | value => some ([.switch s (some (String.ofList value))], .free)
      else do
        let (given, next) ← readLetters known cs
        return (.switch s none :: given, next)

/-- Reads a long name, to which a value may be attached. -/
def readName (known : List Switch) (cs : List Char) : Option (List Given × Next) :=
  let name := String.ofList (cs.takeWhile (· != '='))
  match known.find? (·.long == name), cs.dropWhile (· != '=') with
  | none, _ => none
  | some s, attached =>
    if s.value.isSome then
      match attached with
      | [] => some ([], .valueOf s)
      | _ :: value => some ([.switch s (some (String.ofList value))], .free)
    else if !attached.isEmpty then none
    else if let some question := s.question? true then some ([], .ignored question)
    else some ([.switch s none], .free)

/-- Reads one argument for itself. -/
def readArgument (known : List Switch) (argument : String) : Option (List Given × Next) :=
  match argument.toList with
  | '-' :: '-' :: cs => readName known cs
  | '-' :: c :: cs => readLetters known (c :: cs)
  | _ => some ([.operand argument], .free)

/-- Reads arguments, the first of which may belong to the switch before it.  The answer is what is
given, and the question that is asked behind it. -/
def read (known : List Switch) : Next → List String → Option (List Given × Option Question)
  | .ignored question, _ => some ([], some question)
  | .valueOf _, [] => none
  | .valueOf s, argument :: rest =>
    if looksLike argument then none
    else do
      let (given, question) ← read known .free rest
      return (.switch s (some argument) :: given, question)
  | .free, [] => some ([], none)
  | .free, argument :: rest =>
    if argument = "--" then some (rest.map .operand, none)
    else do
      let (first, next) ← readArgument known argument
      let (given, question) ← read known next rest
      return (first ++ given, question)

end Switch

namespace Given

/-- The name of a switch that is given. -/
def long? : Given → Option String
  | switch s _ => some s.long
  | operand _ => none

/-- The operands among what is given. -/
def operands (given : List Given) : List String :=
  given.filterMap fun
    | switch _ _ => none
    | operand text => some text

/-- Whether a switch is given. -/
def has (given : List Given) (long : String) : Bool :=
  given.any (·.long? == some long)

/-- The value of a switch, if the switch is given. -/
def value? (given : List Given) (long : String) : Option String :=
  given.findSome? fun
    | switch s value => if s.long = long then value else none
    | operand _ => none

/-- Whether the value of a switch is of the kind that the switch asks for. -/
def hasGoodValue : Given → Bool
  | switch ⟨_, _, some kind⟩ (some value) => kind.accepts value
  | _ => true

end Given

/-- What a command takes: the names that lead to it, the switches of its own, and the kinds of its
operands in their order. -/
structure Signature where
  way : List String
  switches : List Switch
  operands : List Kind
  deriving DecidableEq, Repr

namespace Signature

/-- Whether nothing is wrong with what is given, as far as it goes. -/
def allows (s : Signature) (given : List Given) : Bool :=
  let operands := Given.operands given
  (given.filterMap Given.long?).Nodup && given.all (·.hasGoodValue) &&
    operands.length ≤ s.operands.length &&
    (s.operands.zip operands).all fun entry => entry.1.accepts entry.2

/-- Reads the arguments of one command. -/
def read (s : Signature) (arguments : List String) : Except Refusal (List Given) :=
  match Switch.read (Switch.help :: Switch.loudness ++ s.switches) .free arguments with
  | none => .error .usage
  | some (given, question) =>
    if !s.allows given then .error .usage
    else match question with
      | some question => .error (.asks s.way question)
      | none => .ok given

end Signature

/-! ## Requests -/

/-- What is asked of a run: the file with the rules, and what the arguments say about the settings
and the output.  A start of `some none` asks for no start signal. -/
structure RunRequest where
  rules : String
  cells : Option Nat
  steps : Option Nat
  start : Option (Option String)
  format : String
  output : Option String
  deriving DecidableEq, Repr

/-- What a command is asked to do. -/
inductive Request where
  | run (request : RunRequest)
  | check (rules : String)
  | signals (rules : String)
  | showSettings
  | changeSetting (key value : String)
  | resetSettings
  deriving DecidableEq, Repr

namespace Request

/-- What a run takes. -/
def runSignature : Signature where
  way := ["run"]
  switches := [
    ⟨"cells", some 'c', some .size⟩, ⟨"steps", some 's', some .size⟩, ⟨"start", none, some .text⟩,
    ⟨"no-start", none, none⟩, ⟨"format", some 'f', some .text⟩, ⟨"output", some 'o', some .path⟩]
  operands := [.path]

/-- What a command of some name takes that says something about the rules of a file. -/
def rulesSignature (name : String) : Signature := ⟨[name], [], [.path]⟩

/-- What a command of some name takes that is about the settings. -/
def settingsSignature (name : String) (operands : List Kind) : Signature :=
  ⟨["config", name], [], operands⟩

/-- A size that a switch may give. -/
def size? (given : List Given) (long : String) : Option Nat := do
  (Numeral.unsigned Numeral.sizeBound (← Given.value? given long).toList).toOption

/-- The path that is the only operand. -/
def onlyPath (given : List Given) : Except Refusal String :=
  match Given.operands given with
  | [path] => .ok path
  | _ => .error .usage

/-- What is said about the start signal. -/
def startOf (given : List Given) : Except Refusal (Option (Option String)) :=
  match Given.value? given "start", Given.has given "no-start" with
  | some _, true => .error .usage
  | some name, false => .ok (some (some name))
  | none, true => .ok (some none)
  | none, false => .ok none

/-- Reads the arguments of a run. -/
def readRun (arguments : List String) : Except Refusal Request := do
  let given ← runSignature.read arguments
  return .run {
    rules := ← onlyPath given
    cells := size? given "cells"
    steps := size? given "steps"
    start := ← startOf given
    format := (Given.value? given "format").getD "text"
    output := Given.value? given "output" }

/-- The commands that belong to a command, which is named by the way to it. -/
def commandsOf : List String → List String
  | [] => ["run", "check", "signals", "config", "help"]
  | ["config"] => ["show", "set", "reset", "help"]
  | _ => []

/-- Whether names lead on from a command to another. -/
def leadsOn (way : List String) : List String → Bool
  | [] => true
  | name :: names => (commandsOf way).contains name && leadsOn (way ++ [name]) names

/-- Splits arguments before the first one that does not look like a switch, and reads those before
it as switches of a command that has other commands.  The command `help` is about the command that
the names behind it lead to. -/
def splitCommand (way : List String) (switches : List Switch) (arguments : List String) :
    Except Refusal (String × List String) := do
  let before := arguments.takeWhile Switch.looksLike
  let _ ← Signature.read ⟨way, switches, []⟩ before
  if before.contains "--" then .error .usage
  else
    match arguments.dropWhile Switch.looksLike with
    | [] => .error .usage
    | "help" :: names =>
      .error (if leadsOn way names then .asks (way ++ names) .manual else .usage)
    | name :: rest => return (name, rest)

/-- Reads the arguments of a command about the settings. -/
def readSettings (arguments : List String) : Except Refusal Request := do
  let (name, rest) ← splitCommand ["config"] [] arguments
  match name with
  | "show" => let _ ← (settingsSignature "show" []).read rest; return .showSettings
  | "set" =>
    match Given.operands (← (settingsSignature "set" [.text, .text]).read rest) with
    | [key, value] => return .changeSetting key value
    | _ => .error .usage
  | "reset" => let _ ← (settingsSignature "reset" []).read rest; return .resetSettings
  | _ => .error .usage

/-- Reads all arguments. -/
def read (arguments : List String) : Except Refusal Request := do
  let (name, rest) ← splitCommand [] [Switch.version] arguments
  match name with
  | "run" => readRun rest
  | "check" => return .check (← onlyPath (← (rulesSignature "check").read rest))
  | "signals" => return .signals (← onlyPath (← (rulesSignature "signals").read rest))
  | "config" => readSettings rest
  | _ => .error .usage

end Request
end StripAutomata.Command
