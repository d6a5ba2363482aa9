import StripAutomata.Command.Variables
import StripAutomata.Text.Alphanumeric
import StripAutomata.Text.Blank

/-!
# Files with variables

A variable file has an assignment on a line, `NAME=value`, which the word `export` may precede;
blank lines and lines that begin with `#` are passed over.

A value ends at a blank, after which only a comment may follow.  Single quotes keep everything
between them as it is.  Double quotes keep blanks; in them and outside of quotes a backslash
escapes a quote, a backslash, a dollar, a blank or, as `\n`, a line feed.  A dollar brings in the
value of the variable whose name follows it, with or without braces around the name.

Lines are put together while a quote is open, or a blank or a backslash is the last thing of the
text; a text that ends so is unfinished.  Reading stops at the first line that is malformed or
unfinished, and what was assigned before it counts.

A variable that has a value already keeps it.  Any other is set when its line is read, and setting
it to a text with a null character is impossible: then there are no variables at all.
-/

namespace StripAutomata.Command.VariableFile

/-! ## Lines -/

/-- What is open in a line, as far as it goes. -/
inductive Open where
  | nothing
  | blank
  | escape
  | single
  | singleEscape
  | double
  | doubleEscape
  deriving DecidableEq, Repr

namespace Open

/-- What is open after one more character, where nothing was open or one blank was. -/
def start : Char → Open
  | '\\' => escape
  | '"' => double
  | '\'' => single
  | _ => nothing

/-- What is open after one more character; a comment begins where there is no answer. -/
def next? : Open → Char → Option Open
  | blank, c => if c = '#' then none else some (start c)
  | nothing, c =>
    if Text.isBlank c && c != '\n' && c != '\r' then some blank else some (start c)
  | escape, _ => some nothing
  | single, c => some (if c = '\\' then singleEscape else if c = '\'' then nothing else single)
  | singleEscape, _ => some single
  | double, c => some (if c = '\\' then doubleEscape else if c = '"' then nothing else double)
  | doubleEscape, _ => some double

/-- What is open after a line, or `none` where a comment begins, with the text before it. -/
def after (state : Open) : List Char → List Char × Option Open
  | [] => ([], some state)
  | c :: cs =>
    match state.next? c with
    | none => ([], none)
    | some state =>
      let (rest, final) := after state cs
      (c :: rest, final)

end Open

/-- The lines of a text with the line feeds that end them. -/
def rawLines : List Char → List (List Char)
  | [] => []
  | c :: cs =>
    if c = '\n' then [c] :: rawLines cs
    else
      match rawLines cs with
      | [] => [[c]]
      | l :: ls => (c :: l) :: ls

/-- A line without the line feed that ends it and a carriage return before it. -/
def withoutEnding (cs : List Char) : List Char :=
  match cs.reverse with
  | '\n' :: '\r' :: rest => rest.reverse
  | '\n' :: rest => rest.reverse
  | _ => cs

/-- Whether the first character of a text that is no blank begins a comment. -/
def isComment (cs : List Char) : Bool :=
  (cs.dropWhile Text.isBlank).head? == some '#'

/-- Puts lines together as long as something is open.  What stands before the next line is kept
with its last character first.  The last entry is `none` where something stays open. -/
def gather (before : List Char) (state : Open) : List (List Char) → List (Option (List Char))
  | [] => if state = .nothing then [] else [none]
  | l :: ls =>
    if before.isEmpty && isComment l then gather [] .nothing ls
    else
      match state.after l with
      | (kept, none) => some (before.reverse ++ kept) :: gather [] .nothing ls
      | (_, some .nothing) => some (withoutEnding (before.reverse ++ l)) :: gather [] .nothing ls
      | (_, some state) => gather (l.reverse ++ before) state ls

/-! ## Values -/

/-- How the name of a variable is being read.  The last character of the name comes first. -/
inductive Reference where
  | bare (name : List Char)
  | braced (name : List Char)
  deriving DecidableEq, Repr

/-- A quote that is open in a value. -/
inductive Quote where
  | single
  | double
  deriving DecidableEq, Repr

/-- How far a value has been read.  The last character of the output comes first. -/
structure Draft where
  output : List Char
  quote : Option Quote
  escaped : Bool
  reference : Option Reference
  ended : Bool

namespace Draft

/-- Nothing has been read. -/
def start : Draft := ⟨[], none, false, none, false⟩

/-- One more character has been read that stands for itself. -/
def push (d : Draft) (c : Char) : Draft := { d with output := c :: d.output }

/-- The value of a variable has been brought in. -/
def bring (vars : Variables) (d : Draft) (name : List Char) : Draft :=
  { d with
    output := ((vars.resolve? (String.ofList name.reverse)).getD "").toList.reverse ++ d.output
    reference := none }

/-- One more character of the name of a variable. -/
def refer (vars : Variables) (d : Draft) (c : Char) : Reference → Draft
  | .bare name =>
    if Text.isAlphanumeric c then { d with reference := some (.bare (c :: name)) }
    else if c = '\x7b' && name.isEmpty then { d with reference := some (.braced []) }
    else if c = '$' then { d.bring vars name with reference := some (.bare []) }
    else (d.bring vars name).push c
  | .braced name =>
    if c = '\x7d' then d.bring vars name
    else { d with reference := some (.braced (c :: name)) }

/-- The character that an escape stands for. -/
def escaped? : Char → Option Char
  | 'n' => some '\n'
  | c => if c = '\\' ∨ c = '\'' ∨ c = '"' ∨ c = '$' ∨ c = ' ' then some c else none

/-- One more character where no name is being read and nothing is escaped. -/
def take (d : Draft) (c : Char) : Draft :=
  if c = '$' then { d with reference := some (.bare []) }
  else if d.quote = some .double then
    if c = '"' then { d with quote := none }
    else if c = '\\' then { d with escaped := true }
    else d.push c
  else if c = '\'' then { d with quote := some .single }
  else if c = '"' then { d with quote := some .double }
  else if c = '\\' then { d with escaped := true }
  else if c = ' ' ∨ c = '\t' then { d with ended := true }
  else d.push c

/-- Reads the characters of a value. -/
def read (vars : Variables) (d : Draft) : List Char → Option Draft
  | [] => some d
  | c :: cs =>
    if d.ended then
      if c = ' ' ∨ c = '\t' then read vars d cs
      else if c = '#' then some d
      else none
    else if d.escaped then
      match escaped? c with
      | some c => read vars { d.push c with escaped := false } cs
      | none => none
    else if d.quote = some .single then
      read vars (if c = '\'' then { d with quote := none } else d.push c) cs
    else
      match d.reference with
      | some r => read vars (d.refer vars c r) cs
      | none => read vars (d.take c) cs

/-- The value, unless a quote or a brace is open. -/
def finish? (vars : Variables) (d : Draft) : Option String :=
  if d.quote.isSome then none
  else
    match d.reference with
    | none => some (String.ofList d.output.reverse)
    | some (.bare name) => some (String.ofList (d.bring vars name).output.reverse)
    | some (.braced _) => none

end Draft

/-- Reads a value. -/
def value? (vars : Variables) (cs : List Char) : Option String := do
  (← Draft.start.read vars cs).finish? vars

/-! ## Assignments -/

/-- Splits a name off the beginning of a text. -/
def splitName? (cs : List Char) : Option (List Char × List Char) :=
  let isPart (c : Char) : Bool := c.isAlphanum || c == '_' || c == '.'
  match cs with
  | [] => none
  | c :: _ =>
    if c.isAlpha || c == '_' then some (cs.takeWhile isPart, cs.dropWhile isPart) else none

/-- What stands after an equals sign, without the blanks before it. -/
def afterEquals? : List Char → Option (List Char)
  | '=' :: cs => some (cs.dropWhile Text.isBlank)
  | _ => none

/-- Splits a line into the name that it assigns to and the text of the value. -/
def splitLine? (cs : List Char) : Option (List Char × List Char) := do
  let (name, rest) ← splitName? cs
  let rest := rest.dropWhile Text.isBlank
  match afterEquals? rest with
  | some value => return (name, value)
  | none =>
    if name = "export".toList then
      let (name, rest) ← splitName? rest
      return (name, ← afterEquals? (rest.dropWhile Text.isBlank))
    else none

/-- What a line assigns, if it is not blank.  A value that a comment takes the place of is empty. -/
def readLine? (vars : Variables) (cs : List Char) : Option (Option (String × String)) :=
  let cs := (Text.trimEnd cs).dropWhile Text.isBlank
  if cs.isEmpty || cs.head? == some '#' then some none
  else do
    let (name, text) ← splitLine? cs
    let value ←
      if text.isEmpty || text.head? == some '#' then some "" else value? vars text
    return some (String.ofList name, value)

/-- The variables after an assignment, if it is possible. -/
def assign? (vars : Variables) (name value : String) : Option Variables :=
  if (vars.get? name).isSome then some vars
  else if value.toList.contains '\x00' then none
  else some (vars ++ [(name, value)])

/-- The variables after the lines of a list, the first malformed one of which ends the reading. -/
def readLines? (vars : Variables) : List (Option (List Char)) → Option Variables
  | [] => some vars
  | none :: _ => some vars
  | some l :: ls =>
    match readLine? vars l with
    | none => some vars
    | some none => readLines? vars ls
    | some (some (name, value)) => do readLines? (← assign? vars name value) ls

/-- The variables given, with those that a file adds.  A mark of the byte order at the beginning
of the file is passed over. -/
def extend? (vars : Variables) (text : String) : Option Variables :=
  let cs :=
    match text.toList with
    | '\uFEFF' :: cs => cs
    | cs => cs
  readLines? vars (gather [] .nothing (rawLines cs))

end StripAutomata.Command.VariableFile
