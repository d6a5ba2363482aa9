/-!
# Variables

A command is given variables from its surroundings.  A file with variables in the folder that the
command runs in, or in a folder around it, may add to them; what is given already stays.  So
variables are a list in which the first entry of a name counts, and the file's come after those
given.

The surroundings list their variables as entries `NAME=value`, each of which a null character ends.
A reference finds the first entry that begins with the text of the reference and an equals sign, so
it may reach into a value: in `A=B=c`, `A` stands for `B=c` and `A=B` for `c`.
-/

namespace StripAutomata.Command

/-- Names with values; the first entry of a name counts. -/
abbrev Variables := List (String × String)

/-- The value of a name. -/
def Variables.get? (vars : Variables) (name : String) : Option String :=
  vars.lookup name

/-- The value that a reference stands for. -/
def Variables.resolve? (vars : Variables) (reference : String) : Option String :=
  let name := reference.toList.takeWhile (· != '=')
  match reference.toList.dropWhile (· != '=') with
  | [] => vars.get? reference
  | _ :: more => do
    let value ← vars.get? (String.ofList name)
    let rest ← (more ++ ['=']).isPrefixOf? value.toList
    return String.ofList rest

/-- The variables that entries list.  An entry without an equals sign says nothing. -/
def Variables.ofEntries (text : String) : Variables :=
  (text.toList.splitOn '\x00').filterMap fun entry =>
    match entry.dropWhile (· != '=') with
    | [] => none
    | _ :: value => some (String.ofList (entry.takeWhile (· != '=')), String.ofList value)

end StripAutomata.Command
