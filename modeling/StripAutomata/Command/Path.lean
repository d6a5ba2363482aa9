/-!
# Paths

A path is a row of names between slashes.  It can be looked at in two ways.

* Following it, only its names matter (`Path.names`): slashes that stand together are one slash.
* As a text, it stands inside the folders that are left of it when it is cut off earlier
  (`Path.folders`).  A path is cut only behind a name that leads somewhere, so that no piece of it
  ends in a slash or in a single point; two points are such a name, whatever they lead to.  A slash
  at the beginning, or a single point there, is what every cut leaves.

Neither a name nor a path may be too long; both are measured in bytes.
-/

namespace StripAutomata.Command.Path

/-- The pieces between the slashes of a text, empty ones included. -/
def pieces (cs : List Char) : List String := (cs.splitOn '/').map String.ofList

/-- The names in a path, in their order. -/
def names (path : String) : List String := (pieces path.toList).filter (· != "")

/-- Whether a path begins at the top instead of the folder that a command runs in. -/
def isAbsolute (path : String) : Bool := path.toList.head? == some '/'

/-- Whether a path ends in a slash, so that it can only mean a folder. -/
def wantsFolder (path : String) : Bool := path.toList.getLast? == some '/'

/-- Whether a path is too long to be followed. -/
def isTooLong (path : String) : Bool := path.utf8ByteSize ≥ 4096

/-- Whether a name is too long for a file or folder. -/
def isTooLongName (name : String) : Bool := name.utf8ByteSize > 255

/-- Splits off the beginning of a path that every cut leaves. -/
def splitStart : List Char → List Char × List Char
  | '/' :: cs => (['/'], cs)
  | ['.'] => (['.'], [])
  | '.' :: '/' :: cs => (['.'], '/' :: cs)
  | cs => ([], cs)

/-- Whether pieces end in one that leads somewhere. -/
def endsInName (pieces : List String) : Bool :=
  match pieces.getLast? with
  | none | some "" | some "." => false
  | some _ => true

/-- What is left of a path when it is cut behind each of its names, the longest piece first, and
what every cut leaves at the end. -/
def cuts (path : String) : List String :=
  let (start, rest) := splitStart path.toList
  let ps := pieces rest
  let begins := ((List.range ps.length).map fun n => ps.take (n + 1)).filter endsInName
  let start := String.ofList start
  begins.reverse.map (fun ps => start ++ "/".intercalate ps) ++ (if start = "" then [] else [start])

/-- The folders around what a path leads to, the nearest one first.  There is none where the path
is only a name, which lies in the folder that a command runs in. -/
def folders (path : String) : List String := (cuts path).tail

/-- The path of a name in a folder. -/
def inFolder (folder name : String) : String :=
  if folder = "" ∨ wantsFolder folder then folder ++ name else folder ++ "/" ++ name

/-- The path of a name in a folder that is some number of folders outward. -/
def outward (name : String) (n : Nat) : String := String.join (List.replicate n "../") ++ name

end StripAutomata.Command.Path
