import StripAutomata.Command.Files

/-!
# Finite directories

A directory is a finite tree of files and folders, in one of which a command runs.  It says what
reading and writing by a path does, so that a command can be run on it as on the real file system
(`Directory.access`).

A path is followed name by name, from the top of the tree or from the folder that the command runs
in.  A single point stays where it is, two points go up as far as there is something above, and
every name but the last must lead to a folder.  What the last name must lead to depends on what is
done there.

Some places are the same in every directory: files that are always empty, a file that is always
full, a file by which a text reaches whoever watches the command, and a folder in which nothing can
be made.
-/

namespace StripAutomata.Command

/-- The names on the way from the top of a directory to a file or folder. -/
abbrev Place := List String

/-- The files of a directory with their texts, the folders that need not have anything in them,
the folder that a command runs in, and what was written to the file that is watched. -/
structure Directory where
  files : List (Place × String)
  folders : List Place
  home : Place
  shown : String
  deriving DecidableEq, Repr

/-- Where a path leads to: to a folder, if it ends in points or has no name, or else to what has
its last name, which is wanted to be a folder if a slash follows the name.  There need be nothing
of that name yet. -/
inductive Target where
  | folder (place : Place)
  | entry (place : Place) (name : String) (wantsFolder : Bool)
  deriving DecidableEq, Repr

namespace Directory

/-- The files that are always empty: one that forgets what is written to it, and the input of a
command, which is given none. -/
def emptyFiles : List Place := [["dev", "null"], ["dev", "stdin"]]

/-- The file in which there is no space. -/
def fullFile : Place := ["dev", "full"]

/-- The file that is watched: what is written to it is shown before what the command prints. -/
def watchedFile : Place := ["dev", "stdout"]

/-- The files that are in every directory. -/
def standingFiles : List Place := emptyFiles ++ [fullFile, watchedFile]

/-- The folder in which nothing can be made. -/
def closedFolder : Place := ["proc"]

/-- The folder that a command runs in, where nothing else is said.  No path can spell its name, so
only paths that begin in it lead into it. -/
def usualHome : Place := ["tmp", "/"]

/-- The folders at the top of a usual directory. -/
def usualFolders : List String :=
  ["bin", "dev", "etc", "home", "lib", "opt", "proc", "root", "sys", "tmp", "usr", "var"]

/-- The directory with files of given names in the folder that a command runs in. -/
def ofFiles (files : List (String × String)) : Directory where
  files := files.map fun entry => (usualHome ++ Path.names entry.1, entry.2)
  folders := usualFolders.map fun name => [name]
  home := usualHome
  shown := ""

/-- The files in the folder that a command runs in, by their names. -/
def homeFiles (d : Directory) : List (String × String) :=
  d.files.filterMap fun entry => do
    let name ← entry.1.getLast?
    if entry.1.dropLast = d.home then some (name, entry.2) else none

/-- The text of the file at a place.  There is nothing to read in the full file and in the watched
one. -/
def file? (d : Directory) (place : Place) : Option String :=
  if emptyFiles.contains place then some "" else d.files.lookup place

/-- Whether there is a file at a place. -/
def hasFile (d : Directory) (place : Place) : Bool :=
  standingFiles.contains place || (d.files.lookup place).isSome

/-- Whether there is a folder at a place: the top, a folder that is listed, or one that something
is in. -/
def hasFolder (d : Directory) (place : Place) : Bool :=
  place.isEmpty || d.folders.contains place || place.isPrefixOf d.home ||
    (d.files.map (·.1) ++ d.folders).any fun p => place.isPrefixOf p && p != place

/-- The fault where a folder is wanted at a place that has none. -/
def noFolderFault (d : Directory) (place : Place) : FileFault :=
  if d.hasFile place then .notDirectory else .missing

/-- Follows names from a folder on, each of which must lead to a folder. -/
def follow (d : Directory) (place : Place) : List String → Except FileFault Place
  | [] => .ok place
  | name :: names =>
    if name = "." then follow d place names
    else if name = ".." then follow d place.dropLast names
    else if Path.isTooLongName name then .error .nameTooLong
    else
      let inner := place ++ [name]
      if d.hasFolder inner then follow d inner names else .error (d.noFolderFault inner)

/-- Where a path leads to. -/
def locate (d : Directory) (path : String) : Except FileFault Target :=
  if path = "" then .error .missing
  else if Path.isTooLong path then .error .nameTooLong
  else do
    let names := Path.names path
    let place ← d.follow (if Path.isAbsolute path then [] else d.home) names.dropLast
    match names.getLast? with
    | none | some "." => return .folder place
    | some ".." => return .folder place.dropLast
    | some name => return .entry place name (Path.wantsFolder path)

/-- The text of the file that a path leads to. -/
def read (d : Directory) (path : String) : Except FileFault String := do
  match ← d.locate path with
  | .folder _ => .error .isDirectory
  | .entry place name wantsFolder =>
    let inner := place ++ [name]
    if Path.isTooLongName name then .error .nameTooLong
    else if d.hasFolder inner then .error .isDirectory
    else
      match d.file? inner with
      | none => .error .missing
      | some text => if wantsFolder then .error .notDirectory else .ok text

/-- Puts a text in place of the text of a file that is there, or behind the other files. -/
def put (files : List (Place × String)) (place : Place) (text : String) :
    List (Place × String) :=
  match files with
  | [] => [(place, text)]
  | (p, old) :: rest => if p = place then (p, text) :: rest else (p, old) :: put rest place text

/-- The directory after a text was written to the file that a path leads to. -/
def write (d : Directory) (path text : String) : Except FileFault Directory := do
  match ← d.locate path with
  | .folder _ => .error .isDirectory
  | .entry place name wantsFolder =>
    let inner := place ++ [name]
    if wantsFolder then .error .isDirectory
    else if Path.isTooLongName name then .error .nameTooLong
    else if d.hasFolder inner then .error .isDirectory
    else if emptyFiles.contains inner then .ok d
    else if inner = fullFile then .error .noSpace
    else if inner = watchedFile then .ok { d with shown := d.shown ++ text }
    else if place = closedFolder then .error .missing
    else .ok { d with files := put d.files inner text }

/-- The directory with the folder that a path leads to, where nothing may be yet. -/
def makeFolder (d : Directory) (path : String) : Except FileFault Directory := do
  match ← d.locate path with
  | .folder _ => .error .occupied
  | .entry place name _ =>
    let inner := place ++ [name]
    if Path.isTooLongName name then .error .nameTooLong
    else if d.hasFolder inner || d.hasFile inner then .error .occupied
    else if place = closedFolder then .error .missing
    else .ok { d with folders := d.folders ++ [inner] }

/-- Runs a change of the directory, which a fault leaves as it is. -/
def change (f : Directory → Except FileFault Directory) :
    StateM Directory (Except FileFault Unit) := fun d =>
  match f d with
  | .ok d' => (.ok (), d')
  | .error e => (.error e, d)

/-- The files of a directory, as a command sees them. -/
def access : Files (StateM Directory) where
  depth d := (d.home.length, d)
  read path d := (d.read path, d)
  write path text := change (·.write path text)
  makeFolder path := change (·.makeFolder path)

end Directory
end StripAutomata.Command
