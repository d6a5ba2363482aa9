import StripAutomata.Command.Path
import StripAutomata.File.Fault

/-!
# Files as a command sees them

A command reads and writes files by their paths.  `Files m` is what it needs for that, in any
monad `m`: the file system of the machine is one, a finite directory that is only a value
(`Command.Directory`) is another, and a command cannot tell them apart.

A file may need folders that are missing.  They are made from the outside to the inside
(`Files.makeFolders`), beginning with the first one whose own folder is there.

A file may also be wanted from one of several places, the first of them where there is one
(`Files.readFirst?`); the folders around the one that a command runs in are such places.
-/

namespace StripAutomata.Command

/-- The means to read and write files. -/
structure Files (m : Type → Type) where
  /-- The number of folders around the folder that a command runs in. -/
  depth : m Nat
  /-- The text of the file at a path. -/
  read : String → m (Except FileFault String)
  /-- Puts a text into the file at a path, which is made if it is missing. -/
  write : String → String → m (Except FileFault Unit)
  /-- Makes the folder at a path, in a folder that is there. -/
  makeFolder : String → m (Except FileFault Unit)

namespace Files

variable {m : Type → Type} [Monad m]

/-- What a fault in making a folder comes to: nothing if the folder is there nevertheless, which
shows when it is read like a file. -/
def unlessFolder (files : Files m) (path : String) (fault : FileFault) :
    m (Except FileFault Unit) := do
  match ← files.read path with
  | .error .isDirectory => return .ok ()
  | _ => return .error fault

/-- Makes the first folder of a list, each of which is in the next one, as far as they are
missing.  Folders that were made stay if a later one cannot be made. -/
def makeFolders (files : Files m) : List String → m (Except FileFault Unit)
  | [] => return .ok ()
  | path :: around => do
    match ← files.makeFolder path with
    | .ok () => return .ok ()
    | .error .missing =>
      match ← makeFolders files around with
      | .error fault => return .error fault
      | .ok () =>
        match ← files.makeFolder path with
        | .ok () => return .ok ()
        | .error fault => files.unlessFolder path fault
    | .error fault => files.unlessFolder path fault

/-- The text of the first file that there is at one of some paths.  A fault other than that there is
no file at a path ends the search. -/
def readFirst? (files : Files m) : List String → m (Option String)
  | [] => return none
  | path :: paths => do
    match ← files.read path with
    | .ok text => return some text
    | .error .missing | .error .isDirectory => readFirst? files paths
    | .error _ => return none

end Files
end StripAutomata.Command
