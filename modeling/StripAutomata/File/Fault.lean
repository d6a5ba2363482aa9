/-!
# Reading files

A file is read as text in UTF-8.  `FileFault` lists what can stand in the way, be it reading or
writing, and `File.decode` is the step from bytes to text.
-/

namespace StripAutomata

/-- Why a file cannot be read or written. -/
inductive FileFault where
  | missing
  | denied
  | occupied
  | notDirectory
  | isDirectory
  | noSpace
  | nameTooLong
  | undecodable
  | other (message : String)
  deriving DecidableEq, Repr

/-- The wording of the fault. -/
def FileFault.message : FileFault → String
  | missing => "No such file or directory (os error 2)"
  | denied => "Permission denied (os error 13)"
  | occupied => "File exists (os error 17)"
  | notDirectory => "Not a directory (os error 20)"
  | isDirectory => "Is a directory (os error 21)"
  | noSpace => "No space left on device (os error 28)"
  | nameTooLong => "File name too long (os error 36)"
  | undecodable => "stream did not contain valid UTF-8"
  | other message => message

/-- The text of the bytes of a file. -/
def File.decode (bytes : ByteArray) : Except FileFault String :=
  match String.fromUTF8? bytes with
  | some text => .ok text
  | none => .error .undecodable

end StripAutomata
