import StripAutomata.File.Fault
import StripAutomata.Settings.Basic
import StripAutomata.Strip.Neighborhood
import StripAutomata.SyntaxError

/-!
# Failures

Each part of the library has an error type of its own.  `Failure` brings them together for what
goes through several parts: loading an automaton from a file, and running it.
-/

namespace StripAutomata

/-- Why an automaton cannot be loaded or run. -/
inductive Failure where
  | text (e : SyntaxError)
  | window (e : OutsideWindow)
  | cell (e : NoSuchCell)
  | settings (e : SettingsFault)
  | file (e : FileFault)
  deriving DecidableEq, Repr

/-- The wording of the failure. -/
def Failure.message : Failure → String
  | text e => e.message
  | window e => e.message
  | cell e => e.message
  | settings e => e.message
  | file e => s!"i/o error: {e.message}"

end StripAutomata
