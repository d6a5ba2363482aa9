/-!
# Reports

A command that fails reports what it was about to do and, below that, the causes, the nearest one
first.  A single cause stands alone, several are numbered.
-/

namespace StripAutomata.Command

/-- An account of a failure. -/
structure Report where
  message : String
  causes : List String
  deriving DecidableEq, Repr

namespace Report

/-- The lines about the causes. -/
def causeText : List String → String
  | [] => ""
  | [cause] => s!"\nCaused by:\n    {cause}\n"
  | causes =>
    let line (entry : String × Nat) : String := s!"    {entry.2}: {entry.1}\n"
    "\nCaused by:\n" ++ String.join (causes.zipIdx.map line)

/-- The text of the report. -/
def text (r : Report) : String := s!"Error: {r.message}\n{causeText r.causes}"

end Report
end StripAutomata.Command
