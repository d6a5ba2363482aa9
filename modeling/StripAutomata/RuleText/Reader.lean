import StripAutomata.Condition.Reader
import StripAutomata.RuleText.OutputItem
import StripAutomata.RuleText.Statement
import StripAutomata.Text.Line

/-!
# Reading rule text

Conditions are scoped by indentation.  A statement closes the scopes whose indent is not smaller
than its own.  A statement with a condition opens a scope; the condition that is in force there is
the conjunction of its own with that of the scope around it.  Outputs belong to the condition in
force: a statement with outputs makes a rule, and one without a condition of its own needs a scope
around it.

Reading goes on from one statement to the next with a `Progress`: the open scopes, the rules so
far, and the largest step that an output has had.
-/

namespace StripAutomata

/-- What rule text says: its rules, in order, and the largest step of their outputs. -/
structure Listing (σ : Type) where
  rules : List (Rule σ)
  lookahead : Nat
  deriving DecidableEq

/-- The listing about another kind of signal. -/
def Listing.map {σ τ : Type} (f : σ → τ) (l : Listing σ) : Listing τ :=
  ⟨l.rules.map (Rule.map f), l.lookahead⟩

namespace RuleText

/-- A condition in force for what is indented deeper. -/
structure Scope where
  indent : Nat
  condition : Formula String
  deriving DecidableEq

/-- The scopes, innermost first, that stay open at an indent. -/
def enclosing (indent : Nat) (scopes : List Scope) : List Scope :=
  scopes.dropWhile fun scope => decide (indent ≤ scope.indent)

/-- What has been read of a text.  The last rule comes first. -/
structure Progress where
  scopes : List Scope
  rules : List (Rule String)
  lookahead : Nat

namespace Progress

/-- Nothing has been read. -/
def start : Progress := ⟨[], [], 0⟩

/-- The rules that have been read. -/
def listing (p : Progress) : Listing String := ⟨p.rules.reverse, p.lookahead⟩

/-- One more rule has been read. -/
def addRule (p : Progress) (condition : Formula String) (outputs : List (Output String)) :
    Progress :=
  ⟨p.scopes, ⟨condition, outputs⟩ :: p.rules,
    outputs.foldl (fun depth o => max depth o.step) p.lookahead⟩

end Progress

/-- The condition in force for a statement, with the scopes that are open after it. -/
def readScope (scopes : List Scope) (s : Statement) :
    Reading Fault (Formula String × List Scope) :=
  match s.condition with
  | some text => do
    let own ← Condition.readFormula text
    let condition :=
      match scopes with
      | [] => own
      | scope :: _ => .all [scope.condition, own]
    return (condition, ⟨s.indent, condition⟩ :: scopes)
  | none =>
    match scopes with
    | [] => .fail ⟨String.ofList (Text.trim s.outputs), .outputsWithoutCondition⟩
    | scope :: _ => .done (scope.condition, scopes)

/-- Reads a statement. -/
def Progress.advance (p : Progress) (s : Statement) : Reading Fault Progress := do
  let (condition, scopes) ← readScope (enclosing s.indent p.scopes) s
  let p : Progress := { p with scopes }
  if s.hasOutputs then return p.addRule condition (← readOutputs s.outputs)
  else return p

/-- Reads the statements of a list. -/
def readStatements (p : Progress) : List Statement → Reading SyntaxError Progress
  | [] => .done p
  | s :: rest => do
    let p ← (p.advance s).mapError (SyntaxError.mk s.line)
    readStatements p rest

/-- Reads rule text. -/
def read (text : String) : Reading SyntaxError (Listing String) := do
  return (← readStatements .start (statements 1 (Text.lines text.toList))).listing

end RuleText
end StripAutomata
