import StripAutomata.RuleText.Interning
import StripAutomata.Signal.Set

/-!
# Automata

An automaton is a list of rules over the handles of a lexicon.  How far its rules reach follows
from them: `Automaton.reach` has the least and the greatest offset at which any rule reads or
places a signal, both with zero among them, and the largest step of an output.

`Automaton.parse` reads rule text, and `Automaton.render` writes the rules in a form that can be
read again.
-/

namespace StripAutomata

/-- Rules over the signals of a lexicon. -/
structure Automaton where
  lexicon : Lexicon
  rules : List (Rule Signal)
  deriving DecidableEq

/-- How far rules reach: in space to either side of a cell, and ahead in time. -/
structure Reach where
  least : Int
  greatest : Int
  lookahead : Nat
  deriving DecidableEq, Repr

namespace Automaton

/-- Reads rule text as an automaton. -/
def parse (text : String) : Except SyntaxError Automaton :=
  let (lexicon, outcome) := RuleText.readInto ∅ text
  outcome.map fun listing => ⟨lexicon, listing.rules⟩

/-- The offsets at which some rule reads or places a signal. -/
def offsets (a : Automaton) : List Int := a.rules.flatMap Rule.offsets

/-- The outputs of all rules. -/
def outputs (a : Automaton) : List (Output Signal) := a.rules.flatMap Rule.outputs

/-- How far the rules reach. -/
def reach (a : Automaton) : Reach where
  least := a.offsets.foldl min 0
  greatest := a.offsets.foldl max 0
  lookahead := (a.outputs.map (·.step)).foldl max 0

/-- The signals that some rule reads or places. -/
def signals (a : Automaton) : SignalSet := .ofList (a.rules.flatMap Rule.signals)

/-- The signal of a name, with the automaton that knows the name. -/
def intern (a : Automaton) (name : String) : Signal × Automaton :=
  let (s, lexicon) := a.lexicon.intern name
  (s, { a with lexicon })

/-- The rules over names. -/
def namedRules (a : Automaton) : List (Rule String) := a.rules.map (Rule.map a.lexicon.nameOf)

/-- The written form of the automaton: one rule on a line, in order. -/
def render (a : Automaton) : String := "\n".intercalate (a.namedRules.map Rule.render)

end Automaton
end StripAutomata
