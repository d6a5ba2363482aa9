import StripAutomata.Failure
import StripAutomata.Simulation

/-!
# Loading and running automata

`Automaton.load` reads an automaton from what a file holds.  `Automaton.run` simulates the run
that settings describe: a strip without signals but for the start signal in the first cell.  The
name of the start signal is interned into the lexicon of the automaton, so that running
gives back an automaton too; the settings are looked at first, and if they are refused, the
automaton stays as it is.
-/

namespace StripAutomata.Automaton

/-- Reads an automaton from what came of reading a file. -/
def load (contents : Except FileFault String) : Except Failure Automaton :=
  match contents with
  | .error e => .error (.file e)
  | .ok text => (parse text).mapError .text

/-- The initial strip of a run, with the automaton that knows the start signal. -/
def prepare (a : Automaton) (s : Settings) : Automaton × Except NoSuchCell Strip :=
  match s.start with
  | none => (a, .ok (.empty s.cells))
  | some name =>
    let (start, a) := a.intern name
    (a, ((Strip.empty s.cells).insert 0 start).map (·.2))

/-- Simulates the run that settings describe. -/
def run (a : Automaton) (s : Settings) : Automaton × Except Failure Diagram :=
  match s.validate with
  | .error e => (a, .error (.settings e))
  | .ok () =>
    let (a, initial) := a.prepare s
    match initial with
    | .error e => (a, .error (.cell e))
    | .ok initial => (a, (a.simulate initial s.steps).mapError .window)

end StripAutomata.Automaton
