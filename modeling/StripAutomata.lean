import StripAutomata.Command.Directory
import StripAutomata.Diagram.Json
import StripAutomata.Main
import StripAutomata.Proofs.Item.Words
import StripAutomata.Proofs.Condition.Grammar
import StripAutomata.Proofs.Condition.Reading
import StripAutomata.Proofs.Formula.Normal
import StripAutomata.Proofs.Formula.Written
import StripAutomata.Proofs.Formula.Map
import StripAutomata.Proofs.RuleText.Written
import StripAutomata.Proofs.Lexicon
import StripAutomata.Proofs.RuleText.RoundTrip
import StripAutomata.Proofs.RuleText.Invariant
import StripAutomata.Proofs.Automaton.RoundTrip
import StripAutomata.Proofs.Formula.Truth
import StripAutomata.Proofs.Simulation.Firing
import StripAutomata.Proofs.Automaton.Reach
import StripAutomata.Proofs.Simulation.Run
import StripAutomata.Proofs.Simulation.Snapshot
import StripAutomata.Proofs.Simulation.Totality
import StripAutomata.Proofs.Simulation.Horizon
import StripAutomata.Proofs.Simulation.LightCone
import StripAutomata.Proofs.RuleText.Refusal
import StripAutomata.Proofs.RuleText.Scoping
import StripAutomata.Proofs.Formula.Builders
import StripAutomata.Proofs.RuleText.Concatenation
import StripAutomata.Proofs.Simulation.Silent
import StripAutomata.Proofs.Simulation.Naming
import StripAutomata.Proofs.Formula.Legible
import StripAutomata.Proofs.RuleText.Rewriting
import StripAutomata.Proofs.Automaton.Shown
import StripAutomata.Proofs.Json.Lexeme
import StripAutomata.Proofs.Json.RoundTrip
import StripAutomata.Proofs.Settings.RoundTrip
import StripAutomata.Proofs.Command.Directory
import StripAutomata.Proofs.Command.Session
import StripAutomata.Proofs.Command.Stored
import StripAutomata.Proofs.Simulation.Resumption
import StripAutomata.Proofs.Simulation.RuleOrder
import StripAutomata.Proofs.Command.Confinement
import StripAutomata.Proofs.Command.Loading
import StripAutomata.Proofs.Simulation.Trial
import StripAutomata.Proofs.Simulation.Monotone
import StripAutomata.Proofs.Simulation.Past
import StripAutomata.Proofs.Condition.Beginning
import StripAutomata.Proofs.RuleText.Acceptance
import StripAutomata.Proofs.Text.Blanks
import StripAutomata.Proofs.RuleText.Layout
import StripAutomata.Proofs.Item.Parts
import StripAutomata.Proofs.Chart.Names
import StripAutomata.Proofs.Chart.Grid
import StripAutomata.Proofs.Automaton.Calls
import StripAutomata.Proofs.Automaton.Resolution
import StripAutomata.Proofs.Automaton.Bounds
import StripAutomata.Proofs.Decoding
import StripAutomata.Proofs.Chart.Export
import StripAutomata.Proofs.Json.Decode
import StripAutomata.Proofs.Diagram.RoundTrip
import StripAutomata.Proofs.Command.Arguments
import StripAutomata.Proofs.Command.RunLine
import StripAutomata.Proofs.Command.Precedence
import StripAutomata.Proofs.Formula.Consultation
import StripAutomata.Proofs.Lexicon.Indexed
import StripAutomata.Proofs.Strip.Window
import StripAutomata.Proofs.Condition.Units
