import ScopeScript.CommandLine.Arguments
import ScopeScript.CommandLine.Command
import ScopeScript.CommandLine.Path
import ScopeScript.Datum.Basic
import ScopeScript.Datum.Key
import ScopeScript.Datum.Stored
import ScopeScript.Entries
import ScopeScript.Error
import ScopeScript.Eval.Machine
import ScopeScript.Eval.Operator
import ScopeScript.Eval.Property
import ScopeScript.Eval.Run
import ScopeScript.Host.Adapter
import ScopeScript.Host.Basic
import ScopeScript.Host.Comparison
import ScopeScript.Host.Conversion
import ScopeScript.Interpreter
import ScopeScript.Json.Basic
import ScopeScript.Json.Reader
import ScopeScript.Json.Writer
import ScopeScript.Main
import ScopeScript.Number.Arithmetic
import ScopeScript.Number.Binary64
import ScopeScript.Number.Decimal
import ScopeScript.Number.Reading
import ScopeScript.Number.Text
import ScopeScript.Proofs.CommandLine.Place
import ScopeScript.Proofs.CommandLine.Reading
import ScopeScript.Proofs.CommandLine.StoredRun
import ScopeScript.Proofs.Eval.Activity
import ScopeScript.Proofs.Eval.Annotations
import ScopeScript.Proofs.Eval.Arithmetic
import ScopeScript.Proofs.Eval.Arrangement
import ScopeScript.Proofs.Eval.CallFree
import ScopeScript.Proofs.Eval.Closed
import ScopeScript.Proofs.Eval.ClosedRun
import ScopeScript.Proofs.Eval.Comparison
import ScopeScript.Proofs.Eval.Concatenation
import ScopeScript.Proofs.Eval.Conduct
import ScopeScript.Proofs.Eval.ConductRun
import ScopeScript.Proofs.Eval.Confined
import ScopeScript.Proofs.Eval.Declarations
import ScopeScript.Proofs.Eval.Defects
import ScopeScript.Proofs.Eval.Failures
import ScopeScript.Proofs.Eval.HostWrites
import ScopeScript.Proofs.Eval.LexicalScope
import ScopeScript.Proofs.Eval.LogLevels
import ScopeScript.Proofs.Eval.MinusSign
import ScopeScript.Proofs.Eval.Moments
import ScopeScript.Proofs.Eval.Operator
import ScopeScript.Proofs.Eval.Origin
import ScopeScript.Proofs.Eval.Outcome
import ScopeScript.Proofs.Eval.Paired
import ScopeScript.Proofs.Eval.PairedRun
import ScopeScript.Proofs.Eval.PrintedLiterals
import ScopeScript.Proofs.Eval.Proper
import ScopeScript.Proofs.Eval.ReadBack
import ScopeScript.Proofs.Eval.Rendered
import ScopeScript.Proofs.Eval.ReturnedExpression
import ScopeScript.Proofs.Eval.ScriptValues
import ScopeScript.Proofs.Eval.TwinRun
import ScopeScript.Proofs.Grammar.Budget
import ScopeScript.Proofs.Grammar.Complete
import ScopeScript.Proofs.Grammar.Derivation
import ScopeScript.Proofs.Grammar.EarliestError
import ScopeScript.Proofs.Grammar.Exact
import ScopeScript.Proofs.Grammar.Predictive
import ScopeScript.Proofs.Grammar.PredictiveParser
import ScopeScript.Proofs.Grammar.Progress
import ScopeScript.Proofs.Grammar.Sound
import ScopeScript.Proofs.Grammar.Taking
import ScopeScript.Proofs.Grammar.Unique
import ScopeScript.Proofs.Host.Annotations
import ScopeScript.Proofs.Host.References
import ScopeScript.Proofs.Host.Slots
import ScopeScript.Proofs.Json.RoundTrip
import ScopeScript.Proofs.Number.HalfEven
import ScopeScript.Proofs.Number.Order
import ScopeScript.Proofs.Number.Representable
import ScopeScript.Proofs.Number.Rounding
import ScopeScript.Proofs.Number.Shown
import ScopeScript.Proofs.Number.Value
import ScopeScript.Proofs.Scope.Growth
import ScopeScript.Proofs.Scope.Holding
import ScopeScript.Proofs.Scope.Resolution
import ScopeScript.Proofs.Scope.Territory
import ScopeScript.Proofs.Scope.Twin
import ScopeScript.Proofs.Source.Arrangement
import ScopeScript.Proofs.Source.FixedPoint
import ScopeScript.Proofs.Source.Lexing
import ScopeScript.Proofs.Source.Numeral
import ScopeScript.Proofs.Source.Partition
import ScopeScript.Proofs.Source.RoundTrip
import ScopeScript.Proofs.Source.Serialized
import ScopeScript.Proofs.Source.Spelling
import ScopeScript.Proofs.Tree.Literals
import ScopeScript.Proofs.Tree.OutOfScope
import ScopeScript.Proofs.Tree.Parsed
import ScopeScript.Proofs.Tree.Plain
import ScopeScript.Proofs.Tree.Storable
import ScopeScript.Proofs.Tree.StoredRoundTrip
import ScopeScript.Proofs.Tree.StoredScript
import ScopeScript.Proofs.Tree.WellFormed
import ScopeScript.Scope
import ScopeScript.Text.Blank
import ScopeScript.Text.Digit
import ScopeScript.Text.Escaped
import ScopeScript.Text.Hidden
import ScopeScript.Text.Margin
import ScopeScript.Text.Quoted
import ScopeScript.Token.Basic
import ScopeScript.Token.Lexer
import ScopeScript.Tree.Agreement
import ScopeScript.Tree.Basic
import ScopeScript.Tree.Parser
import ScopeScript.Tree.Printer
import ScopeScript.Tree.Stored
import ScopeScript.Value
