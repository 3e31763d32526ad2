import Descent.Action
import Descent.Binary64.Basic
import Descent.Binary64.Shortest
import Descent.Binary64.Written
import Descent.Call
import Descent.Character.Blank
import Descent.Character.Case
import Descent.Character.Letter
import Descent.Character.Numeral
import Descent.Character.Printable
import Descent.Character.Span
import Descent.Description
import Descent.Description.Build
import Descent.Diagnostic
import Descent.Event
import Descent.Expectation
import Descent.Fault
import Descent.Main
import Descent.Ordered
import Descent.Parser
import Descent.Parser.Combinators
import Descent.Parser.Outcome
import Descent.Parser.Run
import Descent.Pattern
import Descent.Pattern.Matcher
import Descent.Pattern.Node
import Descent.Pattern.Reader
import Descent.Pattern.Standard
import Descent.Position
import Descent.Predicate
import Descent.Reader
import Descent.Reader.Arithmetic
import Descent.Reader.Json
import Descent.Reader.Json.Printer
import Descent.Reader.Json.Token
import Descent.Reader.Lisp
import Descent.Repetition
import Descent.Reply
import Descent.Session
import Descent.Text
import Descent.Text.Digits
import Descent.Text.Lower
import Descent.Text.Quoted
import Descent.Value
import Descent.Value.Callback
import Descent.Value.Equality
import Descent.Value.Integer
import Descent.Value.Number
import Descent.Value.Printer
import Descent.World
import Descent.Proofs.Carrier
import Descent.Proofs.FailureLog
import Descent.Proofs.Pattern.Language
import Descent.Proofs.Primitive
import Descent.Proofs.Ensures
import Descent.Proofs.Faithful
import Descent.Proofs.ReplyInvariant
import Descent.Proofs.Locating
import Descent.Proofs.Listing
import Descent.Proofs.Outcome
import Descent.Proofs.Comparison
import Descent.Proofs.Likeness
import Descent.Proofs.Alike
import Descent.Proofs.Building
import Descent.Proofs.Lineage
import Descent.Proofs.Memory
import Descent.Proofs.SetUp
import Descent.Proofs.History
import Descent.Proofs.Frame
import Descent.Proofs.Reference
import Descent.Proofs.Arrival
import Descent.Proofs.LifeCycle
import Descent.Proofs.Settling
import Descent.Proofs.Turns
import Descent.Proofs.Termination
import Descent.Proofs.Pattern.Taking
import Descent.Proofs.Grammar.Reading
import Descent.Proofs.Grammar.Yield
import Descent.Proofs.Grammar.Recursion
import Descent.Proofs.Grammar.Token
import Descent.Proofs.Grammar.Json.Token
import Descent.Proofs.Grammar.Json.Document
import Descent.Proofs.Grammar.Arithmetic.Rules
import Descent.Proofs.Grammar.Arithmetic.Token
import Descent.Proofs.Grammar.Arithmetic.Derivation
import Descent.Proofs.Grammar.Arithmetic.Calculation
import Descent.Proofs.Grammar.Lisp.Token
import Descent.Proofs.Grammar.Lisp.Expression
import Descent.Proofs.Grammar.Conclusion
import Descent.Proofs.Grammar.Totality
import Descent.Proofs.Across
import Descent.Proofs.Knot
import Descent.Proofs.Revision
import Descent.Proofs.Wording
import Descent.Proofs.Rephrasing
import Descent.Proofs.Builder
import Descent.Proofs.Scope
import Descent.Proofs.Verbatim
import Descent.Proofs.Inert
import Descent.Proofs.Shift
import Descent.Proofs.Parallel
import Descent.Proofs.Tracing
import Descent.Proofs.Transparency
import Descent.Proofs.Placeless
import Descent.Proofs.Forward
import Descent.Proofs.Portable
import Descent.Proofs.Standing
import Descent.Proofs.Binding
import Descent.Proofs.Merging
import Descent.Proofs.Course
import Descent.Proofs.MonadLaws
import Descent.Proofs.Sequencing
import Descent.Proofs.Stateless
import Descent.Proofs.Repeating
import Descent.Proofs.Equivalence
import Descent.Proofs.Marking
import Descent.Proofs.Stretches
import Descent.Proofs.Regrouping
import Descent.Proofs.Operators
import Descent.Proofs.Chaining
import Descent.Proofs.Pairing
import Descent.Proofs.Separating
import Descent.Proofs.Until
import Descent.Proofs.Bracketing
