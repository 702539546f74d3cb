import PredicateTree.Command
import PredicateTree.Command.Arguments
import PredicateTree.Diagnostic
import PredicateTree.Disk
import PredicateTree.Document
import PredicateTree.Document.Decode
import PredicateTree.Document.Encode
import PredicateTree.Document.Lowering
import PredicateTree.Document.Reader
import PredicateTree.Document.Schema
import PredicateTree.Document.Termination
import PredicateTree.Evaluator
import PredicateTree.Evaluator.Arithmetic
import PredicateTree.Evaluator.Methods
import PredicateTree.Expansion
import PredicateTree.Expr
import PredicateTree.Expr.Build
import PredicateTree.Expr.Fold
import PredicateTree.Expr.Identity
import PredicateTree.Expr.Names
import PredicateTree.Expr.Text
import PredicateTree.Json
import PredicateTree.Json.Reader
import PredicateTree.Main
import PredicateTree.Memo
import PredicateTree.MemorySource
import PredicateTree.Negation
import PredicateTree.Number.Binary64
import PredicateTree.Number.Reading
import PredicateTree.Number.Shortest
import PredicateTree.Outcome
import PredicateTree.Path
import PredicateTree.Predicate
import PredicateTree.Proofs.Command
import PredicateTree.Proofs.Document.Constants
import PredicateTree.Proofs.Document.Cycles
import PredicateTree.Proofs.Document.Depth
import PredicateTree.Proofs.Document.Lowering
import PredicateTree.Proofs.Document.Places
import PredicateTree.Proofs.Document.Reader
import PredicateTree.Proofs.Document.Records
import PredicateTree.Proofs.Document.References
import PredicateTree.Proofs.Document.RoundTrip
import PredicateTree.Proofs.Document.Safety
import PredicateTree.Proofs.Document.Scoping
import PredicateTree.Proofs.Document.Storable
import PredicateTree.Proofs.Evaluator.Arithmetic
import PredicateTree.Proofs.Evaluator.Chains
import PredicateTree.Proofs.Evaluator.Closures
import PredicateTree.Proofs.Evaluator.Comparison
import PredicateTree.Proofs.Evaluator.Likeness
import PredicateTree.Proofs.Evaluator.Operators
import PredicateTree.Proofs.Evaluator.Parts
import PredicateTree.Proofs.Evaluator.Safety
import PredicateTree.Proofs.Evaluator.Substitution
import PredicateTree.Proofs.Evaluator.Termination
import PredicateTree.Proofs.Evaluator.Values
import PredicateTree.Proofs.Expansion.Closed
import PredicateTree.Proofs.Expansion.Complete
import PredicateTree.Proofs.Expansion.Depth
import PredicateTree.Proofs.Expansion.Derivation
import PredicateTree.Proofs.Expansion.FixedPoint
import PredicateTree.Proofs.Expansion.Fuel
import PredicateTree.Proofs.Expansion.Hygiene
import PredicateTree.Proofs.Expansion.Meaning
import PredicateTree.Proofs.Expansion.Simulation
import PredicateTree.Proofs.Expansion.Termination
import PredicateTree.Proofs.Expansion.Typing
import PredicateTree.Proofs.Expr.Closed
import PredicateTree.Proofs.Expr.Fill
import PredicateTree.Proofs.Expr.Parts
import PredicateTree.Proofs.Expr.Reading
import PredicateTree.Proofs.Expr.Shape
import PredicateTree.Proofs.Expr.Walk
import PredicateTree.Proofs.Json
import PredicateTree.Proofs.Json.Reading
import PredicateTree.Proofs.Json.Written
import PredicateTree.Proofs.Memo
import PredicateTree.Proofs.MemorySource
import PredicateTree.Proofs.Negation
import PredicateTree.Proofs.Negation.Stability
import PredicateTree.Proofs.Number.Rounding
import PredicateTree.Proofs.Outcome
import PredicateTree.Proofs.Predicate.Invariant
import PredicateTree.Proofs.Predicate.Joining
import PredicateTree.Proofs.Queries
import PredicateTree.Proofs.Report
import PredicateTree.Proofs.Sharing
import PredicateTree.Proofs.Stages
import PredicateTree.Proofs.Statics
import PredicateTree.Proofs.Text.CharSet
import PredicateTree.Proofs.Ty.Grammar
import PredicateTree.Proofs.Ty.RoundTrip
import PredicateTree.Proofs.Workspace
import PredicateTree.Queries
import PredicateTree.Report
import PredicateTree.Site
import PredicateTree.Stages
import PredicateTree.Statics
import PredicateTree.Substitution
import PredicateTree.Table
import PredicateTree.Text.Alphanumeric
import PredicateTree.Text.Blank
import PredicateTree.Text.CharSet
import PredicateTree.Text.Comma
import PredicateTree.Text.Location
import PredicateTree.Text.Lowercase
import PredicateTree.Text.Printable
import PredicateTree.Text.Quoted
import PredicateTree.Trail
import PredicateTree.Ty
import PredicateTree.Ty.Parser
import PredicateTree.Workspace
