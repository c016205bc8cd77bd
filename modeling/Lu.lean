import Lu.Check.Agreement
import Lu.Check.Analysis
import Lu.Check.Deferred
import Lu.Check.Error
import Lu.Check.Names
import Lu.Check.Placement
import Lu.Check.Scopes
import Lu.Check.Typing
import Lu.Command.Input
import Lu.Command.Invocation
import Lu.Command.Options
import Lu.Command.Reply
import Lu.Decimal.Layout
import Lu.Decimal.Magnitude
import Lu.Decimal.Reading
import Lu.Decimal.Shortest
import Lu.Diagnostic.Basic
import Lu.Diagnostic.Code
import Lu.Diagnostic.Report
import Lu.Diagnostic.Terminal
import Lu.Interpreter
import Lu.Main
import Lu.Parse.Basic
import Lu.Parse.Error
import Lu.Parse.Grammar
import Lu.Run.CallStack
import Lu.Run.Context
import Lu.Run.Environment
import Lu.Run.Error
import Lu.Run.Eval
import Lu.Run.Machine
import Lu.Run.Natives
import Lu.Run.Operators
import Lu.Source.Lines
import Lu.Source.Search
import Lu.Source.Span
import Lu.Text.Blank
import Lu.Text.Listing
import Lu.Text.Printable
import Lu.Text.Quoted
import Lu.Token.Basic
import Lu.Token.Cursor
import Lu.Token.Error
import Lu.Token.Lexer
import Lu.Token.Listing
import Lu.Token.Scan
import Lu.Tree.Attribute
import Lu.Tree.Basic
import Lu.Tree.Listing
import Lu.Tree.Operator
import Lu.Tree.Outline
import Lu.Tree.Symbol
import Lu.Value.Basic
import Lu.Value.Listing
import Lu.Value.Type
import Lu.Proofs.Except
import Lu.Proofs.Scoping.Resolved
import Lu.Proofs.Scoping.Resolution
import Lu.Proofs.Tree.FreeNames
import Lu.Proofs.Typing.Inference
import Lu.Proofs.Check.Accepted
import Lu.Proofs.Check.Faultless
import Lu.Proofs.Parse.Completeness
import Lu.Proofs.Parse.Grammatical
import Lu.Proofs.Run.Guarantees
import Lu.Proofs.Scoping.Decision
import Lu.Proofs.Typing.Decision
import Lu.Proofs.Print.RoundTrip
import Lu.Proofs.Print.Separated
import Lu.Proofs.Run.Reuse
import Lu.Proofs.Run.Limit
import Lu.Proofs.Run.Reordering
import Lu.Proofs.Diagnostic.Places
import Lu.Proofs.Run.Confined
import Lu.Proofs.Run.Stacks
import Lu.Proofs.Run.Results
import Lu.Proofs.Token.Tiling
import Lu.Proofs.Token.Literals
import Lu.Proofs.Token.Longest
import Lu.Proofs.Parse.FirstError
import Lu.Proofs.Parse.Excerpts
import Lu.Proofs.Run.Arithmetic
import Lu.Proofs.Run.Signatures
import Lu.Proofs.Run.Texts
import Lu.Proofs.Run.Lookup
import Lu.Proofs.Parse.Progress
import Lu.Proofs.Parse.Numbering
import Lu.Proofs.Run.Mirroring
