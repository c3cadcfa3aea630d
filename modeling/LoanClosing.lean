import LoanClosing.Command.Basic
import LoanClosing.Command.Demo
import LoanClosing.Command.Evaluate
import LoanClosing.Command.Help
import LoanClosing.Command.Option
import LoanClosing.Command.Process
import LoanClosing.Command.Report
import LoanClosing.Command.Run
import LoanClosing.Command.Serve
import LoanClosing.Condition.Expr
import LoanClosing.Condition.Spelling
import LoanClosing.Condition.Reader
import LoanClosing.Condition.Parser
import LoanClosing.Date
import LoanClosing.Document.Basic
import LoanClosing.Document.Expansion
import LoanClosing.Document.Marker
import LoanClosing.Document.Placeholder
import LoanClosing.Document.Processing
import LoanClosing.Document.Stored
import LoanClosing.Document.Substitution
import LoanClosing.Failure
import LoanClosing.Http.MediaType
import LoanClosing.Http.Message
import LoanClosing.Http.Route
import LoanClosing.Http.Service
import LoanClosing.Json.Basic
import LoanClosing.Json.Decode
import LoanClosing.Json.Fault
import LoanClosing.Json.Node
import LoanClosing.Json.Printer
import LoanClosing.Json.Token
import LoanClosing.Main
import LoanClosing.Merging.Bulletin
import LoanClosing.Merging.Desk
import LoanClosing.Merging.Floor
import LoanClosing.Merging.Rendering
import LoanClosing.Merging.Tracker
import LoanClosing.Model.Scope
import LoanClosing.Model.Value
import LoanClosing.Number.Binary64
import LoanClosing.Number.Decimal
import LoanClosing.Number.Floating
import LoanClosing.Package.Dispatch
import LoanClosing.Rules.Context
import LoanClosing.Rules.LoanType
import LoanClosing.Rules.Selection
import LoanClosing.Sample
import LoanClosing.Settings.Address
import LoanClosing.Settings.Basic
import LoanClosing.Settings.LogField
import LoanClosing.Settings.LogFilter
import LoanClosing.Settings.VariableFile
import LoanClosing.Table
import LoanClosing.Text.Ascii
import LoanClosing.Text.Blank
import LoanClosing.Text.Bytes
import LoanClosing.Text.CaseTable
import LoanClosing.Text.CharRange
import LoanClosing.Text.EscapeTable
import LoanClosing.Text.Letter
import LoanClosing.Text.LetterTable
import LoanClosing.Text.Lowercase
import LoanClosing.Text.Pattern
import LoanClosing.Text.Percent
import LoanClosing.Text.Quoted
import LoanClosing.Text.Utf8
import LoanClosing.Proofs.Expansion.Concat
import LoanClosing.Proofs.Expansion.Outline
import LoanClosing.Proofs.Expansion.Passes
import LoanClosing.Proofs.Placeholder.Span
import LoanClosing.Proofs.Placeholder.Substitution
import LoanClosing.Proofs.Placeholder.Joined
import LoanClosing.Proofs.Placeholder.Flat
import LoanClosing.Proofs.Placeholder.Leafwise
import LoanClosing.Proofs.Model.Texts
import LoanClosing.Proofs.Placeholder.Refill
import LoanClosing.Proofs.Expansion.Fragment
import LoanClosing.Proofs.Expansion.Origin
import LoanClosing.Proofs.Merging.Account
import LoanClosing.Proofs.Package.Dispatch
import LoanClosing.Proofs.Package.Office
import LoanClosing.Proofs.Package.Delivery
import LoanClosing.Proofs.Expansion.Reprocess
import LoanClosing.Proofs.Condition.Token
import LoanClosing.Proofs.Condition.Grammar
import LoanClosing.Proofs.Condition.Lexeme
import LoanClosing.Proofs.Condition.Reader
import LoanClosing.Proofs.Condition.Parser
import LoanClosing.Proofs.Condition.Strict
import LoanClosing.Proofs.Condition.Scan
import LoanClosing.Proofs.Merging.Verdict
import LoanClosing.Proofs.Package.AllOrNothing
import LoanClosing.Proofs.Condition.Paths
import LoanClosing.Proofs.Expansion.Written
import LoanClosing.Proofs.Expansion.Remainder
import LoanClosing.Proofs.Merging.Batch
import LoanClosing.Proofs.Merging.Ledger
import LoanClosing.Proofs.Merging.Settlement
import LoanClosing.Proofs.Merging.Interleaving
import LoanClosing.Proofs.Merging.Agreement
import LoanClosing.Proofs.Table
import LoanClosing.Proofs.Json.Token
import LoanClosing.Proofs.Json.Number
import LoanClosing.Proofs.Json.Layout
import LoanClosing.Proofs.Json.Tree
import LoanClosing.Proofs.Json.Bounds
import LoanClosing.Proofs.Json.Value
import LoanClosing.Proofs.Json.Record
import LoanClosing.Proofs.Document.Stored
import LoanClosing.Proofs.Rules.Written
import LoanClosing.Proofs.Merging.Slots
import LoanClosing.Proofs.Expansion.Defect
import LoanClosing.Proofs.Condition.Nesting
import LoanClosing.Proofs.Condition.Row
import LoanClosing.Proofs.Condition.Language
import LoanClosing.Proofs.Condition.TextEquality
import LoanClosing.Proofs.Rules.Evaluation
import LoanClosing.Proofs.Rules.Offered
import LoanClosing.Proofs.Rules.Distinct
import LoanClosing.Proofs.Rules.Grouping
import LoanClosing.Proofs.Rules.Trace
import LoanClosing.Proofs.Text.Recased
import LoanClosing.Proofs.Rules.Respelled
import LoanClosing.Proofs.Model.Order
import LoanClosing.Proofs.Condition.Comparing
import LoanClosing.Proofs.Condition.Bound
import LoanClosing.Proofs.Text.Words
import LoanClosing.Proofs.Document.Recognition
import LoanClosing.Proofs.Expansion.Unresolved
import LoanClosing.Proofs.Document.Closer
import LoanClosing.Proofs.Rules.Insertion
import LoanClosing.Proofs.Text.Parts
import LoanClosing.Proofs.Settings.Quiet
import LoanClosing.Proofs.Model.Recased
import LoanClosing.Proofs.Placeholder.Recased
import LoanClosing.Proofs.Condition.Folding
import LoanClosing.Proofs.Condition.FoldedTokens
import LoanClosing.Proofs.Condition.Recased
import LoanClosing.Proofs.Condition.Idempotent
import LoanClosing.Proofs.Model.Placing
