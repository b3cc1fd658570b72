import DocQuery.Text.Blank
import DocQuery.Text.Case
import DocQuery.Text.Letter
import DocQuery.Text.Search
import DocQuery.Decimal.Layout
import DocQuery.Value.Order
import DocQuery.Json.Printer
import DocQuery.Json.Reader
import DocQuery.Token.Display
import DocQuery.Token.Lexer
import DocQuery.Statement.Basic
import DocQuery.Statement.Grammar
import DocQuery.Function.Aggregate
import DocQuery.Function.Apply
import DocQuery.Query.Execution
import DocQuery.Query.Results
import DocQuery.Service
import DocQuery.Store.File
import DocQuery.Settings.Basic
import DocQuery.Main
import DocQuery.Proofs.Query.Pipeline
import DocQuery.Proofs.Query.Literal
import DocQuery.Proofs.Statement.RoundTrip
import DocQuery.Proofs.Store.Refinement
import DocQuery.Proofs.Query.Failures
import DocQuery.Proofs.Query.Totals
import DocQuery.Proofs.Store.Persistence
import DocQuery.Proofs.Query.Ordering
import DocQuery.Proofs.Query.Partition
import DocQuery.Proofs.Query.Brackets
import DocQuery.Proofs.Query.Distinct
import DocQuery.Proofs.Store.Answers
import DocQuery.Proofs.Query.EqualKeys
import DocQuery.Proofs.Query.PlainKeys
import DocQuery.Proofs.Statement.Locality
import DocQuery.Proofs.Statement.LocalClauses
import DocQuery.Proofs.Query.Formula
import DocQuery.Proofs.Cursor.Ended
import DocQuery.Proofs.Query.Ended
import DocQuery.Proofs.Query.Related
import DocQuery.Proofs.Statement.Mentions
import DocQuery.Proofs.Value.Consistency
import DocQuery.Proofs.Query.Frame
import DocQuery.Proofs.Json.Doubles
import DocQuery.Proofs.Store.Keyed
import DocQuery.Proofs.Store.Reread
import DocQuery.Proofs.Store.Grown
import DocQuery.Proofs.Query.Correlated
import DocQuery.Proofs.Query.Firsts
import DocQuery.Proofs.Query.NullKeys
import DocQuery.Proofs.Query.Membership
import DocQuery.Proofs.Statement.Spacing
import DocQuery.Proofs.Token.Offsets
import DocQuery.Proofs.Statement.Positions
import DocQuery.Proofs.Token.Writing
import DocQuery.Proofs.Function.Matching
import DocQuery.Proofs.Function.Positions
import DocQuery.Proofs.Function.Sets
import DocQuery.Proofs.Function.Words
import DocQuery.Proofs.Function.Slices
import DocQuery.Proofs.Function.Characters
import DocQuery.Proofs.Query.Origin
