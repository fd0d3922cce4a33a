import Querywright.Action
import Querywright.Adapter.Basic
import Querywright.Adapter.Postgres
import Querywright.Adapter.Sqlite
import Querywright.Adapter.Threshold
import Querywright.Builder.Change
import Querywright.Builder.Named
import Querywright.Builder.Parts
import Querywright.Builder.Select
import Querywright.Clause.Columns
import Querywright.Clause.Form
import Querywright.Clause.Row
import Querywright.Connection.Settings
import Querywright.DataSource.Basic
import Querywright.DataSource.Form
import Querywright.DataSource.Host
import Querywright.Descriptor.ConditionSet
import Querywright.Descriptor.Join
import Querywright.Descriptor.Schema
import Querywright.Dialect
import Querywright.Fault
import Querywright.Fault.Context
import Querywright.Fault.Made
import Querywright.Journal.Basic
import Querywright.Journal.Line
import Querywright.Migration.Basic
import Querywright.Migration.Script
import Querywright.Number.Binary64
import Querywright.Number.Decimal
import Querywright.Number.Numeral
import Querywright.Placeholder
import Querywright.Proofs.Clause.Cells
import Querywright.Proofs.Clause.Texts
import Querywright.Proofs.Outcome
import Querywright.Proofs.Placeholder.Lexing
import Querywright.Proofs.Placeholder.Numbering
import Querywright.Proofs.Placeholder.Written
import Querywright.Proofs.Replacement.Descriptor
import Querywright.Proofs.Replacement.Parts
import Querywright.Proofs.Replacement.Places
import Querywright.Proofs.Replacement.Rows
import Querywright.Proofs.Replacement.Select
import Querywright.Proofs.Replacement.Statement
import Querywright.Proofs.Select.Fragments
import Querywright.Proofs.Select.Inlining
import Querywright.Proofs.Select.Numbering
import Querywright.Proofs.Select.Reading
import Querywright.Proofs.Select.Written
import Querywright.Proofs.Statement.Update
import Querywright.Proofs.Statement.Upsert
import Querywright.Result.Basic
import Querywright.Result.Cursor
import Querywright.Result.Row
import Querywright.Secret.Redaction
import Querywright.Select.Compile
import Querywright.Select.Tree
import Querywright.Session.Basic
import Querywright.Session.Request
import Querywright.Session.Stream
import Querywright.Session.Transaction
import Querywright.Statement.Basic
import Querywright.Statement.Change
import Querywright.Statement.Definition
import Querywright.Statement.Form
import Querywright.Statement.Insert
import Querywright.Statement.Query
import Querywright.Statement.Select
import Querywright.Text.Basic
import Querywright.Text.Blank
import Querywright.Text.CaseTable
import Querywright.Text.Digit
import Querywright.Text.LetterCase
import Querywright.Text.Quoted
import Querywright.Text.UnprintableTable
import Querywright.Text.Utf8
import Querywright.Value.Arguments
import Querywright.Value.Basic
import Querywright.Value.Display
import Querywright.Value.Key
import Querywright.Value.Number
import Querywright.Value.Order
import Querywright.Wire.Basic
import Querywright.Proofs.Dialect.Format
import Querywright.Proofs.Placeholder.Bare
import Querywright.Proofs.Select.InOrder
import Querywright.Proofs.Placeholder.NonZero
import Querywright.Proofs.Statement.Table
import Querywright.Proofs.Statement.Insert
import Querywright.Proofs.Dialect.Sent
import Querywright.Proofs.Action
import Querywright.Proofs.Session.Recording
import Querywright.Proofs.Session.Batch
import Querywright.Proofs.Session.Control
import Querywright.Proofs.Session.Block
import Querywright.Proofs.Migration.Statements
import Querywright.Proofs.Migration.Applying
import Querywright.Proofs.Migration.Store
import Querywright.Proofs.Migration.Ledger
import Querywright.Proofs.Migration.Once
import Querywright.Proofs.Migration.Ending
import Querywright.Proofs.Adapter.Line
import Querywright.Proofs.Adapter.Reconnection
import Querywright.Proofs.Session.Nesting
import Querywright.Proofs.Statement.Spliced
import Querywright.Proofs.Adapter.Surfacing
import Querywright.Proofs.Adapter.Failures
import Querywright.Proofs.Placeholder.Pattern
import Querywright.Proofs.Placeholder.Positions
import Querywright.Proofs.Placeholder.Renumbered
import Querywright.Proofs.DataSource.Password
import Querywright.Proofs.Connection.Label
import Querywright.Proofs.Secret.Alike
import Querywright.Proofs.Adapter.Abreast
import Querywright.Proofs.Adapter.InStep
import Querywright.Proofs.Session.Tasks
import Querywright.Proofs.Session.Secrecy
import Querywright.Proofs.Dialect.Unnamed
import Querywright.Proofs.Migration.Splitting
import Querywright.Proofs.Select.Pieces
import Querywright.Proofs.Select.Matching
import Querywright.Proofs.Select.Carried
import Querywright.Proofs.Select.Anywhere
import Querywright.Proofs.Select.Counting
import Querywright.Proofs.Descriptor.Fieldwise
import Querywright.Proofs.Placeholder.Interchange
import Querywright.Proofs.Bounds.Likeness
import Querywright.Proofs.Bounds.Zeros
import Querywright.Proofs.Bounds.Strict
import Querywright.Proofs.Value.Lookup
import Querywright.Proofs.Value.Merging
import Querywright.Proofs.Builder.Chaining
import Querywright.Proofs.Builder.Rows
import Querywright.Proofs.Descriptor.Mapping
import Querywright.Proofs.Descriptor.Options
import Querywright.Proofs.Session.Paging
import Querywright.Proofs.Session.Streaming
import Querywright.Proofs.Adapter.Silence
import Querywright.Proofs.Session.Hearing
import Querywright.Proofs.Adapter.Release
import Querywright.Proofs.Text.Utf8
import Querywright.Proofs.DataSource.Form
import Querywright.Proofs.DataSource.Reading
import Querywright.Proofs.DataSource.Secrets
import Querywright.Proofs.DataSource.Authority
import Querywright.Proofs.DataSource.Redaction
import Querywright.Proofs.Result.Doubles
import Querywright.Proofs.Connection.Splitting
import Querywright.Proofs.Connection.Refusal
import Querywright.Proofs.Adapter.Opening
import Querywright.Proofs.Connection.Precedence
import Querywright.Proofs.Connection.Target
import Querywright.Proofs.Placeholder.Concatenation
import Querywright.Proofs.Secret.Spelling
