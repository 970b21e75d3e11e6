import RdfIndex.Bytes.Basic
import RdfIndex.Bytes.Checked
import RdfIndex.Bytes.Cursor
import RdfIndex.Bytes.Snappy
import RdfIndex.Bytes.Varint
import RdfIndex.Bytes.Words
import RdfIndex.Calendar.Date
import RdfIndex.Calendar.Label
import RdfIndex.Calendar.TimeOfDay
import RdfIndex.Calendar.ZoneOffset
import RdfIndex.Command.Arguments
import RdfIndex.Command.LogFilter
import RdfIndex.Command.Report
import RdfIndex.Command.Run
import RdfIndex.Digest.Algorithm
import RdfIndex.Digest.Blake3
import RdfIndex.Digest.Pearson
import RdfIndex.Digest.Sha2
import RdfIndex.Digest.SipHash
import RdfIndex.Digest.Truncated
import RdfIndex.Digest.Word
import RdfIndex.Digest.XxHash3
import RdfIndex.Digest.XxHash32
import RdfIndex.Digest.XxHash64
import RdfIndex.Encoding.Buffer
import RdfIndex.Encoding.Checked
import RdfIndex.Encoding.DecodeError
import RdfIndex.Encoding.Form
import RdfIndex.Encoding.Iri
import RdfIndex.Encoding.Literal
import RdfIndex.Encoding.Moment
import RdfIndex.Encoding.Tag
import RdfIndex.Encoding.Value
import RdfIndex.Error
import RdfIndex.Identifier.Basic
import RdfIndex.Identifier.Cache
import RdfIndex.Identifier.Deriver
import RdfIndex.Identifier.Lru
import RdfIndex.Identifier.Roles
import RdfIndex.Identifier.Session
import RdfIndex.Main
import RdfIndex.Number.Binary
import RdfIndex.Number.Decimal
import RdfIndex.Number.Floating
import RdfIndex.Number.Integer
import RdfIndex.Number.Numeral
import RdfIndex.Number.Shortest
import RdfIndex.Number.Total
import RdfIndex.Proofs.Bytes.Checked
import RdfIndex.Proofs.Bytes.Moves
import RdfIndex.Proofs.Bytes.Numbers
import RdfIndex.Proofs.Bytes.Order
import RdfIndex.Proofs.Bytes.Reads
import RdfIndex.Proofs.Bytes.Snappy
import RdfIndex.Proofs.Bytes.Varint
import RdfIndex.Proofs.Calendar.Characters
import RdfIndex.Proofs.Calendar.Cuts
import RdfIndex.Proofs.Calendar.Days
import RdfIndex.Proofs.Calendar.Labels
import RdfIndex.Proofs.Digest.Length
import RdfIndex.Proofs.Digest.Pearson
import RdfIndex.Proofs.Encoding.Buffer
import RdfIndex.Proofs.Encoding.Canonical
import RdfIndex.Proofs.Encoding.Checked
import RdfIndex.Proofs.Encoding.Cuts
import RdfIndex.Proofs.Encoding.Extension
import RdfIndex.Proofs.Encoding.Instants
import RdfIndex.Proofs.Encoding.Iri
import RdfIndex.Proofs.Encoding.Literal
import RdfIndex.Proofs.Encoding.Moment
import RdfIndex.Proofs.Encoding.Numbers
import RdfIndex.Proofs.Encoding.Position
import RdfIndex.Proofs.Encoding.Read
import RdfIndex.Proofs.Encoding.RoundTrip
import RdfIndex.Proofs.Encoding.Tags
import RdfIndex.Proofs.Identifier.Cache
import RdfIndex.Proofs.Identifier.Decimals
import RdfIndex.Proofs.Identifier.Minting
import RdfIndex.Proofs.Identifier.Recency
import RdfIndex.Proofs.Identifier.Roles
import RdfIndex.Proofs.Identifier.Snapshots
import RdfIndex.Proofs.Number.Denoted
import RdfIndex.Proofs.Number.Floating
import RdfIndex.Proofs.Number.Labels
import RdfIndex.Proofs.Number.Nearest
import RdfIndex.Proofs.Number.Scientific
import RdfIndex.Proofs.Number.Shortest
import RdfIndex.Proofs.Number.Written
import RdfIndex.Proofs.Results
import RdfIndex.Proofs.Statement.Cell
import RdfIndex.Proofs.Statement.Checked
import RdfIndex.Proofs.Statement.Fork
import RdfIndex.Proofs.Statement.Identity
import RdfIndex.Proofs.Statement.Parts
import RdfIndex.Proofs.Statement.Prune
import RdfIndex.Proofs.Statement.Range
import RdfIndex.Proofs.Statement.ReadBack
import RdfIndex.Proofs.Statement.Rebuilt
import RdfIndex.Proofs.Statement.Regions
import RdfIndex.Proofs.Statement.Scan
import RdfIndex.Proofs.Store.Cells
import RdfIndex.Proofs.Store.Collisions
import RdfIndex.Proofs.Store.Cuts
import RdfIndex.Proofs.Store.Forks
import RdfIndex.Proofs.Store.Lookup
import RdfIndex.Proofs.Store.Refinement
import RdfIndex.Proofs.Store.Rows
import RdfIndex.Proofs.Term.RoundTrip
import RdfIndex.Proofs.Term.Shorthand
import RdfIndex.Proofs.Term.Spacing
import RdfIndex.Proofs.Term.Spelling
import RdfIndex.Proofs.Term.Tokens
import RdfIndex.Proofs.Text.Base64Url
import RdfIndex.Proofs.Text.Places
import RdfIndex.Proofs.Text.Utf8
import RdfIndex.Proofs.Vocabulary.Collisions
import RdfIndex.Proofs.Vocabulary.Extension
import RdfIndex.Proofs.Vocabulary.Maps
import RdfIndex.Proofs.Vocabulary.References
import RdfIndex.Request
import RdfIndex.Settings.Basic
import RdfIndex.Settings.Given
import RdfIndex.Settings.Section
import RdfIndex.Statement.Cell
import RdfIndex.Statement.Checked
import RdfIndex.Statement.Fork
import RdfIndex.Statement.Layout
import RdfIndex.Statement.Pattern
import RdfIndex.Statement.Role
import RdfIndex.Store.Cells
import RdfIndex.Store.Quads
import RdfIndex.Store.Rows
import RdfIndex.Term.Basic
import RdfIndex.Term.Names
import RdfIndex.Term.OfValue
import RdfIndex.Term.Parser
import RdfIndex.Term.Printer
import RdfIndex.Term.Shorthand
import RdfIndex.Text.Alphanumeric
import RdfIndex.Text.Base64Url
import RdfIndex.Text.Blank
import RdfIndex.Text.CodePoint
import RdfIndex.Text.Hex
import RdfIndex.Text.Quoted
import RdfIndex.Text.Unprintable
import RdfIndex.Text.Utf8
import RdfIndex.Toml.Document
import RdfIndex.Toml.Item
import RdfIndex.Toml.Moment
import RdfIndex.Toml.Number
import RdfIndex.Toml.Scanner
import RdfIndex.Toml.Table
import RdfIndex.Toml.Text
import RdfIndex.Toml.Value
import RdfIndex.Vocabulary.Basic
import RdfIndex.Vocabulary.HashTable
import RdfIndex.Vocabulary.IdNamespace
import RdfIndex.Vocabulary.Maps
import RdfIndex.Vocabulary.Standard
import RdfIndex.Vocabulary.Start
