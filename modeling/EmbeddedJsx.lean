import EmbeddedJsx.Cursor.Within
import EmbeddedJsx.TokenTable
import EmbeddedJsx.Report
import EmbeddedJsx.Session
import EmbeddedJsx.Json.Layout
import EmbeddedJsx.Node.Record
import EmbeddedJsx.Node.Outline
import EmbeddedJsx.Diagnostics
import EmbeddedJsx.Text.Slice
import EmbeddedJsx.Text.Utf8
import EmbeddedJsx.Files.Disk
import EmbeddedJsx.Command.Arguments
import EmbeddedJsx.Toml.Display
import EmbeddedJsx.Toml.Document
import EmbeddedJsx.Main
import EmbeddedJsx.Proofs.Lexical.Cut
import EmbeddedJsx.Proofs.Geometry.Nodes
import EmbeddedJsx.Proofs.Locality.Reparsing
import EmbeddedJsx.Proofs.Runs.Calls
import EmbeddedJsx.Proofs.Runs.Moves
import EmbeddedJsx.Proofs.Runs.Productions
import EmbeddedJsx.Proofs.Runs.Constructs
import EmbeddedJsx.Proofs.Runs.Sessions
import EmbeddedJsx.Proofs.Runs.Stopping
import EmbeddedJsx.Proofs.Locality.Prefixes
import EmbeddedJsx.Proofs.Extension.Embedding
import EmbeddedJsx.Proofs.Extension.Productions
import EmbeddedJsx.Proofs.Extension.Collecting
import EmbeddedJsx.Proofs.Extension.Parsing
import EmbeddedJsx.Proofs.Nesting.Limit
import EmbeddedJsx.Proofs.Reading.Calling
import EmbeddedJsx.Proofs.Editing.Opaque
import EmbeddedJsx.Proofs.Editing.Spacing
import EmbeddedJsx.Proofs.Editing.Comparison
import EmbeddedJsx.Proofs.Files.Writing
import EmbeddedJsx.Proofs.Command.Delivery
import EmbeddedJsx.Proofs.Command.Failures
import EmbeddedJsx.Proofs.Command.Offsets
import EmbeddedJsx.Proofs.Reporting.Block
import EmbeddedJsx.Proofs.Publishing.Publications
import EmbeddedJsx.Proofs.Naming.Mismatch
import EmbeddedJsx.Proofs.Rendering.Outline
import EmbeddedJsx.Proofs.Rendering.Record
import EmbeddedJsx.Proofs.Rendering.Table
import EmbeddedJsx.Proofs.Rendering.Rows
import EmbeddedJsx.Proofs.Reporting.Places
import EmbeddedJsx.Proofs.Json.Layout
import EmbeddedJsx.Proofs.Progress.Fuel
