import CssRescale.Binary64.Bits
import CssRescale.CommandLine.Session
import CssRescale.Convert.Text
import CssRescale.Decimal.Plain
import CssRescale.Decimal.Reading
import CssRescale.Encoding.Sheet
import CssRescale.Main
import CssRescale.Proofs.Binary64.Equality
import CssRescale.Proofs.Binary64.Quotients
import CssRescale.Proofs.Binary64.Rounding
import CssRescale.Proofs.Binary64.Sign
import CssRescale.Proofs.CommandLine.Atomic
import CssRescale.Proofs.CommandLine.Flags
import CssRescale.Proofs.CommandLine.Layers
import CssRescale.Proofs.CommandLine.Recording
import CssRescale.Proofs.Convert.Congruence
import CssRescale.Proofs.Convert.Edits
import CssRescale.Proofs.Convert.InMemory
import CssRescale.Proofs.Convert.Order
import CssRescale.Proofs.Convert.Outcomes
import CssRescale.Proofs.Convert.Passes
import CssRescale.Proofs.Convert.Places
import CssRescale.Proofs.Convert.Precision
import CssRescale.Proofs.Convert.Size
import CssRescale.Proofs.Convert.Strings
import CssRescale.Proofs.Convert.Structure
import CssRescale.Proofs.Convert.TokenWise
import CssRescale.Proofs.Convert.Tokens
import CssRescale.Proofs.Decimal.Digits
import CssRescale.Proofs.Decimal.Grids
import CssRescale.Proofs.Decimal.Layout
import CssRescale.Proofs.Decimal.Nearest
import CssRescale.Proofs.Decimal.Numeral
import CssRescale.Proofs.Decimal.Shortest
import CssRescale.Proofs.Decimal.Written
import CssRescale.Proofs.Encoding.Sheet
import CssRescale.Proofs.Encoding.Utf8
import CssRescale.Proofs.Json.Number
import CssRescale.Proofs.Json.Text
import CssRescale.Proofs.Rules.Checks
import CssRescale.Proofs.Rules.Config
import CssRescale.Proofs.Rules.Grammar
import CssRescale.Proofs.Rules.Items
import CssRescale.Proofs.Rules.Values
import CssRescale.Proofs.Sheet.Blocks
import CssRescale.Proofs.Sheet.Calm
import CssRescale.Proofs.Sheet.Complete
import CssRescale.Proofs.Sheet.Contents
import CssRescale.Proofs.Sheet.Enclosed
import CssRescale.Proofs.Sheet.Exchange
import CssRescale.Proofs.Sheet.FirstRefused
import CssRescale.Proofs.Sheet.Groups
import CssRescale.Proofs.Sheet.Inert
import CssRescale.Proofs.Sheet.Outline
import CssRescale.Proofs.Sheet.Places
import CssRescale.Proofs.Sheet.Seam
import CssRescale.Proofs.Sheet.Segments
import CssRescale.Proofs.Sheet.Splice
import CssRescale.Proofs.Sheet.Unmoved
import CssRescale.Proofs.Sheet.Values
import CssRescale.Proofs.Sheet.Variants
import CssRescale.Proofs.Sheet.Written
import CssRescale.Proofs.Text.Bytes
import CssRescale.Proofs.Text.Numeral
import CssRescale.Proofs.Text.Runs
import CssRescale.Proofs.Token.Alignment
import CssRescale.Proofs.Token.Alike
import CssRescale.Proofs.Token.Fuse
import CssRescale.Proofs.Token.Kinds
import CssRescale.Proofs.Token.Literal
import CssRescale.Proofs.Token.Locality
import CssRescale.Proofs.Token.Located
import CssRescale.Proofs.Token.Matching
import CssRescale.Proofs.Token.Neighbors
import CssRescale.Proofs.Token.Number
import CssRescale.Proofs.Token.Octets
import CssRescale.Proofs.Token.Opaque
import CssRescale.Proofs.Token.Partition
import CssRescale.Proofs.Token.Problems
import CssRescale.Proofs.Token.Quoted
import CssRescale.Proofs.Token.Reached
import CssRescale.Proofs.Token.Replace
import CssRescale.Proofs.Token.Resume
import CssRescale.Proofs.Token.Run
import CssRescale.Proofs.Token.Touch
import CssRescale.Proofs.Token.Units
import CssRescale.Proofs.Value.Build
import CssRescale.Proofs.Value.Calls
import CssRescale.Proofs.Value.Entries
import CssRescale.Proofs.Value.FirstFault
import CssRescale.Proofs.Value.Measured
import CssRescale.Proofs.Value.Pieces
import CssRescale.Proofs.Value.Preorder
import CssRescale.Proofs.Value.ReadBack
import CssRescale.Proofs.Value.RoundTrip
import CssRescale.Proofs.Value.Separators
import CssRescale.Proofs.Value.Strict
import CssRescale.Proofs.Value.Urls
import CssRescale.Rules.Config
import CssRescale.Sheet.Convert
import CssRescale.Sheet.Token
import CssRescale.Text.Quoted
import CssRescale.Token.Scan
import CssRescale.Value.Build
import CssRescale.Value.Edit
import CssRescale.Value.Visit
