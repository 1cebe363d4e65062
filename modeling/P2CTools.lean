import P2CTools.Wire.Bytes
import P2CTools.Wire.Cursor
import P2CTools.Wire.Bounds
import P2CTools.Wire.Framing
import P2CTools.Wire.Positional
import P2CTools.Wire.Tlv
import P2CTools.Wire.Sha256
import P2CTools.Wire.Feedback
import P2CTools.Wire.Outcome
import P2CTools.Wire.Triple
import P2CTools.Wire.Feed
import P2CTools.Wire.Runs
import P2CTools.Wire.Eventually
import P2CTools.Wire.Simulation
import P2CTools.Wire.Ledger
import P2CTools.Wire.Pacing
import P2CTools.Wire.Firsts
import P2CTools.Wire.Rotation
import P2CTools.Wire.Directory
import P2CTools.Wire.Patterns
import P2CTools.Source.Errors
import P2CTools.Source.Text
import P2CTools.Source.Domain
import P2CTools.Source.Hashes
import P2CTools.Source.Protocol
import P2CTools.Source.Values
import P2CTools.Source.Json
import P2CTools.Source.Signatures
import P2CTools.Source.Envelope
import P2CTools.Source.Schema
import P2CTools.Source.Write
import P2CTools.Source.Read
import P2CTools.Source.Der
import P2CTools.Source.X509
import P2CTools.Source.Verify
import P2CTools.Source.Tls13
import P2CTools.Source.Generator
import P2CTools.Source.Cli
import P2CTools.Theory.Readers
import P2CTools.Theory.Grammar
import P2CTools.Theory.Acceptance
import P2CTools.Theory.FormatErrors
import P2CTools.Theory.Verification
import P2CTools.Theory.Framing
import P2CTools.Theory.Commitment
import P2CTools.Theory.Capture
import P2CTools.Theory.Expansion
import P2CTools.Theory.Handshake
import P2CTools.Theory.Delivery
import P2CTools.Theory.Completeness
import P2CTools.Theory.CaptureErrors
import P2CTools.Theory.Dictionary
import P2CTools.Theory.Scanning
import P2CTools.Theory.Schema
import P2CTools.Theory.RoundTrip
import P2CTools.Theory.Moves
import P2CTools.Theory.Search
import P2CTools.Theory.SearchErrors
import P2CTools.Theory.Accounting
import P2CTools.Theory.Timing
import P2CTools.Theory.Destinations
import P2CTools.Theory.Hellos
import P2CTools.Theory.Soundness
import P2CTools.Theory.Publication
import P2CTools.Theory.Elements
import P2CTools.Theory.PssKey
import P2CTools.Theory.Targets
import P2CTools.Theory.Endings
import P2CTools.Theory.Draws
import P2CTools.Theory.Json
import P2CTools.Theory.Files
import P2CTools.Theory.Commands
import P2CTools.Theory.Sessions
import P2CTools.Theory.Connections
import P2CTools.Theory.Closing
import P2CTools.Theory.Progress
import P2CTools.Theory.Policies
import P2CTools.Theory.Refusal
import P2CTools.Theory.Provenance
import P2CTools.Theory.PlainLoop
