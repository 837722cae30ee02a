import Snooping.Agent.Basic
import Snooping.Channel
import Snooping.Classifier
import Snooping.Config.Basic
import Snooping.Config.Encoding
import Snooping.Config.Reading
import Snooping.Control.Command
import Snooping.Control.Server
import Snooping.Counter
import Snooping.EventLoop
import Snooping.Expectation
import Snooping.Expiry.Drain
import Snooping.Expiry.Queue
import Snooping.Fault
import Snooping.Json.Basic
import Snooping.Json.Decode
import Snooping.Json.Escape
import Snooping.Json.Reader
import Snooping.Json.Writer
import Snooping.Json5.Basic
import Snooping.Json5.Decode
import Snooping.Json5.Reader
import Snooping.Key
import Snooping.Log.Buffer
import Snooping.Log.Consumer
import Snooping.Log.Entry
import Snooping.Log.Facility
import Snooping.Log.Line
import Snooping.Log.Registry
import Snooping.Log.Severity
import Snooping.Log.Timestamp
import Snooping.Main
import Snooping.Net.Checksum
import Snooping.Net.Datagram
import Snooping.Net.Frame
import Snooping.Net.Igmp
import Snooping.Net.Ipv4
import Snooping.Net.Ipv6
import Snooping.Net.Mac
import Snooping.Net.Pim
import Snooping.Net.SocketAddress
import Snooping.Outcome
import Snooping.PortGroup
import Snooping.Proofs.Absorption
import Snooping.Proofs.Accounts
import Snooping.Proofs.Addresses
import Snooping.Proofs.Agreement
import Snooping.Proofs.Bounds
import Snooping.Proofs.Carries
import Snooping.Proofs.Checksum
import Snooping.Proofs.Classification
import Snooping.Proofs.Clock
import Snooping.Proofs.Datagram
import Snooping.Proofs.Deadline
import Snooping.Proofs.Decision
import Snooping.Proofs.Decoding
import Snooping.Proofs.Delivery
import Snooping.Proofs.Drain
import Snooping.Proofs.Edits
import Snooping.Proofs.Egress
import Snooping.Proofs.Engines
import Snooping.Proofs.Expectation
import Snooping.Proofs.Figures
import Snooping.Proofs.Framing
import Snooping.Proofs.Grammar
import Snooping.Proofs.Handing
import Snooping.Proofs.History
import Snooping.Proofs.Intervals
import Snooping.Proofs.Json5Text
import Snooping.Proofs.JsonText
import Snooping.Proofs.Lateness
import Snooping.Proofs.Ledger
import Snooping.Proofs.Masking
import Snooping.Proofs.Notices
import Snooping.Proofs.Outright
import Snooping.Proofs.Overtaking
import Snooping.Proofs.Positions
import Snooping.Proofs.Presence
import Snooping.Proofs.Queue
import Snooping.Proofs.Reading
import Snooping.Proofs.Recognition
import Snooping.Proofs.Reconciliation
import Snooping.Proofs.Registration
import Snooping.Proofs.Reload
import Snooping.Proofs.Roster
import Snooping.Proofs.Rounds
import Snooping.Proofs.Sending
import Snooping.Proofs.Serialization
import Snooping.Proofs.Statistics
import Snooping.Proofs.Steps
import Snooping.Proofs.Transmission
import Snooping.Proofs.Ways
import Snooping.Proofs.Wire
import Snooping.Rows
import Snooping.Run
import Snooping.Table.Error
import Snooping.Table.Field
import Snooping.Table.Id
import Snooping.Table.InPlace
import Snooping.Table.Reading
import Snooping.Table.Request
import Snooping.Text.Ascii
import Snooping.Text.Blank
import Snooping.Text.Decimal
import Snooping.Text.Hex
import Snooping.Text.Letter
import Snooping.Text.Mark
import Snooping.Text.Rounding
import Snooping.Text.Truncate
import Snooping.Text.Utf8
import Snooping.Timeout
import Snooping.Trace
import Snooping.Transmission
import Snooping.Wire.Field
import Snooping.Wire.Outbound
import Snooping.Wire.Table
import Snooping.Proofs.Corruption
import Snooping.Proofs.MacText
import Snooping.Proofs.Relevance
import Snooping.Proofs.Interleaving
import Snooping.Proofs.Cursor
import Snooping.Proofs.Logging
import Snooping.Proofs.Truncation
import Snooping.Proofs.Handlers
import Snooping.Proofs.Session
import Snooping.Proofs.Transcript
