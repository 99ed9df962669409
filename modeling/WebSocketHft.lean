import WebSocketHft.Shared.Memory
import WebSocketHft.Shared.Circular
import WebSocketHft.Shared.Fifo
import WebSocketHft.Shared.BigEndian
import WebSocketHft.Shared.Substring
import WebSocketHft.Shared.Scan
import WebSocketHft.Shared.Base64
import WebSocketHft.Shared.Runs
import WebSocketHft.Shared.Positions
import WebSocketHft.Shared.Watchdog
import WebSocketHft.Shared.Beats
import WebSocketHft.Shared.Rolling
import WebSocketHft.Shared.Repeats
import WebSocketHft.Shared.Rates
import WebSocketHft.Shared.Throttle
import WebSocketHft.Shared.Fragments
import WebSocketHft.Shared.Ownership
import WebSocketHft.Model.Ringbuffer
import WebSocketHft.Model.Spsc
import WebSocketHft.Model.SpscBatch
import WebSocketHft.Model.ParserNeon
import WebSocketHft.Model.Json
import WebSocketHft.Model.IoKqueue
import WebSocketHft.Model.Timestamps
import WebSocketHft.Model.Ssl
import WebSocketHft.Model.WebSocket
import WebSocketHft.Model.Observability
import WebSocketHft.Model.Frames
import WebSocketHft.Model.Reconnect
import WebSocketHft.Model.Url
import WebSocketHft.Model.Handshake
import WebSocketHft.Model.Process
import WebSocketHft.Model.Api
import WebSocketHft.Model.Allocations
import WebSocketHft.Verification.Ringbuffer.Equations
import WebSocketHft.Verification.Ringbuffer.Refinement
import WebSocketHft.Verification.Ringbuffer.Interleaving
import WebSocketHft.Verification.Ringbuffer.ZeroCopy
import WebSocketHft.Verification.Ringbuffer.Batch
import WebSocketHft.Verification.Ringbuffer.BatchInterleaving
import WebSocketHft.Verification.Ringbuffer.BatchRuns
import WebSocketHft.Verification.Tls.Receive
import WebSocketHft.Verification.Parser.Equations
import WebSocketHft.Verification.Parser.Bounds
import WebSocketHft.Verification.Parser.Wire
import WebSocketHft.Verification.Parser.Exactness
import WebSocketHft.Verification.Json.Search
import WebSocketHft.Verification.Json.Bounds
import WebSocketHft.Verification.Json.Objects
import WebSocketHft.Verification.Json.Fields
import WebSocketHft.Verification.Frames.Separation
import WebSocketHft.Verification.Frames.Semantics
import WebSocketHft.Verification.Frames.Quiet
import WebSocketHft.Verification.Frames.Stream
import WebSocketHft.Verification.Frames.Delivery
import WebSocketHft.Verification.Frames.Placement
import WebSocketHft.Verification.Sockets.Registry
import WebSocketHft.Verification.Sockets.Cleanup
import WebSocketHft.Verification.Runs.Stages
import WebSocketHft.Verification.Runs.Moves
import WebSocketHft.Verification.Runs.Connecting
import WebSocketHft.Verification.Frames.Aside
import WebSocketHft.Verification.Frames.Alignment
import WebSocketHft.Verification.Frames.Closing
import WebSocketHft.Verification.Runs.States
import WebSocketHft.Verification.Runs.Silence
import WebSocketHft.Verification.Transmit.Offers
import WebSocketHft.Verification.Transmit.Calls
import WebSocketHft.Verification.Transmit.Encodings
import WebSocketHft.Verification.Transmit.Runs
import WebSocketHft.Verification.Transmit.Masking
import WebSocketHft.Verification.Sockets.Ownership
import WebSocketHft.Verification.Handshake.Response
import WebSocketHft.Verification.Handshake.Verdict
import WebSocketHft.Verification.Handshake.Reads
import WebSocketHft.Verification.Handshake.Acceptance
import WebSocketHft.Verification.Handshake.Cuts
import WebSocketHft.Verification.Runs.Callbacks
import WebSocketHft.Verification.Handshake.Rejection
import WebSocketHft.Verification.Handshake.Request
import WebSocketHft.Verification.Handshake.Url
import WebSocketHft.Verification.Runs.Resources
import WebSocketHft.Verification.Frames.Errors
import WebSocketHft.Verification.Frames.Receiving
import WebSocketHft.Verification.Frames.Following
import WebSocketHft.Verification.Frames.Endings
import WebSocketHft.Verification.Frames.Draining
import WebSocketHft.Verification.Frames.Messages
import WebSocketHft.Verification.Transmit.RoundTrip
import WebSocketHft.Verification.Transmit.Outgoing
import WebSocketHft.Verification.Transmit.Backlog
import WebSocketHft.Verification.Transmit.EndToEnd
import WebSocketHft.Verification.Runs.Standing
import WebSocketHft.Verification.Runs.Registrations
import WebSocketHft.Verification.Runs.Heartbeat
import WebSocketHft.Verification.Runs.Timeouts
import WebSocketHft.Verification.Runs.Reconnection
import WebSocketHft.Verification.Runs.Actions
import WebSocketHft.Verification.Runs.Ledger
import WebSocketHft.Verification.Runs.Opening
import WebSocketHft.Verification.Runs.Allocations
import WebSocketHft.Verification.Runs.Releases
import WebSocketHft.Verification.Observability.Latency
import WebSocketHft.Verification.Observability.Health
import WebSocketHft.Verification.Observability.Timestamps
import WebSocketHft.Verification.Observability.Accounts
import WebSocketHft.Verification.Observability.Reports
