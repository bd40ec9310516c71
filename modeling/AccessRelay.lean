import AccessRelay.Encoding.BigEndian
import AccessRelay.Machine.Run
import AccessRelay.Proto.Frame
import AccessRelay.Proto.Codec
import AccessRelay.Proto.FrameRoundTrip
import AccessRelay.Ca.Identity
import AccessRelay.Storage.Identities
import AccessRelay.Storage.Tokens
import AccessRelay.Storage.Lifecycle
import AccessRelay.Machine.Pool
import AccessRelay.Control.Enrollment
import AccessRelay.Control.Superseded
import AccessRelay.Control.Acceptance
import AccessRelay.Control.Renewal
import AccessRelay.Proto.Grant
import AccessRelay.Proto.RoundTrip
import AccessRelay.Proto.GrantLife
import AccessRelay.Control.Policy
import AccessRelay.Control.Issuance
import AccessRelay.Endpoint.Stream
import AccessRelay.Control.Login
import AccessRelay.Control.EndSession
import AccessRelay.Relay.Join
import AccessRelay.Relay.Evidence
import AccessRelay.Endpoint.Renew
import AccessRelay.Bridge.Budget
import AccessRelay.Mux.Session
import AccessRelay.Mux.Moves
import AccessRelay.Mux.Identifiers
import AccessRelay.Mux.Link
import AccessRelay.Mux.Projection
import AccessRelay.Mux.Bond
import AccessRelay.Mux.OpenFailure
import AccessRelay.Mux.FlowControl
import AccessRelay.Mux.Window
import AccessRelay.Mux.Inbound
import AccessRelay.Mux.Admission
import AccessRelay.Mux.StreamCap
import AccessRelay.Mux.Shutdown
import AccessRelay.Mux.Transport
import AccessRelay.Mux.CloseProtocol
import AccessRelay.Mux.Agreement
import AccessRelay.Mux.FrameLimit
import AccessRelay.Mux.Writing
import AccessRelay.Mux.Delivery
import AccessRelay.Mux.Transfer
import AccessRelay.Control.Evaluation
import AccessRelay.Proto.HandshakeRoundTrip
import AccessRelay.Relay.Register
import AccessRelay.Relay.Registry
import AccessRelay.Mux.Objects
import AccessRelay.Mux.Abort
import AccessRelay.Mux.GracefulEnd
import AccessRelay.Mux.WriteFrames
import AccessRelay.Mux.AcceptQueue
import AccessRelay.Mux.Answers
import AccessRelay.Mux.OpenAck
import AccessRelay.Mux.Refusal
import AccessRelay.Relay.OpenReasons
import AccessRelay.Data.Listing
import AccessRelay.Storage.Liveness
import AccessRelay.Endpoint.Deadline
import AccessRelay.Control.Lifetime
import AccessRelay.Encoding.CommandLine
import AccessRelay.Winsvc.Quote
import AccessRelay.Storage.AuditQuery
import AccessRelay.Server.AuditListing
import AccessRelay.Storage.Migrate
import AccessRelay.Storage.LegacyImport
import AccessRelay.Machine.Duplex
import AccessRelay.Mux.Handshake
import AccessRelay.Mux.KeepAlive
import AccessRelay.Data.Ledger
import AccessRelay.Go.Format
import AccessRelay.Storage.AuditTrail
import AccessRelay.Server.AuditPrune
import AccessRelay.Mux.Severed
import AccessRelay.Relay.Serve
