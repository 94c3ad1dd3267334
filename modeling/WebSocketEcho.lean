import WebSocketEcho.Ledger
import WebSocketEcho.Main
import WebSocketEcho.Report.Reader
import WebSocketEcho.Proofs.Counters
import WebSocketEcho.Proofs.Ledger.Moves
import WebSocketEcho.Proofs.Ledger.Interleaving
import WebSocketEcho.Proofs.Frame.Decoding
import WebSocketEcho.Proofs.Session.Reading
import WebSocketEcho.Proofs.Server.Clients
import WebSocketEcho.Proofs.Server.Turns
import WebSocketEcho.Proofs.Server.Passages
import WebSocketEcho.Proofs.Server.Keeping
import WebSocketEcho.Proofs.Server.Queue
import WebSocketEcho.Proofs.Server.Accounts
import WebSocketEcho.Proofs.Server.OneSession
import WebSocketEcho.Proofs.Server.Segmentation
import WebSocketEcho.Proofs.Frame.Written
import WebSocketEcho.Proofs.Utf8
import WebSocketEcho.Proofs.Server.Echo
import WebSocketEcho.Proofs.Server.Isolation
import WebSocketEcho.Proofs.Frame.Received
import WebSocketEcho.Proofs.Utf8.Accepted
import WebSocketEcho.Proofs.Session.Rules
import WebSocketEcho.Proofs.Server.Violation
import WebSocketEcho.Proofs.Http.Turns
import WebSocketEcho.Proofs.Server.Listening
import WebSocketEcho.Proofs.Server.Draining
import WebSocketEcho.Proofs.Http.HeadReading
import WebSocketEcho.Proofs.Http.Opening
import WebSocketEcho.Proofs.Server.HandOver
import WebSocketEcho.Proofs.Report.Rendered
import WebSocketEcho.Proofs.Http.StatusLine
import WebSocketEcho.Proofs.Server.OpenSessions
import WebSocketEcho.Proofs.Server.Upgrades
import WebSocketEcho.Proofs.Server.StatusPage
import WebSocketEcho.Proofs.Handshake
import WebSocketEcho.Proofs.Report.Truncated
import WebSocketEcho.Proofs.Session.Fragments
import WebSocketEcho.Proofs.Server.FragmentedText
import WebSocketEcho.Proofs.Report.Grammar
import WebSocketEcho.Proofs.Report.Tokens
import WebSocketEcho.Proofs.Report.Numbers
import WebSocketEcho.Proofs.Report.Skipped
import WebSocketEcho.Proofs.Report.Accepting
import WebSocketEcho.Proofs.Report.Language
import WebSocketEcho.Proofs.Server.Soundness
import WebSocketEcho.Proofs.Server.Moments
import WebSocketEcho.Proofs.Server.Lives
import WebSocketEcho.Proofs.Session.Endings
import WebSocketEcho.Proofs.Server.Departures
import WebSocketEcho.Proofs.Server.Notices
import WebSocketEcho.Proofs.Server.SessionLog
import WebSocketEcho.Proofs.Http.Received
import WebSocketEcho.Proofs.Http.Pipelining
import WebSocketEcho.Proofs.Server.Pipelined
import WebSocketEcho.Proofs.Bits
import WebSocketEcho.Proofs.Sha1
import WebSocketEcho.Proofs.Base64
import WebSocketEcho.Proofs.Handshake.Switching
import WebSocketEcho.Proofs.Ledger.Crowd
import WebSocketEcho.Proofs.Server.AcceptFailures
import WebSocketEcho.Proofs.Report.FirstError
import WebSocketEcho.Proofs.Session.Framing
import WebSocketEcho.Proofs.Address.Grammar
import WebSocketEcho.Proofs.Address.Numerals
import WebSocketEcho.Proofs.Address.Reading
import WebSocketEcho.Proofs.Address.Printing
import WebSocketEcho.Proofs.CommandLine.Binding
