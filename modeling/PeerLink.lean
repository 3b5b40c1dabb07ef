import PeerLink.Node.Session
import PeerLink.Observer.Script
import PeerLink.Settings.Reader
import PeerLink.Throttle.Session
import PeerLink.Proofs.Keyed
import PeerLink.Proofs.Throttle.Admission
import PeerLink.Proofs.Rpc.Table
import PeerLink.Proofs.Rpc.Channels
import PeerLink.Proofs.Throttle.Interleaving
import PeerLink.Proofs.Throttle.History
import PeerLink.Proofs.Throttle.Places
import PeerLink.Proofs.Throttle.Driven
import PeerLink.Proofs.Throttle.Course
import PeerLink.Proofs.Throttle.Slots
import PeerLink.Proofs.Throttle.Results
import PeerLink.Proofs.Throttle.Order
import PeerLink.Proofs.Throttle.Settling
import PeerLink.Proofs.Throttle.Alike
import PeerLink.Proofs.Throttle.Indifference
import PeerLink.Proofs.Peer.Footprint
import PeerLink.Proofs.Peer.Departure
import PeerLink.Proofs.Peer.Record
import PeerLink.Proofs.Peer.Goodbye
import PeerLink.Proofs.Peer.Work
import PeerLink.Proofs.Peer.Rest
import PeerLink.Proofs.Peer.Books
import PeerLink.Proofs.Peer.Bookkeeping
import PeerLink.Proofs.Peer.Closes
import PeerLink.Proofs.Peer.Recording
import PeerLink.Proofs.Peer.Agreement
import PeerLink.Proofs.Peer.Traffic
import PeerLink.Proofs.Peer.Requests
import PeerLink.Proofs.Peer.Answers
import PeerLink.Proofs.Node.Belongings
import PeerLink.Proofs.Node.Moves
import PeerLink.Proofs.Node.Settle
import PeerLink.Proofs.Reputation.Ledger
import PeerLink.Proofs.Reputation.Isolation
import PeerLink.Proofs.Reputation.Bans
import PeerLink.Proofs.Observer.Aftermath
import PeerLink.Proofs.Observer.Audience
import PeerLink.Proofs.Observer.Calm
import PeerLink.Proofs.Observer.Told
import PeerLink.Proofs.Peer.Endings
import PeerLink.Proofs.Peer.Parting
import PeerLink.Proofs.Reputation.Overflow
import PeerLink.Proofs.Reputation.Scores
import PeerLink.Proofs.Peer.LeaveTaking
import PeerLink.Proofs.Peer.Outcome
import PeerLink.Proofs.Peer.Alarms
import PeerLink.Proofs.Node.Rest
import PeerLink.Proofs.Node.FarewellOutcome
import PeerLink.Proofs.Peer.Verdicts
import PeerLink.Proofs.Node.Bans
import PeerLink.Proofs.Observer.Chronicle
import PeerLink.Proofs.Observer.Failures
import PeerLink.Proofs.Observer.Removals
import PeerLink.Proofs.Peer.Identification
import PeerLink.Proofs.Peer.Lane
import PeerLink.Proofs.Peer.Interference
import PeerLink.Proofs.Reputation.Penalties
import PeerLink.Proofs.Reputation.Crowding
import PeerLink.Proofs.Toml.Numeral
import PeerLink.Proofs.Toml.Line
import PeerLink.Proofs.Toml.Sheet
import PeerLink.Proofs.Settings.Written
import PeerLink.Proofs.Disconnect.Reports
import PeerLink.Proofs.Client.Classification
import PeerLink.Proofs.Rpc.Registration
import PeerLink.Proofs.Peer.Service
