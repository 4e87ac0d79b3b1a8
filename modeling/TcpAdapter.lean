import TcpAdapter.Concurrent.Machine
import TcpAdapter.Model.Protocol.Frame
import TcpAdapter.Model.Protocol.Messages
import TcpAdapter.Model.Queue
import TcpAdapter.Verification.Protocol.Frame
import TcpAdapter.Model.Protocol.Validation
import TcpAdapter.Model.CommandPolicy
import TcpAdapter.Model.Delivery.Actions
import TcpAdapter.Model.Delivery.Programs
import TcpAdapter.Verification.Queue
import TcpAdapter.Verification.Session
import TcpAdapter.Verification.Delivery.Frames
import TcpAdapter.Verification.Delivery.Tasks
import TcpAdapter.Verification.Delivery.Custody
import TcpAdapter.Verification.Delivery.Ledger
import TcpAdapter.Verification.Delivery.Accounts
import TcpAdapter.Verification.Delivery.Conservation
import TcpAdapter.Verification.Delivery.Durability
import TcpAdapter.Verification.Delivery.Acknowledgement
import TcpAdapter.Verification.Delivery.Restart
import TcpAdapter.Verification.Delivery.Order
import TcpAdapter.Verification.Delivery.Flush
import TcpAdapter.Verification.Delivery.ModeGate
import TcpAdapter.Verification.Delivery.Undisturbed
import TcpAdapter.Verification.Delivery.OneInFlight
import TcpAdapter.Verification.Delivery.Numbering
import TcpAdapter.Verification.Delivery.Wraparound
import TcpAdapter.Verification.Delivery.QueueMoves
import TcpAdapter.Verification.Delivery.StuckMode
import TcpAdapter.Codec.ShiftRegister
import TcpAdapter.Codec.Stream
import TcpAdapter.Model.Protocol.Reader
import TcpAdapter.Verification.Protocol.Reader
import TcpAdapter.Verification.Protocol.ErrorDetection
import TcpAdapter.Concurrent.Trace
import TcpAdapter.Verification.Delivery.Courier
import TcpAdapter.Verification.Delivery.Correlation
import TcpAdapter.Verification.Delivery.Enrolment
import TcpAdapter.Verification.Delivery.Retries
import TcpAdapter.Verification.Delivery.Clerk
import TcpAdapter.Verification.Delivery.Limits
import TcpAdapter.Verification.Delivery.Dedup
import TcpAdapter.Verification.QueueOrder
import TcpAdapter.Verification.Eviction
import TcpAdapter.Concurrent.Call
import TcpAdapter.Verification.Delivery.Enqueue
import TcpAdapter.Verification.Delivery.Rejections
import TcpAdapter.Codec.Layout
import TcpAdapter.Model.Protocol.Builders
import TcpAdapter.Verification.Protocol.Fields
import TcpAdapter.Verification.Protocol.Records
import TcpAdapter.Verification.Protocol.Texts
import TcpAdapter.Model.Restore
import TcpAdapter.Verification.Delivery.Persistence
import TcpAdapter.Verification.Delivery.Transmissions
import TcpAdapter.Model.Config
import TcpAdapter.Model.Server.Actions
import TcpAdapter.Model.Server.Programs
import TcpAdapter.Verification.Server.Duties
import TcpAdapter.Verification.Server.Accounting
import TcpAdapter.Verification.Server.Ownership
import TcpAdapter.Verification.Server.Window
import TcpAdapter.Codec.XorShift
import TcpAdapter.Verification.Backoff
import TcpAdapter.Verification.Protocol.Capacity
import TcpAdapter.Verification.Protocol.Structured
import TcpAdapter.Verification.InFlight
import TcpAdapter.Verification.Server.Calls
import TcpAdapter.Verification.Delivery.Unsaved
import TcpAdapter.Verification.Server.Rollback
import TcpAdapter.Model.Server.Debug
import TcpAdapter.Verification.Server.Expiry
import TcpAdapter.Verification.Delivery.Budget
import TcpAdapter.Concurrent.Walk
import TcpAdapter.Verification.Delivery.Survey
import TcpAdapter.Verification.Delivery.Priority
import TcpAdapter.Verification.Delivery.PutBack
import TcpAdapter.Codec.Utf8
import TcpAdapter.Verification.Protocol.Settings
import TcpAdapter.Codec.Strings
import TcpAdapter.Verification.Protocol.Registration
import TcpAdapter.Files.Directory
import TcpAdapter.Model.FileStore
import TcpAdapter.Verification.Protocol.AutoMode
import TcpAdapter.Verification.Server.Blocking
import TcpAdapter.Verification.FileStore
import TcpAdapter.Model.Server.Builder
import TcpAdapter.Verification.Server.Limit
import TcpAdapter.Verification.Server.Holidays
import TcpAdapter.Model.Server.Metrics
import TcpAdapter.Verification.Server.Metrics
import TcpAdapter.Concurrent.Locks
import TcpAdapter.Verification.Server.Locks
import TcpAdapter.Concurrent.Simulation
import TcpAdapter.Verification.Server.Refinement
import TcpAdapter.Verification.Server.Isolation
import TcpAdapter.Verification.Delivery.Drain
import TcpAdapter.Model.Protocol.Commands
import TcpAdapter.Model.Simulator
import TcpAdapter.Verification.Simulator.Dialogue
import TcpAdapter.Verification.Protocol.Commands
import TcpAdapter.Verification.Simulator.Conversation
import TcpAdapter.Model.Server.CommandBuilder
import TcpAdapter.Verification.Server.CommandBuilder
