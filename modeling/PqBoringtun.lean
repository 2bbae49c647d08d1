import PqBoringtun.Framework.Bytes
import PqBoringtun.Framework.Outcome
import PqBoringtun.Noise.Crypto
import PqBoringtun.Noise.Packet
import PqBoringtun.Framework.Window
import PqBoringtun.Noise.Session
import PqBoringtun.Framework.Run
import PqBoringtun.Noise.ReplayWindow
import PqBoringtun.Noise.Handshake
import PqBoringtun.Noise.RateLimiter
import PqBoringtun.Noise.Tunn
import PqBoringtun.Noise.Machine
import PqBoringtun.Noise.Keys
import PqBoringtun.Noise.NonceUniqueness
import PqBoringtun.Noise.Timing
import PqBoringtun.Noise.Wire
import PqBoringtun.Noise.Completeness
import PqBoringtun.Noise.Agreement
import PqBoringtun.Noise.Sources
import PqBoringtun.Noise.Delivery
import PqBoringtun.Noise.Calls
import PqBoringtun.Noise.Initiations
import PqBoringtun.Noise.Expiry
import PqBoringtun.Noise.Hybrid
import PqBoringtun.Noise.Separation
import PqBoringtun.Noise.Pacing
import PqBoringtun.Noise.Confirmation
import PqBoringtun.Device.AllowedIps
import PqBoringtun.Device.Device
import PqBoringtun.Device.Handlers
import PqBoringtun.Device.Steps
import PqBoringtun.Noise.Indices
import PqBoringtun.Device.PeerRuns
import PqBoringtun.Device.Tables
import PqBoringtun.Device.Symbolic
import PqBoringtun.Device.Revocation
import PqBoringtun.Device.Routing
import PqBoringtun.Device.Endpoints
import PqBoringtun.Noise.Encoding
import PqBoringtun.Noise.Rejection
import PqBoringtun.Noise.Cookies
import PqBoringtun.Framework.Fifo
import PqBoringtun.Noise.Queue
import PqBoringtun.Noise.Concurrency
import PqBoringtun.Framework.Buffer
import PqBoringtun.Noise.Checked
import PqBoringtun.Noise.Panics
import PqBoringtun.Framework.Str
import PqBoringtun.Serialization
import PqBoringtun.Noise.CounterRange
import PqBoringtun.Framework.Budget
import PqBoringtun.Noise.LoadLimit
import PqBoringtun.Noise.Ownership
import PqBoringtun.Noise.Validation
import PqBoringtun.Device.Dispatch
import PqBoringtun.Framework.Loop
import PqBoringtun.Noise.Flushing
import PqBoringtun.Noise.Keepalives
import PqBoringtun.Device.Api
import PqBoringtun.Device.Scripts
import PqBoringtun.Device.Sections
import PqBoringtun.Device.IndexPeriod
import PqBoringtun.Framework.Rounding
import PqBoringtun.Noise.Loss
import PqBoringtun.Device.LastLine
import PqBoringtun.Noise.Rekeying
import PqBoringtun.Framework.Scopes
import PqBoringtun.Device.DevLock
import PqBoringtun.Device.Upgrades
import PqBoringtun.Device.EventLoop
import PqBoringtun.Device.Threads
import PqBoringtun.Device.Serving
import PqBoringtun.Framework.Epoll
import PqBoringtun.Device.EventPoll
import PqBoringtun.Device.Sockets
import PqBoringtun.Framework.Printing
import PqBoringtun.Device.Get
import PqBoringtun.Device.RoundTrip
import PqBoringtun.Framework.Batch
import PqBoringtun.Device.Receiving
import PqBoringtun.Device.Returning
import PqBoringtun.Noise.Crossing
