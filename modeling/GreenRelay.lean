import GreenRelay.Lib.Scripted
import GreenRelay.Lib.Text
import GreenRelay.Lib.Unicode
import GreenRelay.Sms.Encoding
import GreenRelay.Sms.Segment
import GreenRelay.Sms.Wire
import GreenRelay.Modem.Protocol
import GreenRelay.Modem.Manager
import GreenRelay.Modem.Rules
import GreenRelay.Modem.CommandMode
import GreenRelay.Modem.Alphabet
import GreenRelay.Modem.Inbound
import GreenRelay.Modem.Attribution
import GreenRelay.Modem.Pending
import GreenRelay.Outbound.Model
import GreenRelay.Outbound.Steps
import GreenRelay.Outbound.Outstanding
import GreenRelay.Outbound.Apart
import GreenRelay.Outbound.Resend
import GreenRelay.Outbound.Terminal
import GreenRelay.Auth.Keys
import GreenRelay.Auth.Tasks
import GreenRelay.Auth.Revocation
import GreenRelay.Lib.Histories
import GreenRelay.Admin.LoginTracker
import GreenRelay.Admin.Tracking
import GreenRelay.Admin.Login
import GreenRelay.Admin.Throttle
import GreenRelay.Outbound.Counters
import GreenRelay.Modem.Readiness
import GreenRelay.Modem.Reconnect
import GreenRelay.Modem.Attempts
import GreenRelay.Modem.Resubmission
import GreenRelay.Modem.Delivery
import GreenRelay.Lib.Cache
import GreenRelay.Limiter.RateLimit
import GreenRelay.Limiter.Eviction
import GreenRelay.Modem.StoredMessage
import GreenRelay.Modem.Fidelity
import GreenRelay.Lib.Relational
import GreenRelay.Modem.Device
import GreenRelay.Modem.SideBySide
import GreenRelay.Modem.Steering
import GreenRelay.Lib.Arrivals
import GreenRelay.Limiter.SlidingWindow
import GreenRelay.Sms.Parts
import GreenRelay.Admin.Expiry
import GreenRelay.Admin.Portal
import GreenRelay.Admin.Gate
import GreenRelay.Storage.Migrations
import GreenRelay.Events.Stream
import GreenRelay.Modem.Submission
import GreenRelay.Lib.Buffered
import GreenRelay.Lib.Lossy
import GreenRelay.Modem.SerialPort
import GreenRelay.Modem.Echo
import GreenRelay.Outbound.Refusals
import GreenRelay.Modem.Rounds
import GreenRelay.Lib.Packing
import GreenRelay.Sms.Cuts
import GreenRelay.Modem.DetailedHeader
import GreenRelay.Admin.Saturation
import GreenRelay.Limiter.RetryAfter
import GreenRelay.Modem.Framing
import GreenRelay.Lib.Rfc3339
import GreenRelay.Lib.Query
import GreenRelay.Storage.Timestamps
import GreenRelay.Api.Status
import GreenRelay.Modem.Snapshot
import GreenRelay.Lib.Total
import GreenRelay.Modem.MessageStore
import GreenRelay.Modem.Drain
import GreenRelay.Lib.Quoted
import GreenRelay.Modem.Fields
import GreenRelay.Modem.Verdicts
import GreenRelay.Admin.LoginHandlers
import GreenRelay.Admin.Unfinished
import GreenRelay.Admin.Cookie
import GreenRelay.Events.Blocks
import GreenRelay.Admin.Dashboard
import GreenRelay.Api.Send
import GreenRelay.Admin.Pages
import GreenRelay.Lib.Progress
import GreenRelay.Outbound.Progress
import GreenRelay.Outbound.Responses
import GreenRelay.Outbound.Backlog
import GreenRelay.Events.Bus
import GreenRelay.Api.Gateway
import GreenRelay.Modem.Requests
import GreenRelay.Outbound.Joint
import GreenRelay.Api.Inbound
import GreenRelay.Outbound.Shutdown
import GreenRelay.Modem.Condition
import GreenRelay.Client.Agreement
import GreenRelay.Client.Readback
