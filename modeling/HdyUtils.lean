import HdyUtils.Lib.Trace
import HdyUtils.Lib.Sums
import HdyUtils.Lib.Runs
import HdyUtils.Lib.Tilings
import HdyUtils.Lib.Complements
import HdyUtils.Lib.Text
import HdyUtils.Lib.Tables
import HdyUtils.Lib.Calendar
import HdyUtils.Lib.CalendarBack
import HdyUtils.Lib.Sublists
import HdyUtils.Ltp.Range
import HdyUtils.Ltp.RangeUnion
import HdyUtils.Ltp.RangePartition
import HdyUtils.Ltp.SdnvWord
import HdyUtils.Ltp.Segment.Canonical
import HdyUtils.Ltp.Engine.Config
import HdyUtils.Ltp.Engine.Timer
import HdyUtils.Ltp.Engine.Session
import HdyUtils.Ltp.SparseQuota
import HdyUtils.Ltp.Engine.Step
import HdyUtils.Ltp.Engine.SendMove
import HdyUtils.Ltp.Isolation
import HdyUtils.Ltp.Completion
import HdyUtils.Ltp.Addressees
import HdyUtils.Ltp.Terminal
import HdyUtils.Ltp.Bounds
import HdyUtils.Ltp.CancelOutput
import HdyUtils.Ltp.WireOutput
import HdyUtils.Ltp.Delivery
import HdyUtils.Ltp.Retransmission
import HdyUtils.Ltp.ReportSerials
import HdyUtils.Ltp.ReportClaims
import HdyUtils.Ltp.ReportLimit
import HdyUtils.Ltp.Colouring
import HdyUtils.Cla.KissReader
import HdyUtils.Cla.Transfers
import HdyUtils.Cla.GreenBlocks
import HdyUtils.Cla.TncPadding
import HdyUtils.Ltp.Restarts
import HdyUtils.Cla.SharedChannel
import HdyUtils.Ltp.Engine.Frame
import HdyUtils.Ltp.Engine.Slices
import HdyUtils.Hqfbp.Eviction
import HdyUtils.Hqfbp.Completion
import HdyUtils.Hqfbp.Driver
import HdyUtils.Hqfbp.Forwarding
import HdyUtils.Mercury.Registration
import HdyUtils.Mercury.Replies
import HdyUtils.Mercury.Addressed
import HdyUtils.Mercury.Framing
import HdyUtils.Bibe.Decapsulate
import HdyUtils.Basket.Isolation
import HdyUtils.Basket.Redirects
import HdyUtils.Basket.Correspondence
import HdyUtils.Ham.Routing
import HdyUtils.Ham.Coordinator
import HdyUtils.Ham.CronBack
import HdyUtils.Ham.Retention
import HdyUtils.Ham.ExpiryTimes
import HdyUtils.Ham.Reaper
import HdyUtils.Ham.Migration
import HdyUtils.Ltp.ReportScopes
import HdyUtils.Ltp.Karn
import HdyUtils.Bibe.Lifetimes
import HdyUtils.Bibe.Rewriting
import HdyUtils.Bibe.Aliases
import HdyUtils.Security.Verification
import HdyUtils.Mercury.ControlLine
import HdyUtils.Ham.PeerNames
import HdyUtils.Ham.CronFields
import HdyUtils.Basket.Answered
import HdyUtils.Ping.Replies
import HdyUtils.Stats.Tail
import HdyUtils.Lib.Alarms
import HdyUtils.Ltp.Silence
import HdyUtils.Ltp.Exchange
import HdyUtils.Cla.Silence
import HdyUtils.Cla.Carriage
import HdyUtils.Ham.Ranges
import HdyUtils.Stats.Report
import HdyUtils.Ham.Conversations
import HdyUtils.Ham.BundleStore
import HdyUtils.Bibe.Tunnels
import HdyUtils.Ltp.Recovery
import HdyUtils.Ham.Chat
import HdyUtils.Files.Saving
import HdyUtils.Ham.ServiceTracker
