import Anope.Text.Match.Exact
import Anope.Text.LineWrapper
import Anope.Text.Scanned
import Anope.Text.Wrapped
import Anope.Text.Bounded
import Anope.Text.NumberList
import Anope.Timers.Due
import Anope.Library.Outbox
import Anope.Sockets.Writing
import Anope.Library.Words
import Anope.BotServ.BadWords
import Anope.BotServ.Kickers
import Anope.BotServ.Amsg
import Anope.BotServ.Presence
import Anope.OperServ.Ignore
import Anope.Library.Toggle
import Anope.OperServ.Defcon
import Anope.Text.Stripped
import Anope.Library.Strip
import Anope.Text.Sepstream
import Anope.Commands.Dispatch
import Anope.Library.Split
import Anope.Text.Ctcp
import Anope.Text.Distance
import Anope.Net.Cidr.KeysExact
import Anope.Mode.BanMask
import Anope.Mode.Change
import Anope.Mode.LineLimits
import Anope.Channel.Refinement
import Anope.Channel.TimestampRule
import Anope.Channel.Rejection
import Anope.Channel.Locks
import Anope.Channel.LockPass
import Anope.Channel.LockSettling
import Anope.Network.Membership
import Anope.Network.Deleting
import Anope.Network.Opers
import Anope.Network.Nicks
import Anope.Xline.Coverage
import Anope.Xline.Refinement
import Anope.Message.RoundTrip
import Anope.Uplink.Framing
import Anope.Dns.Bounds
import Anope.Dns.Alignment
import Anope.Dns.Reply
import Anope.Dns.NameLoop
import Anope.Dns.Requester
import Anope.Access.Reach
import Anope.Reference.Exact
import Anope.Account.Exact
import Anope.Storage.Records
import Anope.Storage.JsonObject
import Anope.Database.Refused
import Anope.Database.Once
import Anope.Config.File
import Anope.Config.ReadBack
import Anope.Config.FailedReload
import Anope.Config.Duration
import Anope.Sql.Dispatcher
import Anope.Sql.Changes
import Anope.Cert.Exact
import Anope.Mode.ExtBan
import Anope.Access.Commands
import Anope.Access.Flags
import Anope.Access.Peace
import Anope.Access.Order
import Anope.OperServ.Exact
import Anope.Bridge.History
import Anope.Bridge.Links
import Anope.Bridge.Mailbox
import Anope.Bridge.TagValue
import Anope.Bridge.MessageIds
import Anope.Bridge.Throttle
import Anope.Bridge.Wire
import Anope.Bridge.Nick
import Anope.Library.Breaking
import Anope.Bridge.WebhookName
import Anope.Bridge.Tokens
import Anope.Bridge.Mentions
import Anope.Http.Client
import Anope.Webcpanel.Template
import Anope.Webcpanel.Blocks
import Anope.Bridge.Relay
import Anope.Bridge.Escape
import Anope.Bridge.Service.Counting
import Anope.Bridge.Service.Retiring
import Anope.Bridge.Service.Reservations
import Anope.Bridge.Service.Unique
import Anope.Bridge.Service.Recognised
import Anope.Bridge.Discord.Core
import Anope.Bridge.Discord.Sound
import Anope.Bridge.Discord.Steps
import Anope.Bridge.Discord.Failure
import Anope.Bridge.Discord.Echo
import Anope.Bridge.Discord.Pending
import Anope.Mode.Lock
import Anope.Mode.RegistryExact
import Anope.Servers.Exact
import Anope.Rpc.Authorization
import Anope.Sql.Answers
import Anope.Inspircd.Reach
import Anope.Inspircd.Metadata
import Anope.Lifetime.References
import Anope.Lifetime.Services
import Anope.Lifetime.Extensible
import Anope.Account.Identify
import Anope.Account.Sasl
import Anope.Account.SaslSessions
