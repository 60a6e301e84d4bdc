import RSDWServerAPI.Ascii
import RSDWServerAPI.Bytes
import RSDWServerAPI.Transition
import RSDWServerAPI.Roster
import RSDWServerAPI.Kick
import RSDWServerAPI.KickOutcome
import RSDWServerAPI.EnforcementReach
import RSDWServerAPI.Json
import RSDWServerAPI.Bans
import RSDWServerAPI.BanFile
import RSDWServerAPI.BanList
import RSDWServerAPI.Startup
import RSDWServerAPI.Enforcement
import RSDWServerAPI.Items
import RSDWServerAPI.ItemSearch
import RSDWServerAPI.Identity
import RSDWServerAPI.GameThread
import RSDWServerAPI.ChatHook
import RSDWServerAPI.Chat
import RSDWServerAPI.ChatDelivery
import RSDWServerAPI.JsonGrammar
import RSDWServerAPI.JsonData
import RSDWServerAPI.JsonVerdict
import RSDWServerAPI.JsonAccess
import RSDWServerAPI.Socket
import RSDWServerAPI.HttpServer
import RSDWServerAPI.FormUrl
import RSDWServerAPI.QueryString
import RSDWServerAPI.HttpFraming
import RSDWServerAPI.Shell
import RSDWServerAPI.Webhook
import RSDWServerAPI.WebhookQueue
import RSDWServerAPI.DeathReports
import RSDWServerAPI.JsonReplies
import RSDWServerAPI.FloatText
import RSDWServerAPI.Serialize
import RSDWServerAPI.HttpAuth
import RSDWServerAPI.GameText
import RSDWServerAPI.Utf
import RSDWServerAPI.GameUtf8
import RSDWServerAPI.Intervals
import RSDWServerAPI.Memory
import RSDWServerAPI.Ini
import RSDWServerAPI.Config
import RSDWServerAPI.Restart
import RSDWServerAPI.RconPacket
import RSDWServerAPI.RconSession
import RSDWServerAPI.AccessControl
import RSDWServerAPI.IpFilter
import RSDWServerAPI.TokenBucket
import RSDWServerAPI.RateLimiter
import RSDWServerAPI.Lockout
import RSDWServerAPI.RconServer
import RSDWServerAPI.ProcessEvent
import RSDWServerAPI.RawMemory
import RSDWServerAPI.ProcessMemory
import RSDWServerAPI.Loops
import RSDWServerAPI.GameObjects
import RSDWServerAPI.Discovery
import RSDWServerAPI.GameReads
import RSDWServerAPI.GamePlayers
import RSDWServerAPI.Isolation
import RSDWServerAPI.Administration
import RSDWServerAPI.RconCommands
import RSDWServerAPI.PlayerRoutes
import RSDWServerAPI.FrontEnds
import RSDWServerAPI.Agreement
import RSDWServerAPI.ElfSymbols
import RSDWServerAPI.FrameLayout
