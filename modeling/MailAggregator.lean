import MailAggregator.Lib.Transition
import MailAggregator.Lib.Keyset
import MailAggregator.Lib.PyText
import MailAggregator.Shared.Crypto
import MailAggregator.Shared.Models
import MailAggregator.Repositories.Messages
import MailAggregator.Repositories.MailAccounts
import MailAggregator.External.Service
import MailAggregator.External.Pull
import MailAggregator.Shared.PyException
import MailAggregator.Worker.ErrorClassify
import MailAggregator.Shared.Config
import MailAggregator.Worker.SyncCycle
import MailAggregator.Worker.Breaker
import MailAggregator.Accounts.Service
import MailAggregator.Worker.StaleDisable
import MailAggregator.Lib.HtmlText
import MailAggregator.Shared.HtmlSanitize
import MailAggregator.Shared.UrlSafety
import MailAggregator.Lib.Utf8
import MailAggregator.Worker.ImapFetcher
import MailAggregator.Worker.SyncStore
import MailAggregator.Worker.ImapServer
import MailAggregator.Worker.SyncSystem
import MailAggregator.Worker.Watermark
import MailAggregator.Worker.SyncComplete
import MailAggregator.OAuth.TokenService
import MailAggregator.OAuth.RefreshSystem
import MailAggregator.OAuth.RefreshSafety
import MailAggregator.OAuth.LockDiscipline
import MailAggregator.CrmPush.Outbox
import MailAggregator.CrmPush.Delivery
import MailAggregator.Lib.BatchQueue
import MailAggregator.CrmPush.Starvation
import MailAggregator.Worker.Cleanup
import MailAggregator.CrmPush.DeliveryMark
import MailAggregator.Accounts.Schemas
import MailAggregator.Accounts.Testers
import MailAggregator.Accounts.Update
import MailAggregator.Accounts.UpdateFrame
import MailAggregator.Accounts.UpdateClosed
import MailAggregator.Lib.LostUpdate
import MailAggregator.Accounts.UpdateRace
import MailAggregator.Lib.NormalKey
import MailAggregator.Accounts.UniqueAddress
import MailAggregator.Lib.Mirror
import MailAggregator.CrmPush.StatusChannel
import MailAggregator.Worker.SyncAccount
import MailAggregator.Worker.NeverGreen
import MailAggregator.Worker.FailOpen
import MailAggregator.External.RateLimit
import MailAggregator.Lib.Aead
import MailAggregator.Shared.MailCipher
import MailAggregator.Shared.KeyRotation
import MailAggregator.Lib.IpAddress
import MailAggregator.Shared.HostGuard
import MailAggregator.Shared.Connections
import MailAggregator.OAuth.TokenClient
import MailAggregator.OAuth.AccessToken
import MailAggregator.Send.Mime
import MailAggregator.Send.Service
import MailAggregator.Send.Outcome
import MailAggregator.OAuth.Callback
import MailAggregator.Worker.ForceSync
import MailAggregator.Lib.KeysetWalk
import MailAggregator.External.Walk
import MailAggregator.Accounts.Probe
import MailAggregator.Accounts.DisableStamp
import MailAggregator.Accounts.AddressCheck
import MailAggregator.External.LimiterBound
import MailAggregator.OAuth.OneShot
import MailAggregator.Accounts.StatusEvents
import MailAggregator.Worker.ConnectRetry
import MailAggregator.OAuth.LinkedMailbox
import MailAggregator.Worker.IncrementalFetch
import MailAggregator.Accounts.IdentityChange
import MailAggregator.Accounts.ConnectionTest
import MailAggregator.Worker.ClassifierAgreement
import MailAggregator.Worker.TokenFailure
import MailAggregator.Lib.Words
import MailAggregator.Lib.Substitute
import MailAggregator.External.SendSchema
import MailAggregator.External.SendHeaders
import MailAggregator.Lib.HeaderSection
import MailAggregator.Send.Wire
import MailAggregator.External.Threading
import MailAggregator.Shared.CipherIntegrity
import MailAggregator.Worker.BodyTruncation
import MailAggregator.Lib.HtmlCut
import MailAggregator.Worker.StoredHtml
import MailAggregator.Lib.Places
import MailAggregator.Shared.PrestripPatterns
import MailAggregator.Shared.PrestripSeams
import MailAggregator.CrmPush.QueueItems
import MailAggregator.CrmPush.SignedBody
import MailAggregator.External.Gateway
import MailAggregator.External.Mailboxes
import MailAggregator.Migrations.PhaseC
import MailAggregator.Auth.CrmServiceSeed
import MailAggregator.CrmPush.Deliverable
import MailAggregator.OAuth.Pkce
import MailAggregator.Shared.MasterKeys
import MailAggregator.OAuth.Notify
