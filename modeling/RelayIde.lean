import RelayIde.Adapters.Guardrails
import RelayIde.Adapters.TurnQueue
import RelayIde.AgentSession.Reducer
import RelayIde.AgentSession.TranscriptCap
import RelayIde.AgentSession.Truncation
import RelayIde.AsyncRun.Aggregate
import RelayIde.AsyncRun.Finality
import RelayIde.AsyncRun.Recovery
import RelayIde.Audit.Tamper
import RelayIde.Binder.Brake
import RelayIde.Binder.Delivery
import RelayIde.Binder.Followup
import RelayIde.Binder.PacketShape
import RelayIde.Binder.SendFailure
import RelayIde.Binder.Steering
import RelayIde.Bridge.DeferredReplies
import RelayIde.Bridge.DetailBounds
import RelayIde.Callback.Admission
import RelayIde.Callback.FanIn
import RelayIde.Callback.Recovery
import RelayIde.Callback.Undeliverable
import RelayIde.Channel.CatchUp
import RelayIde.Channel.ClientStream
import RelayIde.Channel.HistoryMerge
import RelayIde.Channel.HistoryPaging
import RelayIde.Channel.MessageStore
import RelayIde.Channel.PublicValue
import RelayIde.Channel.Rail
import RelayIde.Channel.ReadMarks
import RelayIde.Channel.Removal
import RelayIde.Channel.SnapshotRange
import RelayIde.Channel.StreamAgreement
import RelayIde.Channel.Subscription
import RelayIde.Channel.SubscriptionFilter
import RelayIde.Channel.Timeline
import RelayIde.Framing.LineFramer
import RelayIde.Gateway.EventBus
import RelayIde.Handoff.Transfer
import RelayIde.HubLock.Exclusion
import RelayIde.Library.Paging
import RelayIde.Links.Followers
import RelayIde.Links.LinkRuns
import RelayIde.Nodes.Crash
import RelayIde.Nodes.PairToken
import RelayIde.Nodes.Pairing
import RelayIde.Nodes.Rotation
import RelayIde.Notify.Gate
import RelayIde.Policy.Soundness
import RelayIde.Ports.EnvBlock
import RelayIde.Ports.Interleaving
import RelayIde.Processes.Reap
import RelayIde.Processes.Redaction
import RelayIde.Profiles.CredentialRuns
import RelayIde.Profiles.Invariants
import RelayIde.Repos.Semaphore
import RelayIde.Search.Query
import RelayIde.Search.ScopeGrammar
import RelayIde.Search.Scopes
import RelayIde.Security.ActorCredential
import RelayIde.Security.AuditRing
import RelayIde.Security.Confirmation
import RelayIde.Security.FailedRedemptions
import RelayIde.Security.HandshakeGrant
import RelayIde.Sessions.Lifecycle
import RelayIde.Tail.Zstd
import RelayIde.Tail.ZstdFormat
import RelayIde.Terminal.Delivery
import RelayIde.Workspace.Contexts
import RelayIde.Workspace.Layout
