import Relayna.Foundation.Transition
import Relayna.Foundation.Python
import Relayna.Foundation.Base64
import Relayna.Foundation.SortedSet
import Relayna.Foundation.Await
import Relayna.Storage.Keys
import Relayna.Storage.TaskLease
import Relayna.Storage.LeaseExclusion
import Relayna.Storage.LeaseExpiry
import Relayna.Topology.TopicMatch
import Relayna.Rabbitmq.Connection
import Relayna.Observability.Forwarder
import Relayna.Status.Store
import Relayna.Status.History
import Relayna.Dlq.Service
import Relayna.Dlq.Replay
import Relayna.Dlq.Updates
import Relayna.Contracts.Transport
import Relayna.Contracts.Tabulated
import Relayna.Consumer.Context
import Relayna.Consumer.Effects
import Relayna.Consumer.Bounded
import Relayna.Consumer.Task
import Relayna.Consumer.Aggregation
import Relayna.Consumer.Workflow
import Relayna.Consumer.Protocol
import Relayna.Consumer.Health
import Relayna.Consumer.Refinement
import Relayna.Consumer.TaskRefinement
import Relayna.Consumer.StageRefinement
import Relayna.Consumer.Settlement
import Relayna.Consumer.Poison
import Relayna.Consumer.RetryBudget
import Relayna.Status.Stream
import Relayna.Status.StreamDelivery
import Relayna.Status.StreamResume
import Relayna.Foundation.Recency
import Relayna.Observability.Feed
import Relayna.Observability.FeedPaging
import Relayna.Status.FeedIdentity
import Relayna.Consumer.BatchPublish
import Relayna.Foundation.FairLock
import Relayna.Status.Hub
import Relayna.Status.HubOrder
import Relayna.Consumer.ContractStore
import Relayna.Consumer.DedupState
import Relayna.Consumer.RetryConflict
import Relayna.Topology.Workflow
import Relayna.Topology.Routing
import Relayna.Contracts.Workflow
import Relayna.Rabbitmq.WorkflowPublish
import Relayna.Consumer.Admission
import Relayna.Foundation.Keyed
import Relayna.Studio.Recovery
import Relayna.Studio.RecoveryRun
import Relayna.Studio.RecoveryDispatch
import Relayna.Studio.RecoveryEvidence
import Relayna.Studio.EventLatest
import Relayna.Studio.RecoveryFinish
import Relayna.Studio.EventRetry
import Relayna.Foundation.Pages
import Relayna.Studio.PullSync
import Relayna.Foundation.Names
import Relayna.Observability.ExecutionGraph
import Relayna.Observability.GraphKeys
import Relayna.Observability.GraphLedger
import Relayna.Observability.GraphObservations
import Relayna.Observability.GraphLoops
import Relayna.Observability.WellFormed
import Relayna.Foundation.Forest
import Relayna.Studio.Incidents
import Relayna.Studio.IncidentGroups
import Relayna.Studio.IncidentInbox
import Relayna.Studio.EmailsOnce
import Relayna.Foundation.AsyncLock
import Relayna.Studio.ProviderAvailability
import Relayna.Studio.AvailabilityGate
import Relayna.Foundation.Latest
import Relayna.Studio.TaskProjection
import Relayna.Studio.ProjectionOrder
import Relayna.Studio.FailedTaskFeeds
import Relayna.Foundation.Turns
import Relayna.Studio.FeedTurns
import Relayna.Dlq.FailedTaskIndex
import Relayna.Studio.FeedCursor
import Relayna.Studio.FeedArrivals
import Relayna.Studio.FeedMerge
import Relayna.Studio.FeedOrder
import Relayna.Consumer.Heartbeat
import Relayna.Studio.LoadTests
import Relayna.Studio.Outbox
import Relayna.Studio.OutboxDelivery
import Relayna.Studio.Registry
import Relayna.Studio.RegistryUnique
import Relayna.Studio.ServiceUpdates
import Relayna.Studio.MemberRaces
import Relayna.Studio.AuthStores
import Relayna.Foundation.Locking
import Relayna.Studio.ObservabilityProfiles
import Relayna.Studio.ControlPlane
import Relayna.Studio.ControlPlaneRefs
import Relayna.Studio.ChamberConnection
import Relayna.Studio.StoredSecrets
import Relayna.Studio.TaskSearch
import Relayna.Studio.TaskSearchIndex
import Relayna.Foundation.Descending
import Relayna.Consumer.BoundedIterator
import Relayna.Consumer.IteratorCancelled
import Relayna.Storage.LeaseListing
import Relayna.Dlq.RecordStore
import Relayna.Dlq.RecordPages
import Relayna.Dlq.RecordListing
import Relayna.Dlq.FailedListing
import Relayna.Foundation.Reaching
import Relayna.Status.StreamAliases
import Relayna.Contracts.AliasRoundTrip
import Relayna.Consumer.AliasPassage
import Relayna.Status.StreamReplay
import Relayna.Consumer.MapBounded
import Relayna.Rabbitmq.PublishTasks
import Relayna.Consumer.ActiveTasks
import Relayna.Observability.GraphTyping
import Relayna.Observability.GraphRetries
import Relayna.Observability.LiveState
import Relayna.Consumer.ManualRetry
import Relayna.Consumer.RetryLineage
import Relayna.Foundation.Words
import Relayna.Topology.ShardRouting
import Relayna.Rabbitmq.AggregationPublish
import Relayna.Studio.AlertReceipts
import Relayna.Studio.GatewayNames
import Relayna.Studio.LogPages
import Relayna.Studio.IncidentSplits
import Relayna.Foundation.Like
import Relayna.Foundation.Walks
import Relayna.Studio.SearchCursors
import Relayna.Studio.ServiceSearch
import Relayna.Studio.ServiceSearchStores
import Relayna.Studio.TaskPages
import Relayna.Studio.TaskPageStores
import Relayna.Studio.CursorErrors
import Relayna.Studio.CursorSafety
import Relayna.Studio.CursorTotal
import Relayna.Foundation.Documents
import Relayna.Studio.Redaction
import Relayna.Studio.RedactionReview
import Relayna.Foundation.Fresh
import Relayna.Observability.MermaidIds
import Relayna.Foundation.Json
import Relayna.Foundation.JsonKeys
import Relayna.Consumer.DedupKeys
import Relayna.Studio.Federation
import Relayna.Studio.JoinScans
import Relayna.Foundation.Doubles
import Relayna.Studio.ProviderAnswers
import Relayna.Studio.AnswerCrashes
import Relayna.Foundation.LogQL
import Relayna.Studio.LogQueries
import Relayna.Studio.LogScope
import Relayna.Foundation.PromQL
import Relayna.Studio.AlertRules
import Relayna.Studio.RuleAgreement
import Relayna.Studio.TracePaths
import Relayna.Foundation.Gathering
import Relayna.Studio.TraceEvidence
import Relayna.Studio.TraceSpans
