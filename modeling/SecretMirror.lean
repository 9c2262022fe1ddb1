import SecretMirror.Base64
import SecretMirror.Cache
import SecretMirror.Cluster
import SecretMirror.Cluster.Disturbance
import SecretMirror.Cluster.Server
import SecretMirror.Decision
import SecretMirror.Fault
import SecretMirror.Fields
import SecretMirror.Health
import SecretMirror.Json.Reader
import SecretMirror.Json.Writer
import SecretMirror.Log
import SecretMirror.Metrics
import SecretMirror.Metrics.Exposition
import SecretMirror.Names
import SecretMirror.Number.Binary64
import SecretMirror.Number.Reading
import SecretMirror.Number.Shortest
import SecretMirror.Number.Written
import SecretMirror.Operator.Access
import SecretMirror.Operator.Effects
import SecretMirror.Operator.Reconcile
import SecretMirror.Program
import SecretMirror.Proofs.Apart
import SecretMirror.Proofs.Arrival
import SecretMirror.Proofs.Arrival.VisibleState
import SecretMirror.Proofs.Attempts
import SecretMirror.Proofs.Bookkeeping
import SecretMirror.Proofs.CacheView
import SecretMirror.Proofs.CachingContract
import SecretMirror.Proofs.CallCounts
import SecretMirror.Proofs.CallSpacing
import SecretMirror.Proofs.Completion
import SecretMirror.Proofs.Conduct
import SecretMirror.Proofs.Contract
import SecretMirror.Proofs.Convergence
import SecretMirror.Proofs.Convergence.Access
import SecretMirror.Proofs.Convergence.Undisturbed
import SecretMirror.Proofs.Counters
import SecretMirror.Proofs.Deciding
import SecretMirror.Proofs.Due
import SecretMirror.Proofs.Entries
import SecretMirror.Proofs.ExactTime
import SecretMirror.Proofs.Expiry
import SecretMirror.Proofs.FailureReports
import SecretMirror.Proofs.FaultTranslation
import SecretMirror.Proofs.Fence
import SecretMirror.Proofs.Fence.Activities
import SecretMirror.Proofs.Fence.Copies
import SecretMirror.Proofs.Footprint
import SecretMirror.Proofs.Interference
import SecretMirror.Proofs.Interleaving
import SecretMirror.Proofs.Json.Documents
import SecretMirror.Proofs.Json.Reading
import SecretMirror.Proofs.Json.Texts
import SecretMirror.Proofs.LateEvents
import SecretMirror.Proofs.LateEvents.Activities
import SecretMirror.Proofs.LateEvents.History
import SecretMirror.Proofs.LateEvents.LookUp
import SecretMirror.Proofs.LateEvents.Versions
import SecretMirror.Proofs.Leading
import SecretMirror.Proofs.LogLines
import SecretMirror.Proofs.LoopOverlap
import SecretMirror.Proofs.LoopThreads
import SecretMirror.Proofs.Notes
import SecretMirror.Proofs.Overriding
import SecretMirror.Proofs.Provenance
import SecretMirror.Proofs.ReadThrough
import SecretMirror.Proofs.ReconcileMetrics
import SecretMirror.Proofs.Recovery
import SecretMirror.Proofs.Recovery.Attempts
import SecretMirror.Proofs.Recovery.Frame
import SecretMirror.Proofs.Recovery.Outcome
import SecretMirror.Proofs.Redaction.Completeness
import SecretMirror.Proofs.Redaction.Disclosure
import SecretMirror.Proofs.Redaction.Forms
import SecretMirror.Proofs.Redaction.Order
import SecretMirror.Proofs.Redaction.Passing
import SecretMirror.Proofs.Redaction.Reports
import SecretMirror.Proofs.Redaction.Sweeps
import SecretMirror.Proofs.Redaction.Words
import SecretMirror.Proofs.Relational
import SecretMirror.Proofs.Retry
import SecretMirror.Proofs.RunHistory
import SecretMirror.Proofs.RunSpacing
import SecretMirror.Proofs.Running
import SecretMirror.Proofs.Secrecy
import SecretMirror.Proofs.Secrecy.Clusters
import SecretMirror.Proofs.Secrecy.Likeness
import SecretMirror.Proofs.Secrecy.Lockstep
import SecretMirror.Proofs.SecretTraffic
import SecretMirror.Proofs.SecretTraffic.Conduct
import SecretMirror.Proofs.SharedCluster
import SecretMirror.Proofs.SyncNotes
import SecretMirror.Proofs.TimedCache
import SecretMirror.Proofs.Tracing
import SecretMirror.Proofs.UntrustedCluster
import SecretMirror.Proofs.UntrustedCluster.Absence
import SecretMirror.Proofs.UntrustedCluster.CacheContents
import SecretMirror.Proofs.UntrustedCluster.Writes
import SecretMirror.Proofs.Wakeup
import SecretMirror.Proofs.WatchEvents
import SecretMirror.Proofs.Wire.Base64
import SecretMirror.Proofs.Wire.Marker
import SecretMirror.Proofs.Wire.NormalForm
import SecretMirror.Proofs.Wire.RoundTrip
import SecretMirror.Proofs.WriteThrough
import SecretMirror.RateLimit
import SecretMirror.Redaction
import SecretMirror.Resync.Lifecycle
import SecretMirror.Resync.Loop
import SecretMirror.Resync.Schedule
import SecretMirror.Resync.Script
import SecretMirror.Secret
import SecretMirror.Secret.Wire
import SecretMirror.Settings
import SecretMirror.Startup
import SecretMirror.Sync
import SecretMirror.Text.Blank
import SecretMirror.Text.Capital
import SecretMirror.Text.Digit
import SecretMirror.Text.Letter
import SecretMirror.Text.Printable
import SecretMirror.Text.Quoted
import SecretMirror.Time
import SecretMirror.Value
import SecretMirror.Value.Display
