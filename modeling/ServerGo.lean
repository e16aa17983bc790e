import ServerGo.Analysis.FreshStart
import ServerGo.Analysis.Isolation
import ServerGo.Analysis.Restart
import ServerGo.Analysis.Linearizable
import ServerGo.Analysis.TierOrder
import ServerGo.Analysis.Convergence
import ServerGo.Analysis.Durability
import ServerGo.Analysis.VmGate
import ServerGo.Analysis.SnapshotRestore
import ServerGo.Analysis.MacTargets
import ServerGo.Analysis.EpochQuery
import ServerGo.Analysis.FlushBarrier
import ServerGo.Analysis.ThreadCache
import ServerGo.Analysis.FastRead
import ServerGo.Analysis.Pins
import ServerGo.Analysis.ScriptOrder
import ServerGo.Analysis.OneAtATime
import ServerGo.Analysis.SameColumns
import ServerGo.Analysis.DirectMapped
import ServerGo.Analysis.Replies
import ServerGo.Analysis.Completion
import ServerGo.Analysis.AtomicReads
import ServerGo.Analysis.SessionReads
import ServerGo.Analysis.CacheCounters
import ServerGo.Analysis.CrashRecovery
import ServerGo.Analysis.Builds
import ServerGo.Analysis.EndToEnd
import ServerGo.Analysis.Locality
import ServerGo.Analysis.Outages
import ServerGo.Analysis.Scheduling
import ServerGo.Analysis.AtomicCalls
import ServerGo.Analysis.ThreadReplies
import ServerGo.Analysis.Recency
import ServerGo.Analysis.Backups
