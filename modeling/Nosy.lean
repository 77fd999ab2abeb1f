import Nosy.General.Transition
import Nosy.General.RetainSwap
import Nosy.Notifier
import Nosy.Proofs.NotifierTable
import Nosy.Broadcast
import Nosy.Proofs.BroadcastRefinement
import Nosy.Proofs.WakeFlagWakeups
import Nosy.Proofs.WakeFlagFinality
import Nosy.DirtyFlag
import Nosy.Proofs.DirtyFlag
import Nosy.Listener
import Nosy.Proofs.ListenerSkeleton
import Nosy.Proofs.ForwardingReturns
import Nosy.Delivery
import Nosy.Proofs.ListenerContract
import Nosy.Proofs.ListenerFinality
import Nosy.Proofs.SourceNotify
import Nosy.Proofs.SourceState
import Nosy.Proofs.SourceCoherence
import Nosy.Proofs.SourceNotices
import Nosy.Proofs.SourceClosing
import Nosy.FlattenedCell
import Nosy.Proofs.FlattenedTables
import Nosy.Proofs.FlattenedCell
import Nosy.Proofs.FlattenedReads
import Nosy.FlattenedThreads
import Nosy.Proofs.FlattenedConsistency
import Nosy.Proofs.FlattenedThreads
import Nosy.General.Signals
import Nosy.WakeFlagFuture
import Nosy.Proofs.WakeFlagSignals
import Nosy.Proofs.Pruning
import Nosy.Proofs.ListenCost
import Nosy.General.Chunks
import Nosy.Proofs.FilterCalls
import Nosy.CellWithLocal
import Nosy.Proofs.CellWithLocal
import Nosy.Buffer
import Nosy.Proofs.Buffer
import Nosy.BufferUnwinding
import Nosy.Proofs.BufferUnwinding
import Nosy.FlattenedUse
import Nosy.Proofs.SourceCounts
import Nosy.Proofs.FlattenedUse
import Nosy.Proofs.FlattenedSubscriptions
import Nosy.AliveFlag
import Nosy.Proofs.ExactPruning
import Nosy.Proofs.AliveFlag
import Nosy.Proofs.AliveFlagRuns
import Nosy.General.SharedLock
import Nosy.SharedNotifier
import Nosy.Proofs.SharedNotifierScripts
import Nosy.Proofs.SharedNotifierSerial
import Nosy.Proofs.SharedNotifierTables
import Nosy.Proofs.SharedNotifierDelivery
import Nosy.Proofs.SharedNotifierProgress
import Nosy.Proofs.WokenTask
import Nosy.Proofs.WokenTaskRuns
import Nosy.General.Counted
import Nosy.StoreLock
import Nosy.Proofs.StoreLock
import Nosy.Proofs.StoreLockSerial
import Nosy.Proofs.StoreLockLifetime
import Nosy.NotifiedLogs
import Nosy.Proofs.NotifiedLogs
import Nosy.Proofs.SharedNotifierCalls
import Nosy.ForwarderNetwork
import Nosy.Proofs.ForwarderNetwork
import Nosy.Proofs.ForwarderProgress
