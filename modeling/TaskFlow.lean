import TaskFlow.Effect.Prog
import TaskFlow.Effect.Trace
import TaskFlow.Effect.Pool
import TaskFlow.Effect.Lease
import TaskFlow.Effect.Ledger
import TaskFlow.Effect.Alarm
import TaskFlow.Effect.Window
import TaskFlow.Effect.Custody
import TaskFlow.Domain
import TaskFlow.World
import TaskFlow.Perform
import TaskFlow.Calls
import TaskFlow.Jobs
import TaskFlow.Retry
import TaskFlow.Worker
import TaskFlow.Dispatcher
import TaskFlow.Gateway
import TaskFlow.Scheduler
import TaskFlow.Consumer
import TaskFlow.WorkerRun
import TaskFlow.WorkerLoss
import TaskFlow.ConsumerPool
import TaskFlow.StatusRace
import TaskFlow.WorkerRace
import TaskFlow.Leadership
import TaskFlow.Occurrence
import TaskFlow.Activation
import TaskFlow.Dossier
import TaskFlow.Pipeline
import TaskFlow.AuditTrail
import TaskFlow.Fallback
import TaskFlow.RateLimiter
import TaskFlow.Submission
import TaskFlow.Redelivery
import TaskFlow.WorkerTrace
import TaskFlow.Deferral
import TaskFlow.SubmissionSteps
import TaskFlow.PipelinePool
import TaskFlow.DurableCopies
import TaskFlow.Tickets
import TaskFlow.DeadLetter
import TaskFlow.WholeCalls
import TaskFlow.CompletedAt
import TaskFlow.Effect.Slice
import TaskFlow.Carrier
import TaskFlow.RetryTrace
import TaskFlow.Backoff
import TaskFlow.Effect.Lines
import TaskFlow.Mime
import TaskFlow.Effect.Machine
import TaskFlow.Keyspace
import TaskFlow.Conservation
import TaskFlow.Residue
import TaskFlow.BulkSubmit
import TaskFlow.StatusLookup
import TaskFlow.Effect.Balance
import TaskFlow.DeadLetterCounters
import TaskFlow.Effect.Replica
import TaskFlow.PipelineCalls
import TaskFlow.Integrity
import TaskFlow.Lanes
import TaskFlow.Effect.Until
import TaskFlow.Settlement
import TaskFlow.Failover
import TaskFlow.Coverage
import TaskFlow.Effect.Budget
import TaskFlow.Workload
import TaskFlow.Recovery
import TaskFlow.DueJobs
import TaskFlow.WithinLease
import TaskFlow.Sessions
import TaskFlow.Effect.Delegate
import TaskFlow.Handlers
import TaskFlow.Outbound
import TaskFlow.Throughput
import TaskFlow.StatusCauses
import TaskFlow.Watch
import TaskFlow.Effect.Diary
import TaskFlow.Bookkeeping
