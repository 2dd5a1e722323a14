import TaskFlow.Perform
import TaskFlow.Retry

/-!
# `services/worker`

`Worker.processMessage` is the Kafka handler of the worker, cut at its three
exits: the idempotency check, the missing handler, and the execution with its
bookkeeping.  Logging and tracing leave the shared state alone and are not
modelled.
-/

namespace TaskFlow

open Effect

/-- `topicDLQ`. -/
def topicDLQ : String := "tasks.dlq"

/-- `worker.Worker`, its configuration. -/
structure Worker : Type where
  registry : Registry
  workerID : String
  workerType : String
  maxRetries : Int64
  baseDelay : Int64

namespace Worker

variable {Raw : Type}

/-- The guard of `processMessage`: `err == nil && s.IsTerminal()`. -/
def alreadyTerminal : Except Error Status → Bool
  | .error _ => false
  | .ok status => status.isTerminal

/-- The action of `processMessage` that may read and set `attempts`. -/
abbrev Attempting (Raw : Type) : Type → Type := StateT Nat (Service Raw)

/-- Make a call, leaving `attempts` as it is. -/
abbrev Attempting.ask (op : Op Raw) : Attempting Raw op.Ans := StateT.lift (TaskFlow.ask op)

/-- `OnRetry` of `processMessage`. -/
def onRetry (w : Worker) (task : Task) (attempt : Nat) (_ : Error) : Attempting Raw Unit := do
  set attempt
  let _ ← Attempting.ask (.count (.workerRetriesTotal w.workerType) 1)
  let _ ← Attempting.ask (.setStatus task.id .retrying)

/-- The attempt closure of `processMessage`. -/
def attempt (h : Handler) (task : Task) : Attempting Raw (Option Error) := do
  modify (· + 1)
  Attempting.ask (.handle h task)

/-- The `retry.Config` of `processMessage`. -/
def retryConfig (w : Worker) (task : Task) : RetryConfig (Attempting Raw) where
  maxAttempts := w.maxRetries + 1
  baseDelay := w.baseDelay
  onRetry := some (w.onRetry task)

/-- The attempts one message is entitled to: `max(1, maxRetries+1)` in 64-bit
arithmetic. -/
def maxAttempts (w : Worker) : Nat := entitled (w.maxRetries + 1)

/-- The call of `retry.Do`: its error, and the final value of `attempts`. -/
def execAttempts (w : Worker) (h : Handler) (task : Task) :
    Service Raw (Option Error × Nat) :=
  StateT.run (retryDo (fun delay => Attempting.ask (.wait delay)) (w.retryConfig task)
    (attempt h task)) 0

/-- The bookkeeping `finishSuccess` and `finishFailure` share: the live status, the
cached copy, the row of `task_executions` and the row of `tasks`. -/
def record (w : Worker) (task : Task) (durationMs : Int) (error : String) (now : Time) :
    Service Raw Unit := do
  let _ ← ask (.setStatus task.id task.status)
  let _ ← ask (.setTaskMeta task)
  let _ ← ask (.recordExecution
    { id := "", taskID := task.id, workerID := w.workerID, attempt := task.attempts,
      status := task.status, durationMs, error, executedAt := now })
  let _ ← ask (.updateStatus task.id task.status)

/-- `Worker.finishSuccess`. -/
def finishSuccess (w : Worker) (task : Task) (durationMs : Int) : Service Raw Unit := do
  let now ← ask .now
  let task := { task with completedAt := some now, status := .done, updatedAt := now }
  w.record task durationMs "" now
  ask (.count (.workerTasksProcessed w.workerType "done") 1)

/-- `Worker.finishFailure`. -/
def finishFailure (w : Worker) (task : Task) (taskErr : Error) (durationMs : Int) (raw : Raw) :
    Service Raw Unit := do
  let now ← ask .now
  let task := { task with status := .dead, updatedAt := now }
  w.record task durationMs taskErr.error now
  let _ ← ask (.publish topicDLQ task.id raw .worker)
  let _ ← ask (.count (.workerTasksProcessed w.workerType "dead") 1)
  ask (.count (.workerDLQTotal w.workerType) 1)

/-- `time.Duration.Seconds`, of a duration that is not negative: the whole seconds and the
rest, each rounded to a `float64`. -/
def seconds (d : Nat) : Float :=
  Float.ofNat (d / 1000000000) + Float.ofNat (d % 1000000000) / 1000000000

/-- `int64(durationSec * 1000)`.  The conversion truncates towards zero and rounding to
nearest is the same on both sides of it, so the sign stays apart. -/
def milliseconds (d : Int) : Int :=
  d.sign * (seconds d.natAbs * 1000).toUInt64.toNat

-- 1.001 s is stored as 1000 ms: the nearest `float64` lies below it.
example : milliseconds 1001000000 = 1000 ∧ milliseconds 1002000000 = 1002 := by decide

/-- The choice of `processMessage` between its two finishers. -/
def settle (w : Worker) (raw : Raw) (task : Task) (durationMs : Int) :
    Option Error → Service Raw Unit
  | none => w.finishSuccess task durationMs
  | some execErr => w.finishFailure task execErr durationMs raw

/-- `processMessage` after the call of `retry.Do`. -/
def finish (w : Worker) (msg : Message Raw) (task : Task) (start : Time) :
    Option Error × Nat → Service Raw (Option Error)
  | (execErr, attempts) => do
      let stop ← ask .now
      let task := { task with attempts := (attempts : Int) }
      w.settle msg.value task (milliseconds (Time.sub stop start)) execErr
      let _ ← ask (.count (.workerTasksInFlight w.workerType) (-1))
      pure none

/-- `processMessage` after the status was set to `RUNNING`. -/
def afterRunning (w : Worker) (msg : Message Raw) (task : Task) (h : Handler) :
    Option Error → Service Raw (Option Error)
  | some err => pure (some (.wrap "set running status" err))
  | none => do
      let _ ← ask (.count (.workerTasksInFlight w.workerType) 1)
      let start ← ask .now
      let result ← w.execAttempts h task
      w.finish msg task start result

/-- `processMessage` once a handler is found. -/
def execute (w : Worker) (msg : Message Raw) (task : Task) (h : Handler) :
    Service Raw (Option Error) := do
  let failed ← ask (.setStatus task.id .running)
  w.afterRunning msg task h failed

/-- `processMessage` when no handler is registered. -/
def noHandler (w : Worker) (msg : Message Raw) (task : Task) : Service Raw (Option Error) := do
  let _ ← ask (.setStatus task.id .dead)
  let _ ← ask (.publish topicDLQ task.id msg.value .worker)
  let _ ← ask (.count (.workerDLQTotal w.workerType) 1)
  pure none

/-- `processMessage` past the idempotency check. -/
def processNew (w : Worker) (msg : Message Raw) (task : Task) : Service Raw (Option Error) :=
  match w.registry.get task.type with
  | .error _ => w.noHandler msg task
  | .ok h => w.execute msg task h

/-- `processMessage` on a decoded task. -/
def processTask (w : Worker) (msg : Message Raw) (task : Task) : Service Raw (Option Error) := do
  let status ← ask (.getStatus task.id)
  if alreadyTerminal status then pure none else w.processNew msg task

/-- `Worker.processMessage`.  A malformed message is discarded. -/
def processMessage (w : Worker) (json : Json Raw) (msg : Message Raw) :
    Service Raw (Option Error) :=
  match json.unmarshal msg.value with
  | none => pure none
  | some task => w.processTask msg task

/-! ## The calls in order -/

variable (w : Worker) (msg : Message Raw) (task : Task)

theorem record_eq (durationMs : Int) (error : String) (now : Time) :
    (w.record task durationMs error now : Service Raw Unit) =
      .call (.setStatus task.id task.status) fun _ => .call (.setTaskMeta task) fun _ =>
        .call (.recordExecution
          { id := "", taskID := task.id, workerID := w.workerID, attempt := task.attempts,
            status := task.status, durationMs, error, executedAt := now }) fun _ =>
          .call (.updateStatus task.id task.status) fun _ => .pure () := rfl

theorem finishSuccess_eq (durationMs : Int) :
    (w.finishSuccess task durationMs : Service Raw Unit) = .call .now fun now =>
      w.record { task with completedAt := some now, status := .done, updatedAt := now }
          durationMs "" now >>= fun _ =>
        .call (.count (.workerTasksProcessed w.workerType "done") 1) .pure := rfl

theorem finishFailure_eq (taskErr : Error) (durationMs : Int) (raw : Raw) :
    w.finishFailure task taskErr durationMs raw = .call .now fun now =>
      w.record { task with status := .dead, updatedAt := now }
          durationMs taskErr.error now >>= fun _ =>
        .call (.publish topicDLQ task.id raw .worker) fun _ =>
          .call (.count (.workerTasksProcessed w.workerType "dead") 1) fun _ =>
            .call (.count (.workerDLQTotal w.workerType) 1) .pure := rfl

theorem finish_eq (start : Time) (execErr : Option Error) (attempts : Nat) :
    w.finish msg task start (execErr, attempts) = .call .now fun stop =>
      w.settle msg.value { task with attempts := (attempts : Int) }
          (milliseconds (Time.sub stop start)) execErr >>= fun _ =>
        .call (.count (.workerTasksInFlight w.workerType) (-1)) fun _ => .pure none := rfl

theorem afterRunning_none (h : Handler) :
    w.afterRunning msg task h none =
      .call (.count (.workerTasksInFlight w.workerType) 1) fun _ => .call .now fun start =>
        w.execAttempts h task >>= w.finish msg task start := rfl

theorem execute_eq (h : Handler) :
    w.execute msg task h = .call (.setStatus task.id .running) (w.afterRunning msg task h) := rfl

theorem processTask_eq :
    w.processTask msg task = .call (.getStatus task.id) fun status =>
      if alreadyTerminal status then .pure none else w.processNew msg task := rfl

end Worker

/-! ## An email worker -/

/-- Messages that carry the task itself. -/
def plainJson : Json Task := ⟨id, some, fun _ => rfl⟩

/-- A task for the email handler. -/
def emailTask : Task where
  id := "task-1"
  type := "email"
  payload := [123, 125]
  status := .pending
  priority := 1
  attempts := 0
  maxRetries := 3
  createdAt := 0
  updatedAt := 0
  scheduledAt := none
  completedAt := none

/-- The message of that task on the topic of its worker. -/
def emailMessage : Message Task := ⟨"tasks.worker.email", "task-1", emailTask⟩

/-- A worker with the email handler. -/
def emailWorker (maxRetries : Int64) : Worker where
  registry := (Registry.mk fun _ => none).register ⟨"email"⟩
  workerID := "worker-1"
  workerType := "email"
  maxRetries := maxRetries
  baseDelay := 1000000000

/-- The mail server fails once. -/
def flakyMail : Script :=
  { Script.calm with outcome := fun n => if n = 0 then some (.new "smtp down") else none }

end TaskFlow
