import Mathlib.Data.List.Sort
import TaskFlow.Domain

/-!
# Stores, broker and the calls on them

`World` is what the services share: the Redis keys, the Postgres tables, the
Kafka log, the metrics, and a log of the handler calls made.  The rest of the
surroundings is a `Script`: which call fails next, how the next handler attempt
ends, what the clocks read.  A statement about every script is a statement about
every such behaviour; each answer is taken from the head of its stream and the
stream moves on, so the script of a world is what is still to come.

`Op` lists the calls of the services and `perform` answers them, following
`internal/redis`, `internal/postgres` and the documented behaviour of the
servers behind them.  A failed call has no effect on the stores.  Every store,
repository and producer call is made with the context of its service and fails
once that context is cancelled.
-/

namespace TaskFlow

/-! ## Messages, handlers and jobs -/

/-- `encoding/json` on tasks: `marshal` writes the text of a task, `unmarshal`
reads any text or fails.  A payload is written in base64, so it need not be JSON
itself.  The law is for every task: the error of `json.Marshal` for a time outside the
years 0 to 9999 is left out. -/
structure Json (Raw : Type) : Type where
  marshal : Task → Raw
  unmarshal : Raw → Option Task
  unmarshal_marshal : ∀ task, unmarshal (marshal task) = some task

/-- `kafka.Message`, as handed to a `HandlerFunc`. -/
structure Message (Raw : Type) : Type where
  topic : String
  key : String
  value : Raw
deriving DecidableEq

/-- Which service published a record, and for the scheduler which occurrence
`(job, next_run_at)` it fired at which clock reading.  A ghost: the record does
not carry it and no service reads it. -/
inductive Origin : Type
  | gateway
  | dispatcher
  | worker
  | scheduler (jobID : String) (due : Option Time) (firedAt : Time)
deriving DecidableEq

/-- One record of the Kafka log. -/
structure Record (Raw : Type) : Type where
  message : Message Raw
  origin : Origin
deriving DecidableEq

/-- `handlers.Handler`, known by its `TaskType`. -/
structure Handler : Type where
  taskType : String
deriving DecidableEq

/-- `handlers.Registry`. -/
structure Registry : Type where
  handlers : String → Option Handler

/-- `Registry.Register`. -/
def Registry.register (r : Registry) (h : Handler) : Registry :=
  ⟨Function.update r.handlers h.taskType (some h)⟩

/-- `Registry.Get`. -/
def Registry.get (r : Registry) (taskType : String) : Except Error Handler :=
  match r.handlers taskType with
  | none => .error (.invalidTaskType taskType)
  | some h => .ok h

/-- `scheduler.ScheduledJob`: a row of `scheduled_jobs`. -/
structure ScheduledJob : Type where
  id : String
  name : String
  cronExpr : String
  taskType : String
  payload : List UInt8
  enabled : Bool
  lastRunAt : Option Time
  nextRunAt : Option Time
deriving DecidableEq

/-- The table `scheduled_jobs`, whose `id` is a primary key. -/
structure JobTable : Type where
  rows : List ScheduledJob
  primaryKey : (rows.map ScheduledJob.id).Nodup

/-- The metrics of `pkg/telemetry` that the services count. -/
inductive Metric : Type
  | apiTasksSubmitted (taskType : String)
  | workerTasksProcessed (workerType status : String)
  | workerTasksInFlight (workerType : String)
  | workerRetriesTotal (workerType : String)
  | workerDLQTotal (workerType : String)
  | dispatcherTasksRouted (taskType : String)
  | dispatcherDLQTotal
  | dispatcherRateLimitedTotal
deriving DecidableEq

/-! ## The shared state -/

/-- The keys of `internal/redis` and of the scheduler: `task:state:<id>`,
`task:meta:<id>` and `scheduler:leader` with its expiry on the server's clock. -/
structure Redis : Type where
  state : String → Option Status
  metas : String → Option Task
  leader : Option (String × Time)
  time : Time

/-- The tables of the migrations, with what the input functions of the `JSONB`
and `UUID` columns accept. -/
structure Postgres : Type where
  tasks : String → Option Task
  executions : List TaskExecution
  jobs : JobTable
  acceptsJSON : List UInt8 → Bool
  acceptsUUID : String → Bool

/-- The calls that can fail, by kind. -/
inductive Call : Type
  | getStatus | setStatus | setTaskMeta | getTaskMeta
  | create | updateStatus | recordExecution | getByID
  | publish | loadDueJobs | updateJob
deriving DecidableEq

/-- How a leader command ends: normally, with an error and no effect, or with an
error after it took effect. -/
inductive Fault : Type
  | none | lost | hidden
deriving DecidableEq

/-- The behaviour of the surroundings still to come, one stream for each kind of
answer: head first. -/
structure Script : Type where
  fails : Call → Nat → Bool
  outcome : Nat → Option Error
  cancelInHandle : Nat → Bool
  cancelInWait : Nat → Bool
  timerFirst : Nat → Bool
  limiter : Nat → Except Error Bool
  fault : Nat → Fault
  clock : Nat → Time
  uuid : Nat → String

/-- The state that all services share. -/
structure World (Raw : Type) : Type where
  redis : Redis
  db : Postgres
  kafka : List (Record Raw)
  handled : List (Task × Option Error)
  metrics : Metric → Int
  cancelled : Bool
  script : Script

/-- Drop the head of a stream. -/
def rest {α : Type} (stream : Nat → α) : Nat → α := fun n => stream (n + 1)

@[simp] theorem rest_apply {α : Type} (stream : Nat → α) (n : Nat) :
    rest stream n = stream (n + 1) := rfl

variable {Raw : Type}

/-- Whether the next call of kind `c` fails. -/
def World.fails (w : World Raw) (c : Call) : Bool := w.cancelled || w.script.fails c 0

/-- The error of a call that could not be made. -/
def World.unavailable (w : World Raw) : Error :=
  if w.cancelled then .canceled else .new "connection refused"

/-- Count one call of kind `c` as made. -/
def World.spend (w : World Raw) (c : Call) : World Raw :=
  { w with script.fails := Function.update w.script.fails c (rest (w.script.fails c)) }

/-- Surroundings in which nothing fails and every handler succeeds. -/
def Script.calm : Script where
  fails _ _ := false
  outcome _ := none
  cancelInHandle _ := false
  cancelInWait _ := false
  timerFirst _ := true
  limiter _ := .ok true
  fault _ := .none
  clock n := n
  uuid n := toString n

/-- Identifiers of growing length. -/
def countedIDs (n : Nat) : String := String.ofList (List.replicate (n + 1) 'x')

theorem countedIDs_injective : Function.Injective countedIDs := by
  intro a b same
  have lengths := congrArg List.length (String.ofList_injective same)
  simpa using lengths

/-- A deployment with empty stores. -/
def World.fresh (script : Script) : World Raw where
  redis := { state := fun _ => none, metas := fun _ => none, leader := none, time := 0 }
  db :=
    { tasks := fun _ => none, executions := [], jobs := ⟨[], List.nodup_nil⟩,
      acceptsJSON := fun _ => true, acceptsUUID := fun _ => true }
  kafka := []
  handled := []
  metrics _ := 0
  cancelled := false
  script := script

/-! ## The leader key -/

/-- The owner of `scheduler:leader`, absent once its time to live is over. -/
def Redis.owner (r : Redis) : Option String :=
  match r.leader with
  | none => none
  | some (instanceID, expiry) => if r.time < expiry then some instanceID else none

/-- Write `scheduler:leader` with a time to live. -/
def Redis.lease (r : Redis) (instanceID : String) (ttl : Time) : Redis :=
  { r with leader := some (instanceID, r.time + ttl) }

/-- `leaderTTL`. -/
def leaderTTL : Time := 30 * second

/-- `SET scheduler:leader id NX EX 30`: whether the key was set. -/
def Redis.setNX (r : Redis) (instanceID : String) : Bool × Redis :=
  if r.owner = none then (true, r.lease instanceID leaderTTL) else (false, r)

/-- The renewal script: `PEXPIRE` if the key holds this instance, else 0. -/
def Redis.renew (r : Redis) (instanceID : String) : Int × Redis :=
  if r.owner = some instanceID then (1, r.lease instanceID leaderTTL) else (0, r)

/-! ## Tables -/

/-- Replace the row of one task. -/
def Postgres.putTask (db : Postgres) (id : String) (row : Option Task) : Postgres :=
  { db with tasks := Function.update db.tasks id row }

/-- `INSERT INTO tasks`: all columns but `completed_at`, which stays null.  The
schema forbids a taken id, a payload that is not JSON and a type of more than
100 characters; that it also forbids a priority outside the `INTEGER` range is left
out.  The row is taken as it was sent: the columns keep times to the microsecond, and
`JSONB` renders the payload again. -/
def Postgres.insertTask (db : Postgres) (task : Task) : Option Postgres :=
  if (db.tasks task.id).isSome || !db.acceptsJSON task.payload || task.type.length > 100 then
    none
  else
    some (db.putTask task.id (some { task with completedAt := none }))

/-- One row under `UPDATE tasks SET status, updated_at, completed_at`. -/
def Task.withStatus (row : Task) (status : Status) (now : Time) : Task :=
  { row with
    status := status
    updatedAt := now
    completedAt := if status.isTerminal then some now else none }

/-- `UPDATE tasks SET status, updated_at, completed_at WHERE id`: an absent row
is no error. -/
def Postgres.updateTask (db : Postgres) (id : String) (status : Status) (now : Time) : Postgres :=
  db.putTask id ((db.tasks id).map (·.withStatus status now))

/-- `INSERT INTO task_executions`: `task_id` references a row of `tasks`.  The row is taken
as it was sent, with a time that the column keeps to the microsecond. -/
def Postgres.insertExecution (db : Postgres) (exec : TaskExecution) : Option Postgres :=
  if (db.tasks exec.taskID).isSome then
    some { db with executions := db.executions ++ [exec] }
  else none

/-- `enabled = TRUE AND (next_run_at IS NULL OR next_run_at <= NOW())`. -/
def ScheduledJob.isDue (job : ScheduledJob) (now : Time) : Bool :=
  job.enabled && match job.nextRunAt with
    | none => true
    | some next => decide (next ≤ now)

/-- `next_run_at ASC NULLS FIRST`. -/
def ScheduledJob.before (a b : ScheduledJob) : Prop :=
  match a.nextRunAt, b.nextRunAt with
  | none, _ => True
  | some _, none => False
  | some x, some y => x ≤ y

instance : DecidableRel ScheduledJob.before := fun a b => by
  unfold ScheduledJob.before
  split <;> infer_instance

/-- The due rows in the order of the query. -/
def JobTable.due (table : JobTable) (now : Time) : List ScheduledJob :=
  (table.rows.filter (·.isDue now)).insertionSort ScheduledJob.before

/-- One row under `UPDATE scheduled_jobs SET last_run_at, next_run_at`.  The columns keep
times to the microsecond; what a schedule gives are whole seconds. -/
def ScheduledJob.fired (job : ScheduledJob) (now next : Time) : ScheduledJob :=
  { job with lastRunAt := some (now / 1000 * 1000), nextRunAt := some next }

/-- `UPDATE scheduled_jobs SET last_run_at, next_run_at WHERE id`. -/
def JobTable.update (table : JobTable) (id : String) (now next : Time) : JobTable where
  rows := table.rows.map fun job => if job.id = id then job.fired now next else job
  primaryKey := by
    rw [List.map_map, show ScheduledJob.id ∘ (fun job : ScheduledJob =>
      if job.id = id then job.fired now next else job) = ScheduledJob.id from funext fun job => by
        dsimp only [Function.comp]
        split <;> rfl]
    exact table.primaryKey

end TaskFlow
