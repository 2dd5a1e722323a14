import TaskFlow.World
import TaskFlow.Effect.Prog

/-!
# Answering the calls of the services

`Op` is the signature of the services: the methods of `StateStore`,
`TaskRepository`, `Producer`, `RateLimiter` and `Handler`, the queries and
commands of the scheduler, the clock, fresh identifiers and the metrics.
`perform` answers one call.  A service is a program over this signature
(`Service`), executed alone by `Service.run`.
-/

namespace TaskFlow

open Effect

/-- The calls of the services. -/
inductive Op (Raw : Type) : Type
  | getStatus (id : String)
  | setStatus (id : String) (status : Status)
  | setTaskMeta (task : Task)
  | getTaskMeta (id : String)
  | create (task : Task)
  | updateStatus (id : String) (status : Status)
  | recordExecution (exec : TaskExecution)
  | getByID (id : String)
  | publish (topic key : String) (value : Raw) (origin : Origin)
  | allow (taskType : String)
  | handle (handler : Handler) (task : Task)
  | wait (delay : Int64)
  | now
  | newUUID
  | count (metric : Metric) (delta : Int)
  | setNX (instanceID : String)
  | renew (instanceID : String)
  | loadDueJobs
  | updateJob (now next : Time) (id : String)

/-- The answer to a call.  A Go `error` is an `Option Error`, and a value with
an error is an `Except`. -/
abbrev Op.Ans {Raw : Type} : Op Raw → Type
  | .getStatus _ => Except Error Status
  | .getTaskMeta _ => Except Error Task
  | .getByID _ => Except Error Task
  | .allow _ => Except Error Bool
  | .now => Time
  | .newUUID => String
  | .count _ _ => Unit
  | .setNX _ => Except Error Bool
  | .renew _ => Except Error Int
  | .loadDueJobs => Except Error (List ScheduledJob)
  | _ => Option Error

/-- A service: a program over the calls. -/
abbrev Service (Raw : Type) : Type → Type := Prog (Op Raw) Op.Ans

variable {Raw : Type} {α : Type}

/-- The service that makes one call. -/
abbrev ask (op : Op Raw) : Service Raw op.Ans := Prog.op op

/-- Make a call of kind `c`: it fails with the error of the surroundings, or
`effect` takes place. -/
def World.attempt (w : World Raw) (c : Call) (failure : Error → α)
    (effect : World Raw → α × World Raw) : α × World Raw :=
  if w.fails c then (failure w.unavailable, w.spend c) else effect (w.spend c)

/-! ## `internal/redis` -/

/-- Replace the live status of one task. -/
def World.putState (w : World Raw) (id : String) (status : Option Status) : World Raw :=
  { w with redis.state := Function.update w.redis.state id status }

/-- Replace the cached copy of one task. -/
def World.putMeta (w : World Raw) (id : String) (task : Option Task) : World Raw :=
  { w with redis.metas := Function.update w.redis.metas id task }

/-- `stateStore.SetStatus`. -/
def World.setStatus (w : World Raw) (id : String) (status : Status) :
    Option Error × World Raw :=
  w.attempt .setStatus (fun err => some (.wrap ("redis set status for " ++ id) err))
    fun w => (none, w.putState id (some status))

/-- `stateStore.GetStatus`. -/
def World.getStatus (w : World Raw) (id : String) : Except Error Status × World Raw :=
  w.attempt .getStatus (fun err => .error (.wrap ("redis get status for " ++ id) err))
    fun w => (match w.redis.state id with
      | none => .error (.taskNotFound id)
      | some status => .ok status, w)

/-- `stateStore.SetTaskMeta`. -/
def World.setTaskMeta (w : World Raw) (task : Task) : Option Error × World Raw :=
  w.attempt .setTaskMeta (fun err => some (.wrap ("redis set meta for " ++ task.id) err))
    fun w => (none, w.putMeta task.id (some task))

/-- `stateStore.GetTaskMeta`. -/
def World.getTaskMeta (w : World Raw) (id : String) : Except Error Task × World Raw :=
  w.attempt .getTaskMeta (fun err => .error (.wrap ("redis get meta for " ++ id) err))
    fun w => (match w.redis.metas id with
      | none => .error (.taskNotFound id)
      | some task => .ok task, w)

/-! ## `internal/postgres` -/

/-- Read the clock once. -/
def World.tick (w : World Raw) : World Raw :=
  { w with script.clock := rest w.script.clock }

/-- Draw one identifier. -/
def World.draw (w : World Raw) : World Raw :=
  { w with script.uuid := rest w.script.uuid }

/-- `repository.Create`. -/
def World.create (w : World Raw) (task : Task) : Option Error × World Raw :=
  w.attempt .create (fun err => some (.wrap ("create task " ++ task.id) err))
    fun w => match w.db.insertTask task with
      | none => (some (.wrap ("create task " ++ task.id) (.new "constraint violation")), w)
      | some db => (none, { w with db := db })

/-- `repository.UpdateStatus`. -/
def World.updateStatus (w : World Raw) (id : String) (status : Status) :
    Option Error × World Raw :=
  w.tick.attempt .updateStatus (fun err => some (.wrap ("update status for task " ++ id) err))
    fun w' => (none, { w' with db := w'.db.updateTask id status (w.script.clock 0) })

/-- The defaults `RecordExecution` fills in: an identifier and a time. -/
def World.fillExecution (w : World Raw) (exec : TaskExecution) : TaskExecution × World Raw :=
  let named := if exec.id = "" then ({ exec with id := w.script.uuid 0 }, w.draw) else (exec, w)
  if named.1.executedAt = zeroTime then
    ({ named.1 with executedAt := named.2.script.clock 0 }, named.2.tick)
  else named

/-- `repository.RecordExecution`. -/
def World.recordExecution (w : World Raw) (exec : TaskExecution) : Option Error × World Raw :=
  let filled := w.fillExecution exec
  filled.2.attempt .recordExecution
    (fun err => some (.wrap ("record execution for task " ++ exec.taskID) err))
    fun w => match w.db.insertExecution filled.1 with
      | none => (some (.wrap ("record execution for task " ++ exec.taskID)
          (.new "foreign key violation")), w)
      | some db => (none, { w with db := db })

/-- `repository.GetByID` with `scanTask`. -/
def World.getByID (w : World Raw) (id : String) : Except Error Task × World Raw :=
  w.attempt .getByID (fun err => .error (.wrap "scan task" err))
    fun w =>
      (if w.db.acceptsUUID id then
        match w.db.tasks id with
        | none => .error (.taskNotFound "unknown")
        | some row => .ok row
      else .error (.wrap "scan task" (.new "invalid input syntax for type uuid")), w)

/-! ## Broker, limiter, handlers and clocks -/

/-- `producer.Publish`: one record, or none when it fails.  Every topic name is taken. -/
def World.publish (w : World Raw) (topic key : String) (value : Raw) (origin : Origin) :
    Option Error × World Raw :=
  w.attempt .publish (fun err => some (.wrap ("kafka publish to " ++ topic) err))
    fun w => (none, { w with kafka := w.kafka ++ [⟨⟨topic, key, value⟩, origin⟩] })

/-- `RateLimiter.Allow`: any answer. -/
def World.allow (w : World Raw) : Except Error Bool × World Raw :=
  (if w.cancelled then .error .canceled else w.script.limiter 0,
    { w with script.limiter := rest w.script.limiter })

/-- `Handler.Handle`, on a context of its own.  The context of the consumer may
be cancelled while the handler runs. -/
def World.handle (w : World Raw) (task : Task) : Option Error × World Raw :=
  (w.script.outcome 0,
    { w with
      handled := w.handled ++ [(task, w.script.outcome 0)]
      cancelled := w.cancelled || w.script.cancelInHandle 0
      script.outcome := rest w.script.outcome
      script.cancelInHandle := rest w.script.cancelInHandle })

/-- `select` on `time.After(delay)` and `ctx.Done()`: the timer unless the
context is cancelled by then; with both ready either may be taken. -/
def World.wait (w : World Raw) : Option Error × World Raw :=
  (if (w.cancelled || w.script.cancelInWait 0) && !w.script.timerFirst 0 then some .canceled
    else none,
    { w with
      cancelled := w.cancelled || w.script.cancelInWait 0
      script.cancelInWait := rest w.script.cancelInWait
      script.timerFirst := rest w.script.timerFirst })

/-- `Add` on a counter or gauge. -/
def World.count (w : World Raw) (metric : Metric) (delta : Int) : World Raw :=
  { w with metrics := Function.update w.metrics metric (w.metrics metric + delta) }

/-! ## The queries and commands of the scheduler -/

/-- A leader command under its fault: an error hides the reply, and the effect
may have taken place or not. -/
def World.command (w : World Raw) (command : Redis → α × Redis) : Except Error α × World Raw :=
  let w' : World Raw := { w with script.fault := rest w.script.fault }
  match w.script.fault 0 with
  | .none => (.ok (command w.redis).1, { w' with redis := (command w.redis).2 })
  | .lost => (.error (.new "connection refused"), w')
  | .hidden => (.error (.new "i/o timeout"), { w' with redis := (command w.redis).2 })

/-- The query of `loadDueJobs`. -/
def World.loadDueJobs (w : World Raw) : Except Error (List ScheduledJob) × World Raw :=
  w.tick.attempt .loadDueJobs (fun err => .error (.wrap "query scheduled_jobs" err))
    fun w' => (.ok (w'.db.jobs.due (w.script.clock 0)), w')

/-- The update of `runJob`. -/
def World.updateJob (w : World Raw) (now next : Time) (id : String) :
    Option Error × World Raw :=
  w.attempt .updateJob some
    fun w => (none, { w with db.jobs := w.db.jobs.update id now next })

/-- Answer one call. -/
def perform : (op : Op Raw) → World Raw → op.Ans × World Raw
  | .getStatus id, w => w.getStatus id
  | .setStatus id status, w => w.setStatus id status
  | .setTaskMeta task, w => w.setTaskMeta task
  | .getTaskMeta id, w => w.getTaskMeta id
  | .create task, w => w.create task
  | .updateStatus id status, w => w.updateStatus id status
  | .recordExecution exec, w => w.recordExecution exec
  | .getByID id, w => w.getByID id
  | .publish topic key value origin, w => w.publish topic key value origin
  | .allow _, w => w.allow
  | .handle _ task, w => w.handle task
  | .wait _, w => w.wait
  | .now, w => (w.script.clock 0, w.tick)
  | .newUUID, w => (w.script.uuid 0, w.draw)
  | .count metric delta, w => ((), w.count metric delta)
  | .setNX instanceID, w => w.command (·.setNX instanceID)
  | .renew instanceID, w => w.command (·.renew instanceID)
  | .loadDueJobs, w => w.loadDueJobs
  | .updateJob now next id, w => w.updateJob now next id

/-- Execute a service alone. -/
def Service.run (p : Service Raw α) (w : World Raw) : α × World Raw :=
  Prog.run perform p w

end TaskFlow
