import TaskFlow.Gateway

/-!
# `services/scheduler`

One tick of a scheduler instance: acquire or renew the leadership, load the due
jobs, fire each of them.  `Cron` stands for `robfig/cron`: `ParseStandard` gives
a schedule or an error, and `Next` the least activation after an instant, or the
zero time when there is none within five years.
-/

namespace TaskFlow

open Effect

/-- Five years, the horizon of `Schedule.Next`. -/
def fiveYears : Time := 5 * 365 * 86400 * second

/-- `cron.Schedule`: its activation times and its `Next`. -/
structure Schedule : Type where
  activates : Time → Prop
  next : Time → Time
  next_spec : ∀ t,
    (activates (next t) ∧ t < next t ∧ ∀ u, t < u → activates u → next t ≤ u) ∨
      (next t = zeroTime ∧ ∀ u, t < u → u ≤ t + fiveYears → ¬ activates u)

/-- `cron.ParseStandard`. -/
structure Cron : Type where
  parseStandard : String → Except Error Schedule

namespace Scheduler

variable {Raw : Type}

/-- A name printed with `%q`. -/
def quote (s : String) : String := "\"" ++ s ++ "\""

/-- Whether the reply of the renewal script makes this instance the leader. -/
def renewed : Except Error Int → Bool
  | .error _ => false
  | .ok result => result == 1

/-- The renewal step of `acquireOrRenewLeadership`. -/
def renewLeadership (instanceID : String) : Service Raw Bool := do
  let reply ← ask (.renew instanceID)
  pure (renewed reply)

/-- `acquireOrRenewLeadership` after the reply to `SET NX`. -/
def afterSetNX (instanceID : String) : Except Error Bool → Service Raw Bool
  | .error _ => pure false
  | .ok true => pure true
  | .ok false => renewLeadership instanceID

/-- `Scheduler.acquireOrRenewLeadership`. -/
def acquireOrRenewLeadership (instanceID : String) : Service Raw Bool := do
  let reply ← ask (.setNX instanceID)
  afterSetNX instanceID reply

theorem renewLeadership_eq (instanceID : String) :
    (renewLeadership instanceID : Service Raw Bool) =
      .call (.renew instanceID) fun reply => .pure (renewed reply) := rfl

theorem acquireOrRenewLeadership_eq (instanceID : String) :
    (acquireOrRenewLeadership instanceID : Service Raw Bool) =
      .call (.setNX instanceID) (afterSetNX instanceID) := rfl

/-- The task a job fires. -/
def newTask (job : ScheduledJob) (taskID : String) (now : Time) : Task where
  id := taskID
  type := job.taskType
  payload := job.payload
  status := .pending
  priority := 0
  attempts := 0
  maxRetries := 0
  createdAt := now
  updatedAt := now
  scheduledAt := none
  completedAt := none

/-- The error of `runJob` after its update. -/
def updateError (job : ScheduledJob) : Option Error → Option Error
  | some err => some (.wrap ("update scheduled_job " ++ quote job.name) err)
  | none => none

/-- `runJob` after a successful publish: the next activation is computed and
stored. -/
def reschedule (cron : Cron) (job : ScheduledJob) (now : Time) : Service Raw (Option Error) :=
  match cron.parseStandard job.cronExpr with
  | .error err =>
      pure (some (.wrap ("parse cron " ++ quote job.cronExpr ++ " for job " ++ quote job.name) err))
  | .ok schedule => do
      let failed ← ask (.updateJob now (schedule.next now) job.id)
      pure (updateError job failed)

/-- `runJob` after the publish. -/
def afterPublish (cron : Cron) (job : ScheduledJob) (now : Time) :
    Option Error → Service Raw (Option Error)
  | some err => pure (some (.wrap ("publish task for job " ++ quote job.name) err))
  | none => reschedule cron job now

/-- `Scheduler.runJob`. -/
def runJob (cron : Cron) (json : Json Raw) (job : ScheduledJob) :
    Service Raw (Option Error) := do
  let now ← ask .now
  let taskID ← ask .newUUID
  let failed ← ask (.publish topicPending taskID (json.marshal (newTask job taskID now))
    (.scheduler job.id job.nextRunAt now))
  afterPublish cron job now failed

/-- The loop of `processDueJobs`: an error of one job is logged. -/
def runJobs (cron : Cron) (json : Json Raw) : List ScheduledJob → Service Raw Unit
  | [] => pure ()
  | job :: jobs => do
      let _ ← runJob cron json job
      runJobs cron json jobs

/-- `processDueJobs` after the query. -/
def runLoaded (cron : Cron) (json : Json Raw) :
    Except Error (List ScheduledJob) → Service Raw (Option Error)
  | .error err => pure (some err)
  | .ok jobs => do
      runJobs cron json jobs
      pure none

/-- `Scheduler.processDueJobs`. -/
def processDueJobs (cron : Cron) (json : Json Raw) : Service Raw (Option Error) := do
  let loaded ← ask .loadDueJobs
  runLoaded cron json loaded

/-- `tick` once the instance knows whether it leads: an error is logged. -/
def whenLeader (cron : Cron) (json : Json Raw) (leads : Bool) : Service Raw Unit :=
  if leads then do
    let _ ← processDueJobs cron json
    pure ()
  else pure ()

/-- `Scheduler.tick`. -/
def tick (cron : Cron) (json : Json Raw) (instanceID : String) : Service Raw Unit := do
  let leads ← acquireOrRenewLeadership instanceID
  whenLeader cron json leads

/-! ## The calls in order -/

variable {cron : Cron} {json : Json Raw}

theorem runJobs_cons (job : ScheduledJob) (jobs : List ScheduledJob) :
    runJobs cron json (job :: jobs) = .call .now fun now => .call .newUUID fun taskID =>
      .call (.publish topicPending taskID (json.marshal (newTask job taskID now))
        (.scheduler job.id job.nextRunAt now)) fun failed =>
          afterPublish cron job now failed >>= fun _ => runJobs cron json jobs := rfl

theorem tick_eq (instanceID : String) :
    tick cron json instanceID = .call (.setNX instanceID) fun reply =>
      afterSetNX instanceID reply >>= whenLeader cron json := rfl

theorem renew_eq (instanceID : String) :
    (renewLeadership instanceID >>= whenLeader cron json) =
      .call (.renew instanceID) fun reply => whenLeader cron json (renewed reply) := rfl

theorem whenLeader_true :
    whenLeader cron json true = .call .loadDueJobs fun loaded =>
      runLoaded cron json loaded >>= fun _ => .pure () := rfl

theorem runLoaded_ok (jobs : List ScheduledJob) :
    (runLoaded cron json (.ok jobs) >>= fun _ => .pure ()) = runJobs cron json jobs := by
  simp only [runLoaded, Prog.bind_assoc, Prog.pure_bind]
  exact Prog.bind_pure (runJobs cron json jobs)

end Scheduler

/-! ## A schedule -/

/-- One minute. -/
def minute : Time := 60 * second

/-- A schedule that activates at every full minute. -/
def everyMinute : Schedule where
  activates t := minute ∣ t
  next t := (t / minute + 1) * minute
  next_spec t := by
    have pos : 0 < minute := by decide
    refine .inl ⟨Int.dvd_mul_left .., Int.lt_ediv_add_one_mul_self t pos, ?_⟩
    rintro u later ⟨q, rfl⟩
    rw [Int.mul_comm minute q] at later ⊢
    exact Int.mul_le_mul_of_nonneg_right (Int.ediv_lt_of_lt_mul pos later) pos.le

/-- A parser of one expression. -/
def minuteCron : Cron where
  parseStandard expr :=
    if expr = "* * * * *" then .ok everyMinute else .error (.new "expected exactly 5 fields")

end TaskFlow
