import Mathlib.Data.Fintype.Basic
import TaskFlow.Jobs
import TaskFlow.Leadership
import TaskFlow.Effect.Ledger

/-!
# Occurrences of scheduled jobs

Any number of scheduler instances tick concurrently, one call at a time.  An
occurrence is a job with the `next_run_at` it was loaded with.  The publish of an
occurrence and the update of `next_run_at` are separate steps, and leadership is
not checked again between them, so two instances can fire one occurrence.

The jobs, the log and the updates still to be made are a ledger (`schedulerLedger`).
`tick_refines`: a step whose publish, if it makes one, is of a current occurrence is
a step of the ledger.  `occurrence_fires_once` is then soundness of the ledger.
-/

namespace TaskFlow

open Effect

variable {Raw ι : Type}

/-- The expression parses and every instant has a later activation. -/
def Cron.Valid (cron : Cron) (expr : String) : Prop :=
  ∃ schedule, cron.parseStandard expr = .ok schedule ∧ ∀ t, t < schedule.next t

/-! ## What a tick does between its calls -/

namespace Scheduler

variable {cron : Cron} {json : Json Raw}

/-- The answers of reliable infrastructure with valid jobs. -/
def Expected (cron : Cron) : (op : Op Raw) → op.Ans → Prop
  | .publish _ _ _ _, failed => failed = none
  | .loadDueJobs, loaded => ∀ jobs, loaded = .ok jobs → ∀ job ∈ jobs, cron.Valid job.cronExpr
  | _, _ => True

/-- The update of a job comes right after its publish and nowhere else. -/
def Updates : (op : Op Raw) → op.Ans → Service Raw Unit → Prop
  | .publish topic _ _ origin, _, rest => ∃ jobID due now next, topic = topicPending ∧
      origin = .scheduler jobID due now ∧ now < next ∧
      rest.head = some (.updateJob now next jobID)
  | _, _, rest => ∀ now next jobID, rest.head ≠ some (.updateJob now next jobID)

theorem runJobs_follows (json : Json Raw) {jobs : List ScheduledJob}
    (valid : ∀ job ∈ jobs, cron.Valid job.cronExpr) :
    Prog.Follows (Expected cron) Updates (runJobs cron json jobs) ∧
      ∀ now next jobID, (runJobs cron json jobs).head ≠ some (.updateJob now next jobID) := by
  induction jobs with
  | nil => exact ⟨trivial, by simp [runJobs, Prog.head]⟩
  | cons job jobs ih =>
      obtain ⟨later, started⟩ := ih fun job member => valid job (List.mem_cons_of_mem _ member)
      obtain ⟨schedule, parsed, after⟩ := valid job List.mem_cons_self
      rw [runJobs_cons]
      refine ⟨fun now _ => ⟨by simp [Updates, Prog.head], fun taskID _ =>
        ⟨by simp [Updates, Prog.head], fun failed expected => ?_⟩⟩, by simp [Prog.head]⟩
      obtain rfl : failed = none := expected
      have rest : (afterPublish cron job now none >>= fun _ => runJobs cron json jobs) =
          .call (.updateJob now (schedule.next now) job.id) fun _ => runJobs cron json jobs := by
        simp only [afterPublish, reschedule, parsed]
        rfl
      dsimp only
      rw [rest]
      exact ⟨⟨_, _, _, _, rfl, rfl, after now, rfl⟩, fun _ _ => ⟨started, later⟩⟩

theorem whenLeader_follows (cron : Cron) (json : Json Raw) (leads : Bool) :
    Prog.Follows (Expected cron) Updates (whenLeader cron json leads) ∧
      ∀ now next jobID, (whenLeader cron json leads).head ≠ some (.updateJob now next jobID) := by
  cases leads with
  | false => exact ⟨trivial, by simp [whenLeader, Prog.head]⟩
  | true =>
      rw [whenLeader_true]
      refine ⟨fun loaded expected => ?_, by simp [Prog.head]⟩
      cases loaded with
      | error err => exact ⟨by simp [Updates, runLoaded, Prog.head], trivial⟩
      | ok jobs =>
          dsimp only
          rw [runLoaded_ok]
          obtain ⟨follows, started⟩ := runJobs_follows json (expected jobs rfl)
          exact ⟨started, follows⟩

theorem tick_follows (instanceID : String) :
    Prog.Follows (Expected cron) Updates (tick cron json instanceID) := by
  rw [tick_eq]
  intro reply _
  obtain ⟨leading, load⟩ := whenLeader_follows cron json true
  obtain ⟨idling, none⟩ := whenLeader_follows cron json false
  rcases reply with err | (_ | _)
  · exact ⟨none, idling⟩
  · refine ⟨by simp [Updates, afterSetNX, renew_eq, Prog.head], fun reply _ => ?_⟩
    obtain ⟨follows, started⟩ := whenLeader_follows cron json (renewed reply)
    exact ⟨started, follows⟩
  · exact ⟨load, leading⟩

end Scheduler

/-! ## The jobs, the log and the updates to be made -/

/-- The occurrence a record of `tasks.pending` was fired for. -/
def Record.occurrence (r : Record Raw) : Option (String × Option Time) :=
  match r.origin with
  | .scheduler jobID due _ => if r.message.topic = topicPending then some (jobID, due) else none
  | _ => none

/-- How many tasks were published for an occurrence. -/
def World.firings (w : World Raw) (jobID : String) (due : Option Time) : Nat :=
  w.kafka.countP fun r => r.occurrence = some (jobID, due)

/-- Scheduler instances `ids`, each ticking again and again. -/
def schedulers (cron : Cron) (json : Json Raw) (ids : ι → String) :
    System (Op Raw) Op.Ans (World Raw) ι Unit Unit where
  perform := perform
  body i _ := Scheduler.tick cron json (ids i)
  Admits _ _ _ := True
  Env w w' := ∃ d, 0 ≤ d ∧ w' = w.elapse d

/-- The pool of the schedulers. -/
abbrev SchedulerPool (Raw ι : Type) : Type := Pool (Op Raw) Op.Ans (World Raw) ι Unit Unit

/-- A step of the schedulers. -/
abbrev SchedulerStep (Raw ι : Type) : Type :=
  Transition (SchedulerPool Raw ι) (Label (Op Raw) ι Unit)

/-- `next_run_at` values, null before all others. -/
def Earlier : Option Time → Option Time → Prop
  | none, some _ => True
  | some a, some b => a < b
  | _, none => False

instance : Std.Irrefl Earlier where
  irrefl v before := by
    cases v with
    | none => exact before
    | some a => exact lt_irrefl a before

instance : IsTrans (Option Time) Earlier where
  trans u v w first second := by
    cases v with
    | none => exact absurd first (by cases u <;> exact id)
    | some b =>
        cases w with
        | none => exact second.elim
        | some c =>
            cases u with
            | none => trivial
            | some a => exact lt_trans (α := Time) first second

/-- The update a program makes next. -/
def pendingUpdate (p : Service Raw Unit) : Option (String × Option Time) :=
  match p.head with
  | some (.updateJob _ next jobID) => some (jobID, some next)
  | _ => none

/-- The ledger of the jobs. -/
def schedulerLedger (s : SchedulerPool Raw ι) : Ledger ι String (Option Time) where
  due := s.world.db.jobs.nextRunAt
  fired := s.world.firings
  pending i := (s.threads i).bind fun thread => pendingUpdate thread.rest

/-- The occurrence a step fires, and the instant it is fired at. -/
def firing : Label (Op Raw) ι Unit → Option (String × Option Time × Time)
  | .act _ (.publish _ _ _ (.scheduler jobID due now)) => some (jobID, due, now)
  | _ => none

/-- The occurrence is current: it is what the row of the job holds, no update of the
row is about to be made, and its time has come. -/
structure Current (s : SchedulerPool Raw ι) (jobID : String) (due : Option Time) (now : Time) :
    Prop where
  row : ∃ job ∈ s.world.db.jobs.rows, job.id = jobID ∧ job.nextRunAt = due
  free : ∀ i, ∀ update ∈ (schedulerLedger s).pending i, update.1 ≠ jobID
  reached : ∀ v ∈ due, v ≤ now

instance [Fintype ι] (s : SchedulerPool Raw ι) (jobID : String) (due : Option Time) (now : Time) :
    Decidable (Current s jobID due now) :=
  decidable_of_iff ((∃ job ∈ s.world.db.jobs.rows, job.id = jobID ∧ job.nextRunAt = due) ∧
      (∀ i, ∀ update ∈ (schedulerLedger s).pending i, update.1 ≠ jobID) ∧ ∀ v ∈ due, v ≤ now)
    ⟨fun ⟨row, free, reached⟩ => ⟨row, free, reached⟩, fun h => ⟨h.row, h.free, h.reached⟩⟩

/-- No instance stops in the middle of a tick. -/
def Completes (e : SchedulerStep Raw ι) : Prop :=
  match e.label with
  | .stop i => ∀ thread ∈ e.pre.threads i, thread.rest.head = none
  | _ => True

instance (e : SchedulerStep Raw ι) : Decidable (Completes e) :=
  match e with
  | ⟨s, .stop i, _⟩ => inferInstanceAs (Decidable (∀ thread ∈ s.threads i, thread.rest.head = none))
  | ⟨_, .start _ _, _⟩ => .isTrue trivial
  | ⟨_, .act _ _, _⟩ => .isTrue trivial
  | ⟨_, .env, _⟩ => .isTrue trivial

/-- What holds between the steps of the schedulers. -/
structure Ticking (cron : Cron) (s : SchedulerPool Raw ι) : Prop where
  calm : s.world.Calm
  valid : ∀ job ∈ s.world.db.jobs.rows, cron.Valid job.cronExpr
  follows : ∀ i thread, s.threads i = some thread →
    Prog.Follows (Scheduler.Expected cron) Scheduler.Updates thread.rest
  rows : ∀ i jobID next, (schedulerLedger s).pending i = some (jobID, next) →
    ∃ job ∈ s.world.db.jobs.rows, job.id = jobID

/-- Reliable infrastructure with valid jobs answers as expected. -/
theorem expected_answer {cron : Cron} {w : World Raw} (up : w.Up)
    (valid : ∀ job ∈ w.db.jobs.rows, cron.Valid job.cronExpr) (op : Op Raw) :
    Scheduler.Expected cron op (perform op w).1 := by
  cases op with
  | publish topic key value origin => exact (up.publish topic key value origin).1
  | loadDueJobs =>
      intro jobs loaded job member
      rw [up.loadDueJobs] at loaded
      cases loaded
      exact valid job (JobTable.mem_due.mp member).1
  | _ => trivial

/-- The rows keep their identifiers and expressions. -/
theorem perform_rows {w : World Raw} (up : w.Up) (op : Op Raw) :
    ∀ job ∈ (perform op w).2.db.jobs.rows,
      ∃ old ∈ w.db.jobs.rows, job.id = old.id ∧ job.cronExpr = old.cronExpr := by
  by_cases updates : ∃ now next id, op = .updateJob now next id
  · obtain ⟨now, next, id, rfl⟩ := updates
    rw [up.updateJob]
    intro job member
    obtain ⟨old, before, rfl⟩ := List.mem_map.mp member
    refine ⟨old, before, ?_⟩
    split
    · exact ⟨rfl, rfl⟩
    · exact ⟨rfl, rfl⟩
  · rw [perform_jobs fun now next id eq => updates ⟨now, next, id, eq⟩]
    exact fun job member => ⟨job, member, rfl, rfl⟩

theorem perform_ids {w : World Raw} (up : w.Up) (op : Op Raw) {jobID : String}
    (present : ∃ job ∈ w.db.jobs.rows, job.id = jobID) :
    ∃ job ∈ (perform op w).2.db.jobs.rows, job.id = jobID := by
  obtain ⟨job, member, rfl⟩ := present
  by_cases updates : ∃ now next id, op = .updateJob now next id
  · obtain ⟨now, next, id, rfl⟩ := updates
    rw [up.updateJob]
    refine ⟨_, JobTable.mem_update member, ?_⟩
    split
    · rfl
    · rfl
  · rw [perform_jobs fun now next id eq => updates ⟨now, next, id, eq⟩]
    exact ⟨job, member, rfl⟩

theorem pendingUpdate_eq_none {p : Service Raw Unit}
    (other : ∀ now next jobID, p.head ≠ some (.updateJob now next jobID)) :
    pendingUpdate p = none := by
  unfold pendingUpdate
  split
  · rename_i now next jobID head
    exact absurd head (other now next jobID)
  · rfl

/-! ## Refinement -/

section Refinement

variable [DecidableEq ι] {cron : Cron} {json : Json Raw} {ids : ι → String}
  {s t : SchedulerPool Raw ι} {i : ι} {request : Unit} {op : Op Raw}
  {next : op.Ans → Service Raw Unit}

theorem ledger_act_pending :
    (schedulerLedger (s.act perform i request op next)).pending =
      Function.update (schedulerLedger s).pending i
        (pendingUpdate (next (perform op s.world).1)) := by
  funext j
  by_cases same : j = i
  · subst same
    rw [Function.update_self]
    simp only [schedulerLedger, Pool.act_self, Option.bind_some]
  · rw [Function.update_of_ne same]
    simp only [schedulerLedger, Pool.act_ne same]

omit [DecidableEq ι] in
theorem ledger_pending_call (here : s.threads i = some ⟨request, .call op next⟩) :
    (schedulerLedger s).pending i = pendingUpdate (.call op next) := by
  simp only [schedulerLedger, here, Option.bind_some]

/-- The publish of a current occurrence fires it. -/
theorem publish_fires {topic key : String} {value : Raw} {origin : Origin}
    {next : (Op.publish topic key value origin : Op Raw).Ans → Service Raw Unit}
    (inv : Ticking cron s)
    (here : s.threads i = some ⟨request, .call (.publish topic key value origin) next⟩)
    (current : ∀ f ∈ firing (.act i (.publish topic key value origin)),
      Current s f.1 f.2.1 f.2.2) :
    Ledger.Step Earlier (schedulerLedger s)
      (schedulerLedger (s.act perform i request (.publish topic key value origin) next)) := by
  have expected := expected_answer inv.calm.up inv.valid (.publish topic key value origin)
  obtain ⟨⟨jobID, due, now, soon, rfl, rfl, lt, head⟩, _⟩ :=
    inv.follows i _ here _ expected
  have fired := current (jobID, due, now) rfl
  obtain ⟨job, member, rfl, rfl⟩ := fired.row
  have free : (schedulerLedger s).pending i = none := ledger_pending_call here
  have held : (schedulerLedger s).due job.id = job.nextRunAt := JobTable.nextRunAt_of_mem member
  have after : schedulerLedger (s.act perform i request
      (.publish topicPending key value (.scheduler job.id job.nextRunAt now)) next) =
      (schedulerLedger s).fire i job.id (some soon) := by
    refine Ledger.ext ?_ ?_ ?_
    · exact congrArg JobTable.nextRunAt (perform_jobs (by simp))
    · funext id v
      have sent := (inv.calm.up.publish topicPending key value
        (.scheduler job.id job.nextRunAt now)).2
      simp only [schedulerLedger, Ledger.fire, World.firings, Pool.act, sent, List.countP_append,
        List.countP_singleton, Record.occurrence, if_true, Option.some.injEq, Prod.mk.injEq,
        decide_eq_true_eq, JobTable.nextRunAt_of_mem member]
      simp only [eq_comm]
    · rw [ledger_act_pending]
      have pends : pendingUpdate (next (perform (.publish topicPending key value
          (.scheduler job.id job.nextRunAt now)) s.world).1) = some (job.id, some soon) := by
        simp only [pendingUpdate, head]
      rw [pends]
      rfl
  rw [after]
  refine .fire free (fun j u pending => fired.free j (job.id, u) pending rfl) ?_
  rw [held]
  cases due : job.nextRunAt with
  | none => trivial
  | some v => exact lt_of_le_of_lt (α := Time) (fired.reached v due) lt

/-- The update of a job moves it. -/
theorem updateJob_moves {now soon : Time} {jobID : String}
    {next : (Op.updateJob now soon jobID : Op Raw).Ans → Service Raw Unit}
    (inv : Ticking cron s)
    (here : s.threads i = some ⟨request, .call (.updateJob now soon jobID) next⟩) :
    Ledger.Step Earlier (schedulerLedger s)
      (schedulerLedger (s.act perform i request (.updateJob now soon jobID) next)) := by
  have own : (schedulerLedger s).pending i = some (jobID, some soon) := ledger_pending_call here
  obtain ⟨job, member, rfl⟩ := inv.rows i jobID (some soon) own
  obtain ⟨head, _⟩ := inv.follows i _ here _
    (expected_answer inv.calm.up inv.valid (.updateJob now soon job.id))
  have after : schedulerLedger (s.act perform i request (.updateJob now soon job.id) next) =
      (schedulerLedger s).move i job.id (some soon) := by
    refine Ledger.ext ?_ ?_ ?_
    · funext id
      simp only [schedulerLedger, Ledger.move, Pool.act, inv.calm.up.updateJob,
        JobTable.nextRunAt_update member, Function.update_apply]
    · funext id v
      simp only [schedulerLedger, Ledger.move, World.firings, Pool.act]
      rw [perform_kafka (by simp)]
    · rw [ledger_act_pending, pendingUpdate_eq_none head]
      rfl
  rw [after]
  exact .move own

/-- Any other call leaves the ledger alone. -/
theorem other_idle (inv : Ticking cron s) (here : s.threads i = some ⟨request, .call op next⟩)
    (publishes : ∀ topic key value origin, op ≠ .publish topic key value origin)
    (updates : ∀ now soon jobID, op ≠ .updateJob now soon jobID) :
    schedulerLedger (s.act perform i request op next) = schedulerLedger s := by
  have follows := (inv.follows i _ here _ (expected_answer inv.calm.up inv.valid op)).1
  have head : ∀ now soon jobID,
      (next (perform op s.world).1).head ≠ some (.updateJob now soon jobID) := by
    cases op with
    | publish topic key value origin => exact absurd rfl (publishes topic key value origin)
    | _ => exact follows
  have idle : (schedulerLedger s).pending i = none := by
    rw [ledger_pending_call here]
    refine pendingUpdate_eq_none fun now soon jobID eq => updates now soon jobID ?_
    exact Option.some.inj eq
  refine Ledger.ext ?_ ?_ ?_
  · exact congrArg JobTable.nextRunAt (perform_jobs updates)
  · funext id v
    simp only [schedulerLedger, World.firings, Pool.act]
    rw [perform_kafka publishes]
  · rw [ledger_act_pending, pendingUpdate_eq_none head, ← idle, Function.update_eq_self]

/-- A slot comes to an update by the publish of an occurrence of the job. -/
theorem pending_act (inv : Ticking cron s) (here : s.threads i = some ⟨request, .call op next⟩)
    {j : ι} {jobID : String} {v : Option Time}
    (pending : (schedulerLedger (s.act perform i request op next)).pending j = some (jobID, v)) :
    (schedulerLedger s).pending j = some (jobID, v) ∨
      ∃ due now, (jobID, due, now) ∈ firing (.act i op) := by
  rw [ledger_act_pending] at pending
  by_cases same : j = i
  · subst same
    rw [Function.update_self] at pending
    have follows := (inv.follows j _ here _ (expected_answer inv.calm.up inv.valid op)).1
    cases op with
    | publish topic key value origin =>
        obtain ⟨id, due, now, soon, rfl, rfl, _, head⟩ := follows
        simp only [pendingUpdate, head, Option.some.injEq, Prod.mk.injEq] at pending
        exact .inr ⟨due, now, by rw [← pending.1]; rfl⟩
    | _ =>
        rw [pendingUpdate_eq_none follows] at pending
        cases pending
  · rw [Function.update_of_ne same] at pending
    exact .inl pending

theorem ledger_put {thread : Option (Thread (Op Raw) Op.Ans Unit Unit)}
    (idle : (schedulerLedger s).pending i = none)
    (still : (thread.bind fun thread => pendingUpdate thread.rest) = none) :
    schedulerLedger (s.put i thread) = schedulerLedger s := by
  refine Ledger.ext rfl rfl (funext fun j => ?_)
  by_cases same : j = i
  · subst same
    rw [idle]
    simp only [schedulerLedger, Pool.put_self]
    exact still
  · simp only [schedulerLedger, Pool.put_ne _ same]

/-- A step that fires only a current occurrence, and ends no tick in its middle, is
a step of the ledger. -/
theorem tick_refines {l : Label (Op Raw) ι Unit} (inv : Ticking cron s)
    (step : (schedulers cron json ids).Step s l t)
    (current : ∀ f ∈ firing l, Current s f.1 f.2.1 f.2.2) (completes : Completes ⟨s, l, t⟩) :
    Ledger.Step Earlier (schedulerLedger s) (schedulerLedger t) := by
  cases step with
  | @start i request free _ =>
      rw [ledger_put (by simp only [schedulerLedger, free, Option.bind_none]) rfl]
      exact .idle
  | @act i request op next here =>
      by_cases publishes : ∃ topic key value origin, op = .publish topic key value origin
      · obtain ⟨topic, key, value, origin, rfl⟩ := publishes
        exact publish_fires inv here current
      · by_cases updates : ∃ now soon jobID, op = .updateJob now soon jobID
        · obtain ⟨now, soon, jobID, rfl⟩ := updates
          exact updateJob_moves inv here
        · have idle := other_idle inv here
            (fun topic key value origin eq => publishes ⟨topic, key, value, origin, eq⟩)
            fun now soon jobID eq => updates ⟨now, soon, jobID, eq⟩
          rw [show schedulerLedger (s.act (schedulers cron json ids).perform i request op next) =
            schedulerLedger s from idle]
          exact .idle
  | @stop i thread here =>
      have ended : thread.rest.head = none := completes thread here
      rw [ledger_put (by simp only [schedulerLedger, here, Option.bind_some, pendingUpdate, ended])
        rfl]
      exact .idle
  | env moved =>
      obtain ⟨d, _, rfl⟩ := moved
      exact .idle

theorem Ticking.step {l : Label (Op Raw) ι Unit} (inv : Ticking cron s)
    (step : (schedulers cron json ids).Step s l t)
    (current : ∀ f ∈ firing l, Current s f.1 f.2.1 f.2.2) : Ticking cron t where
  calm := by
    refine step.world_invariant (I := World.Calm) (fun _ _ => perform_calm) ?_ inv.calm
    rintro w w' ⟨d, _, rfl⟩ calm
    exact ⟨⟨calm.live, calm.inHandle, calm.inWait⟩, calm.reliable⟩
  valid := by
    rcases step.world_cases with ⟨_, same⟩ | ⟨_, _, op, _, _, _, after⟩ | ⟨_, d, _, same⟩
    · rw [same]
      exact inv.valid
    · rw [after]
      intro job member
      obtain ⟨old, before, _, expr⟩ := perform_rows inv.calm.up op job member
      rw [expr]
      exact inv.valid old before
    · rw [same]
      exact inv.valid
  follows := step.thread_invariant
    (T := fun _ _ rest => Prog.Follows (Scheduler.Expected cron) Scheduler.Updates rest)
    (fun i _ => Scheduler.tick_follows (ids i))
    (fun _ _ op _ follows => (follows _ (expected_answer inv.calm.up inv.valid op)).2) inv.follows
  rows j jobID v pending := by
    cases step with
    | @start i request free _ =>
        rw [ledger_put (by simp only [schedulerLedger, free, Option.bind_none]) rfl] at pending
        exact inv.rows j jobID v pending
    | @act i request op next here =>
        refine perform_ids inv.calm.up op ?_
        rcases pending_act inv here pending with old | ⟨due, now, fires⟩
        · exact inv.rows j jobID v old
        · obtain ⟨job, member, same, _⟩ := (current _ fires).row
          exact ⟨job, member, same⟩
    | @stop i thread here =>
        refine inv.rows j jobID v ?_
        by_cases same : j = i
        · subst same
          simp only [schedulerLedger, Pool.put_self, Option.bind_none] at pending
          cases pending
        · simpa only [schedulerLedger, Pool.put_ne _ same] using pending
    | env moved =>
        obtain ⟨d, _, rfl⟩ := moved
        exact inv.rows j jobID v pending

/-- **Occurrences fired by several instances.**  In every interleaving of ticks of
any number of scheduler instances, with reliable infrastructure and valid
expressions, under any expiry of the leader key: if every published occurrence is
current at its publish, each is published at most once. -/
theorem occurrence_fires_once {h : List (SchedulerStep Raw ι)} (idle : ∀ i, s.threads i = none)
    (calm : s.world.Calm) (valid : ∀ job ∈ s.world.db.jobs.rows, cron.Valid job.cronExpr)
    (unfired : ∀ jobID due, s.world.firings jobID due = 0)
    (run : Trace (schedulers cron json ids).Step s h t) (completes : ∀ e ∈ h, Completes e)
    (current : ∀ e ∈ h, ∀ f ∈ firing e.label, Current e.pre f.1 f.2.1 f.2.2) :
    ∀ jobID due, t.world.firings jobID due ≤ 1 := by
  have free : ∀ i, (schedulerLedger s).pending i = none := by
    intro i
    simp only [schedulerLedger, idle, Option.bind_none]
  have ticking : Ticking cron s := by
    refine ⟨calm, valid, fun i thread running => ?_, fun i jobID next pending => ?_⟩
    · exact absurd running (Pool.ne_some_of_idle idle)
    · rw [free i] at pending
      cases pending
  have sound : (schedulerLedger s).Sound Earlier := by
    refine ⟨fun jobID due => ?_, fun i _ _ _ _ pending => ?_, fun i _ _ pending => ?_,
      fun jobID due fired => ?_⟩
    · exact (unfired jobID due).le.trans zero_le_one
    · rw [free i] at pending
      cases pending
    · rw [free i] at pending
      cases pending
    · exact absurd (unfired jobID due) (Nat.pos_iff_ne_zero.mp fired)
  have both := run.invariant (I := fun s => Ticking cron s ∧ (schedulerLedger s).Sound Earlier)
    ⟨ticking, sound⟩ fun e member step inv =>
      ⟨inv.1.step step (current e member),
        inv.2.step (tick_refines inv.1 step (current e member) (completes e member))⟩
  exact both.2.fired_le

end Refinement

/-! ## Two instances and a slow tick -/

theorem minuteCron_valid : minuteCron.Valid "* * * * *" :=
  ⟨everyMinute, rfl, fun t => Int.lt_ediv_add_one_mul_self t (by decide)⟩

/-- A job that is due. -/
def reportJob : ScheduledJob where
  id := "job-1"
  name := "report"
  cronExpr := "* * * * *"
  taskType := "email"
  payload := [123, 125]
  enabled := true
  lastRunAt := none
  nextRunAt := some 0

/-- The clock reads 0 s and 1 s, and then 32 s, 33 s, and so on. -/
def slowScript : Script :=
  { Script.calm with clock := fun n => if n < 2 then n * second else (n + 30) * second }

theorem slowScript_clock (n : Nat) : slowScript.clock n ≤ slowScript.clock (n + 1) := by
  have le : (if n < 2 then (n : Int) * second else ((n : Int) + 30) * second) ≤
      if n + 1 < 2 then ((n + 1 : Nat) : Int) * second
      else (((n + 1 : Nat) : Int) + 30) * second := by
    unfold second
    split <;> split <;> omega
  exact le

/-- One job is due and no instance is ticking. -/
def reportDue : SchedulerPool Task Bool where
  world :=
    { (World.fresh slowScript : World Task) with
      db.jobs := ⟨[reportJob], List.nodup_singleton _⟩ }
  threads _ := none

theorem reportDue_calm : reportDue.world.Calm :=
  ⟨⟨rfl, fun _ => rfl, fun _ => rfl⟩, fun _ _ => rfl⟩

theorem reportDue_valid :
    ∀ job ∈ reportDue.world.db.jobs.rows, minuteCron.Valid job.cronExpr := by
  intro job member
  obtain rfl : job = reportJob := List.mem_singleton.mp member
  exact minuteCron_valid

/-- The first instance loads the job and loses the key before it publishes. -/
def overtaken : List (Move (World Task) Bool Unit) :=
  [.start false ()] ++ List.replicate 4 (.act false) ++
    [.env (·.elapse leaderTTL), .start true ()] ++ List.replicate 5 (.act true) ++ [.act false]

/-- The first instance finishes its tick and the second takes over. -/
def inTurn : List (Move (World Task) Bool Unit) :=
  [.start false ()] ++ List.replicate 6 (.act false) ++
    [.stop false, .env (·.elapse leaderTTL), .start true ()] ++ List.replicate 2 (.act true)

theorem schedulers_play (moves : List (Move (World Task) Bool Unit))
    (elapses : ∀ change, .env change ∈ moves → change = (·.elapse leaderTTL)) :
    Trace (schedulers minuteCron plainJson twoInstances).Step reportDue
      ((schedulers minuteCron plainJson twoInstances).play reportDue moves)
      ((schedulers minuteCron plainJson twoInstances).final reportDue moves) := by
  refine System.play_trace (fun e _ => ?_) fun change member w => ?_
  · unfold System.Admitted
    split <;> trivial
  · exact ⟨leaderTTL, by decide, by rw [elapses change member]⟩

/-- An occurrence is fired twice when the key expires during a tick. -/
theorem occurrence_fires_twice :
    ¬ ∀ (cron : Cron) (ids : Bool → String) (s t : SchedulerPool Task Bool)
      (h : List (SchedulerStep Task Bool)),
      Function.Injective ids → (∀ i, s.threads i = none) → s.world.Calm →
      (∀ n, s.world.script.fault n = .none) →
      (∀ n, s.world.script.clock n ≤ s.world.script.clock (n + 1)) →
      (∀ job ∈ s.world.db.jobs.rows, cron.Valid job.cronExpr) →
      (∀ jobID due, s.world.firings jobID due = 0) →
      Trace (schedulers cron plainJson ids).Step s h t → (∀ e ∈ h, Completes e) →
      ∀ jobID due, t.world.firings jobID due ≤ 1 := by
  intro firesOnce
  have run := schedulers_play overtaken (by simp [overtaken])
  have twice := firesOnce minuteCron twoInstances _ _ _ twoInstances_injective (fun _ => rfl)
    reportDue_calm (fun _ => rfl) slowScript_clock reportDue_valid (fun _ _ => rfl) run
    (by decide) "job-1" (some 0)
  exact absurd twice (by decide)

/-- Two ticks one after the other fire the occurrence once. -/
theorem occurrence_fires_once_inTurn :
    ((schedulers minuteCron plainJson twoInstances).final reportDue inTurn).world.firings
        "job-1" (some 0) = 1 ∧
      ∀ jobID due, ((schedulers minuteCron plainJson twoInstances).final
        reportDue inTurn).world.firings jobID due ≤ 1 := by
  refine ⟨by decide, ?_⟩
  have run := schedulers_play inTurn (by simp [inTurn])
  exact occurrence_fires_once (fun _ => rfl) reportDue_calm reportDue_valid (fun _ _ => rfl) run
    (by decide) (by decide)

end TaskFlow
