import TaskFlow.Coverage

/-!
# Ticks that end within the lease

`Occurrence` has an occurrence that is fired twice: an instance loads a job, the leader
key expires before it publishes, and a second instance loads the same row.  The key is
taken for `leaderTTL` at the beginning of a tick and never looked at again, so the ticks
have to be shorter than that.  Here this is shown to be enough.  As long as no tick is
under way for `leaderTTL` of Redis time, every occurrence is fired at most once, by any
number of instances in any interleaving, whatever leader commands fail or take effect
without an answer (`fires_once_within_lease`).

A tick is followed through its stages.  An instance past the election has the key from
the beginning of its tick on, so there is one such instance at a time.  The jobs it has
still to fire are then the rows of the table as they stand.
-/

namespace TaskFlow

open Effect

variable {Raw ι : Type}

/-! ## The stages of a tick -/

/-- The calls a tick makes only once its instance leads. -/
def Op.ofLeader : Op Raw → Bool
  | .loadDueJobs | .now | .newUUID | .publish .. | .updateJob .. => true
  | _ => false

/-- The next call of this tick is one of the leader. -/
def Leading (p : Service Raw Unit) : Bool := p.head.any Op.ofLeader

/-- These jobs are rows of the table as it stands, each once, and they are due. -/
structure JobTable.Lists (table : JobTable) (clock : Time) (jobs : List ScheduledJob) : Prop where
  nodup : (jobs.map ScheduledJob.id).Nodup
  rows : ∀ job ∈ jobs, job ∈ table.rows
  reached : ∀ job ∈ jobs, ∀ v ∈ job.nextRunAt, v ≤ clock

namespace JobTable.Lists

variable {table : JobTable} {clock clock' : Time} {job : ScheduledJob} {jobs : List ScheduledJob}

theorem of_due (table : JobTable) (clock : Time) : table.Lists clock (table.due clock) where
  nodup := table.due_nodup clock
  rows job member := (JobTable.mem_due.mp member).1
  reached job member v set := by
    have due := (JobTable.mem_due.mp member).2
    rw [Option.mem_def] at set
    simp only [ScheduledJob.isDue, set, Bool.and_eq_true, decide_eq_true_eq] at due
    exact due.2

theorem mono (lists : table.Lists clock jobs) (later : clock ≤ clock') :
    table.Lists clock' jobs :=
  ⟨lists.nodup, lists.rows, fun job member v set =>
    Int.le_trans (lists.reached job member v set) later⟩

theorem tail (lists : table.Lists clock (job :: jobs)) : table.Lists clock jobs :=
  ⟨(List.nodup_cons.mp lists.nodup).2, fun job member => lists.rows job (.tail _ member),
    fun job member => lists.reached job (.tail _ member)⟩

/-- The update of a job leaves the rows of the others. -/
theorem update {jobID : String} (lists : table.Lists clock jobs)
    (other : jobID ∉ jobs.map ScheduledJob.id) (now next : Time) :
    (table.update jobID now next).Lists clock jobs := by
  refine ⟨lists.nodup, fun job member => ?_, lists.reached⟩
  have ne : job.id ≠ jobID := fun same => other (same ▸ List.mem_map_of_mem member)
  have kept : (if job.id = jobID then job.fired now next else job) ∈
      (table.update jobID now next).rows := JobTable.mem_update (lists.rows job member)
  rwa [if_neg ne] at kept

end JobTable.Lists

/-- The clock does not go back. -/
def Script.Onwards (script : Script) : Prop := ∀ n, script.clock n ≤ script.clock (n + 1)

theorem perform_onwards (op : Op Raw) {w : World Raw} (onwards : w.script.Onwards) :
    (perform op w).2.script.Onwards ∧ w.script.clock 0 ≤ (perform op w).2.script.clock 0 := by
  refine perform_keeps (I := fun w' : World Raw =>
    w'.script.Onwards ∧ w.script.clock 0 ≤ w'.script.clock 0) (fun w₁ w₂ change kept => ?_)
    ⟨onwards, Int.le_refl _⟩
  obtain ⟨onwards, later⟩ := kept
  cases change with
  | clock _ => exact ⟨fun n => onwards (n + 1), Int.le_trans later (onwards 0)⟩
  | _ => exact ⟨onwards, later⟩

theorem World.Up.loadDueJobs_clock {w : World Raw} (up : w.Up) :
    (perform .loadDueJobs w).2.script.clock 0 = w.script.clock 1 := by
  have ticked : w.tick.Up := ⟨up.reliable, up.live⟩
  simp only [perform, World.loadDueJobs, ticked.attempt]
  rfl

namespace Scheduler

variable {cron : Cron} {json : Json Raw} {instanceID : String}

/-- Where a tick can stand, over the table and the clock as they are now. -/
inductive Stage (cron : Cron) (json : Json Raw) (instanceID : String) (table : JobTable)
    (clock : Time) : Service Raw Unit → Prop
  | elect : Stage cron json instanceID table clock (tick cron json instanceID)
  | renew : Stage cron json instanceID table clock
      (renewLeadership instanceID >>= whenLeader cron json)
  | ended : Stage cron json instanceID table clock (.pure ())
  | load : Stage cron json instanceID table clock (whenLeader cron json true)
  | loop {jobs : List ScheduledJob} : table.Lists clock jobs →
    Stage cron json instanceID table clock (runJobs cron json jobs)
  | name {job : ScheduledJob} {jobs : List ScheduledJob} {now : Time} :
    table.Lists clock (job :: jobs) → (∀ v ∈ job.nextRunAt, v ≤ now) →
    Stage cron json instanceID table clock (.call .newUUID fun taskID =>
      .call (.publish topicPending taskID (json.marshal (newTask job taskID now))
        (.scheduler job.id job.nextRunAt now)) fun failed =>
          afterPublish cron job now failed >>= fun _ => runJobs cron json jobs)
  | send {job : ScheduledJob} {jobs : List ScheduledJob} {now : Time} {taskID : String} :
    table.Lists clock (job :: jobs) → (∀ v ∈ job.nextRunAt, v ≤ now) →
    Stage cron json instanceID table clock
      (.call (.publish topicPending taskID (json.marshal (newTask job taskID now))
        (.scheduler job.id job.nextRunAt now)) fun failed =>
          afterPublish cron job now failed >>= fun _ => runJobs cron json jobs)
  | store {jobs : List ScheduledJob} {jobID : String} {now next : Time} :
    table.Lists clock jobs → jobID ∉ jobs.map ScheduledJob.id →
    Stage cron json instanceID table clock
      (.call (.updateJob now next jobID) fun _ => runJobs cron json jobs)

variable {table : JobTable} {clock : Time}

theorem Stage.mono {clock' : Time} {p : Service Raw Unit}
    (stage : Stage cron json instanceID table clock p) (later : clock ≤ clock') :
    Stage cron json instanceID table clock' p := by
  cases stage with
  | elect => exact .elect
  | renew => exact .renew
  | ended => exact .ended
  | load => exact .load
  | loop lists => exact .loop (lists.mono later)
  | name lists reached => exact .name (lists.mono later) reached
  | send lists reached => exact .send (lists.mono later) reached
  | store lists other => exact .store (lists.mono later) other

/-- A tick of which the next call is not one of the leader does not look at the table. -/
theorem Stage.of_not_leading {table' : JobTable} {clock' : Time} {p : Service Raw Unit}
    (stage : Stage cron json instanceID table clock p) (follows : Leading p = false) :
    Stage cron json instanceID table' clock' p := by
  cases stage with
  | elect => exact .elect
  | renew => exact .renew
  | ended => exact .ended
  | load => exact .load
  | @loop jobs lists =>
      cases jobs with
      | nil => exact .ended
      | cons job jobs => cases follows
  | name _ _ => cases follows
  | send _ _ => cases follows
  | store _ _ => cases follows

/-- The election gives a stage of the tick whatever it answers. -/
theorem Stage.of_leads (leads : Bool) :
    Stage cron json instanceID table clock (whenLeader cron json leads) := by
  cases leads with
  | false => exact .ended
  | true => exact .load

theorem Stage.of_setNX (reply : Except Error Bool) :
    Stage cron json instanceID table clock
      (afterSetNX instanceID reply >>= whenLeader cron json) := by
  rcases reply with err | (_ | _)
  · exact .ended
  · exact .renew
  · exact .load

/-- A tick goes on in its stages. -/
theorem Stage.answer {w : World Raw} {op : Op Raw} {next : op.Ans → Service Raw Unit}
    (up : w.Up) (onwards : w.script.clock 0 ≤ w.script.clock 1)
    (stage : Stage cron json instanceID w.db.jobs (w.script.clock 0) (.call op next)) :
    Stage cron json instanceID (perform op w).2.db.jobs ((perform op w).2.script.clock 0)
      (next (perform op w).1) := by
  generalize eq : Prog.call op next = p at stage
  cases stage with
  | elect =>
      rw [tick_eq] at eq
      cases eq
      exact .of_setNX _
  | renew =>
      rw [renew_eq] at eq
      cases eq
      exact .of_leads _
  | ended => cases eq
  | load =>
      rw [whenLeader_true] at eq
      cases eq
      have kept : (perform (.loadDueJobs : Op Raw) w).2.db.jobs = w.db.jobs :=
        perform_jobs (by simp)
      dsimp only
      rw [up.loadDueJobs, runLoaded_ok, kept, up.loadDueJobs_clock]
      exact .loop ((JobTable.Lists.of_due _ _).mono onwards)
  | @loop jobs lists =>
      cases jobs with
      | nil => cases eq
      | cons job jobs =>
          rw [runJobs_cons] at eq
          cases eq
          exact .name (lists.mono onwards) fun v set => lists.reached job List.mem_cons_self v set
  | name lists reached =>
      cases eq
      exact .send lists reached
  | @send job jobs now taskID lists reached =>
      cases eq
      dsimp only
      rw [perform_jobs (by simp), perform_clock rfl]
      rcases afterPublish_cases cron json job jobs now (perform (.publish topicPending taskID
        (json.marshal (newTask job taskID now)) (.scheduler job.id job.nextRunAt now)) w).1 with
        same | ⟨_, schedule, _, rest⟩
      · rw [same]
        exact .loop lists.tail
      · rw [rest]
        exact .store lists.tail (List.nodup_cons.mp lists.nodup).1
  | @store jobs jobID now next lists other =>
      cases eq
      rw [perform_clock rfl, up.updateJob]
      exact .loop (lists.update other now next)

/-- A call of another instance leaves the stage of a tick, unless it is the update of a
job and the tick is past the election too. -/
theorem Stage.kept {w : World Raw} {p : Service Raw Unit} (op : Op Raw)
    (onwards : w.script.Onwards)
    (stage : Stage cron json instanceID w.db.jobs (w.script.clock 0) p)
    (alone : op.ofLeader = true → Leading p = false) :
    Stage cron json instanceID (perform op w).2.db.jobs ((perform op w).2.script.clock 0) p := by
  by_cases updates : ∃ now next jobID, op = .updateJob now next jobID
  · obtain ⟨now, next, jobID, rfl⟩ := updates
    exact stage.of_not_leading (alone rfl)
  · rw [perform_jobs fun now next jobID eq => updates ⟨now, next, jobID, eq⟩]
    exact stage.mono (perform_onwards op onwards).2

theorem leading_setNX {reply : Except Error Bool} :
    Leading (afterSetNX instanceID reply >>= whenLeader cron json) = true ↔ reply = .ok true := by
  rcases reply with err | (_ | _)
  · exact iff_of_false Bool.false_ne_true (by simp)
  · exact iff_of_false Bool.false_ne_true (by simp)
  · exact iff_of_true rfl rfl

theorem leading_renew {reply : Except Error Int} :
    Leading (whenLeader cron json (renewed reply)) = true ↔ reply = .ok 1 := by
  rw [← renewed_iff]
  cases renewed reply with
  | false => exact iff_of_false Bool.false_ne_true Bool.false_ne_true
  | true => exact iff_of_true rfl rfl

/-- A tick comes to the calls of the leader by a grant of the key. -/
theorem Stage.elected {w : World Raw} {op : Op Raw} {next : op.Ans → Service Raw Unit}
    (stage : Stage cron json instanceID table clock (.call op next))
    (follows : Leading (.call op next) = false) (leads : Leading (next (perform op w).1) = true) :
    Lease.Step leaderTTL w.redis.leaderLease (some instanceID)
      (perform op w).2.redis.leaderLease := by
  generalize eq : Prog.call op next = p at stage follows
  cases stage with
  | elect =>
      rw [tick_eq] at eq
      cases eq
      have granted : Lease.Step leaderTTL w.redis.leaderLease
          (if Leading (afterSetNX instanceID (perform (.setNX instanceID) w).1 >>=
            whenLeader cron json) then some instanceID else none)
          (perform (.setNX instanceID) w).2.redis.leaderLease :=
        World.command_lease (w.redis.setNX_acts instanceID) leading_setNX
      rwa [if_pos leads] at granted
  | renew =>
      rw [renew_eq] at eq
      cases eq
      have granted : Lease.Step leaderTTL w.redis.leaderLease
          (if Leading (whenLeader cron json (renewed (perform (.renew instanceID) w).1))
            then some instanceID else none)
          (perform (.renew instanceID) w).2.redis.leaderLease :=
        World.command_lease (w.redis.renew_acts instanceID) leading_renew
      rwa [if_pos leads] at granted
  | ended => cases eq
  | load => cases follows
  | @loop jobs lists =>
      cases jobs with
      | nil => cases eq
      | cons job jobs => cases follows
  | name _ _ => cases follows
  | send _ _ => cases follows
  | store _ _ => cases follows

/-- What a tick publishes is a row of the table that is due. -/
theorem Stage.publishes {topic key : String} {value : Raw} {origin : Origin}
    {next : (Op.publish topic key value origin : Op Raw).Ans → Service Raw Unit}
    (stage : Stage cron json instanceID table clock
      (.call (.publish topic key value origin) next)) :
    ∃ job ∈ table.rows, ∃ now, origin = .scheduler job.id job.nextRunAt now ∧
      ∀ v ∈ job.nextRunAt, v ≤ now := by
  generalize eq : (Prog.call (.publish topic key value origin) next : Service Raw Unit) = p at stage
  cases stage with
  | elect => cases eq
  | renew => cases eq
  | ended => cases eq
  | load => cases eq
  | @loop jobs lists =>
      cases jobs with
      | nil => cases eq
      | cons job jobs => cases eq
  | name _ _ => cases eq
  | @send job jobs now taskID lists reached =>
      cases eq
      exact ⟨job, lists.rows job List.mem_cons_self, now, rfl, reached⟩
  | store _ _ => cases eq

end Scheduler

/-! ## The key along a run -/

/-- Every call is a step of the lease. -/
theorem perform_lease (op : Op Raw) (w : World Raw) :
    ∃ learned, Lease.Step leaderTTL w.redis.leaderLease learned
      (perform op w).2.redis.leaderLease := by
  cases op with
  | setNX instanceID =>
      exact ⟨_, World.command_lease (w.redis.setNX_acts instanceID) decide_eq_true_iff⟩
  | renew instanceID =>
      exact ⟨_, World.command_lease (w.redis.renew_acts instanceID) decide_eq_true_iff⟩
  | _ =>
      refine ⟨none, ?_⟩
      rw [perform_frame (·.redis.leaderLease) fun _ _ change => ?_]
      · exact .idle _
      · cases change with
        | leader leads => cases leads
        | _ => rfl

variable [DecidableEq ι]

/-- The Redis time at which the last tick of an instance began. -/
def beganAt (h : List (SchedulerStep Raw ι)) (i : ι) : Option Time :=
  h.foldl (fun last e => match e.label with
    | .start j _ => if j = i then some e.pre.world.redis.time else last
    | _ => last) none

theorem beganAt_start {h : List (SchedulerStep Raw ι)} {s t : SchedulerPool Raw ι} {i : ι}
    {request : Unit} :
    beganAt (h ++ [⟨s, .start i request, t⟩]) i = some s.world.redis.time := by
  simp only [beganAt, List.foldl_append, List.foldl_cons, List.foldl_nil, if_true]

/-- A tick that is under way after a step began before it, or with it. -/
theorem beganAt_other {h : List (SchedulerStep Raw ι)} {e : SchedulerStep Raw ι} {i : ι}
    (other : ∀ request, e.label ≠ .start i request) : beganAt (h ++ [e]) i = beganAt h i := by
  simp only [beganAt, List.foldl_append, List.foldl_cons, List.foldl_nil]
  split
  · rename_i j request label
    refine if_neg fun same => other request ?_
    rw [label, same]
  · rfl

omit [DecidableEq ι] in
/-- A tick is under way: it has a call to make. -/
def UnderWay (s : SchedulerPool Raw ι) (i : ι) : Prop :=
  ∃ thread ∈ s.threads i, thread.rest.head ≠ none

/-- No tick is under way for as long as the leader key lasts. -/
def WithinLease (h : List (SchedulerStep Raw ι)) : Prop :=
  ∀ x e y, h = x ++ e :: y → ∀ i, UnderWay e.pre i → ∀ began ∈ beganAt x i,
    e.pre.world.redis.time < began + leaderTTL

/-! ## One instance at a time -/

/-- What holds of the ticks between the steps `h` so far. -/
structure InStages (cron : Cron) (json : Json Raw) (ids : ι → String)
    (h : List (SchedulerStep Raw ι)) (s : SchedulerPool Raw ι) : Prop where
  onwards : s.world.script.Onwards
  stage : ∀ i thread, s.threads i = some thread → Scheduler.Stage cron json (ids i)
    s.world.db.jobs (s.world.script.clock 0) thread.rest
  began : ∀ i thread, s.threads i = some thread →
    ∃ began ∈ beganAt h i, began ≤ s.world.redis.time ∧ (Leading thread.rest = true →
      Lease.Respects leaderTTL (ids i) began s.world.redis.leaderLease)

variable {cron : Cron} {json : Json Raw} {ids : ι → String} {h : List (SchedulerStep Raw ι)}
  {s t : SchedulerPool Raw ι}

/-- Two instances past the election are one. -/
theorem InStages.one_leads (stages : InStages cron json ids h s)
    (injective : Function.Injective ids)
    (within : ∀ i, UnderWay s i → ∀ began ∈ beganAt h i,
      s.world.redis.time < began + leaderTTL)
    {i j : ι} {thread thread' : Thread (Op Raw) Op.Ans Unit Unit}
    (running : s.threads i = some thread) (running' : s.threads j = some thread')
    (leads : Leading thread.rest = true) (leads' : Leading thread'.rest = true) : i = j := by
  have lasts : ∀ {k : ι} {thread : Thread (Op Raw) Op.Ans Unit Unit}, s.threads k = some thread →
      Leading thread.rest = true → ∃ began, s.world.redis.time < began + leaderTTL ∧
        Lease.Respects leaderTTL (ids k) began s.world.redis.leaderLease := by
    intro k thread running leads
    obtain ⟨began, started, _, respects⟩ := stages.began k thread running
    refine ⟨began, within k ⟨thread, running, fun returned => ?_⟩ began started, respects leads⟩
    simp only [Leading, returned, Option.any_none] at leads
    cases leads
  obtain ⟨began, soon, respects⟩ := lasts running leads
  obtain ⟨began', soon', respects'⟩ := lasts running' leads'
  exact injective (respects.unique respects' soon soon')

/-- Every step is a step of the lease. -/
theorem schedulers_lease {l : Label (Op Raw) ι Unit}
    (step : (schedulers cron json ids).Step s l t) :
    ∃ learned, Lease.Step leaderTTL s.world.redis.leaderLease learned
      t.world.redis.leaderLease := by
  rcases step.world_cases with ⟨_, same⟩ | ⟨_, _, op, _, _, _, after⟩ | ⟨_, d, forward, after⟩
  · rw [same]
    exact ⟨none, .idle _⟩
  · rw [after]
    exact perform_lease op s.world
  · rw [after]
    exact ⟨none, .elapse (Int.le_add_of_nonneg_right forward)⟩

/-- The ticks stay in their stages. -/
theorem InStages.step {e : SchedulerStep Raw ι} (up : e.pre.world.Up)
    (injective : Function.Injective ids)
    (within : ∀ i, UnderWay e.pre i → ∀ began ∈ beganAt h i,
      e.pre.world.redis.time < began + leaderTTL)
    (step : (schedulers cron json ids).Step e.pre e.label e.post)
    (stages : InStages cron json ids h e.pre) : InStages cron json ids (h ++ [e]) e.post := by
  obtain ⟨before, label, after⟩ := e
  dsimp only at up within step stages ⊢
  obtain ⟨learned, lease⟩ := schedulers_lease step
  refine ⟨?_, fun j thread running => ?_, fun j thread running => ?_⟩
  · refine step.world_invariant (I := fun w => w.script.Onwards)
      (fun op _ onwards => (perform_onwards op onwards).1) ?_ stages.onwards
    rintro w w' ⟨d, _, rfl⟩ onwards
    exact onwards
  · rcases step.threads_cases running with ⟨same, other⟩ | ⟨request, rfl, _, _, rfl⟩ |
      ⟨op, next, rfl, calls, rest, world⟩
    · have stage := stages.stage j thread same
      rcases step.world_cases with ⟨_, world⟩ | ⟨i, request, op, next, rfl, calls, world⟩ |
        ⟨_, d, _, world⟩
      · rwa [world]
      · rw [world]
        refine stage.kept op stages.onwards fun leads => ?_
        by_contra both
        have here := stages.one_leads injective within calls same leads
          ((Bool.not_eq_false _).mp both)
        exact other op (by rw [here])
      · rw [world]
        exact stage
    · exact .elect
    · rw [rest, world]
      exact (stages.stage j _ calls).answer up (stages.onwards 0)
  · rcases step.threads_cases running with ⟨same, _⟩ | ⟨request, rfl, _, _, rfl⟩ |
      ⟨op, next, rfl, calls, rest, world⟩
    · have old : beganAt (h ++ [⟨before, label, after⟩]) j = beganAt h j := by
        refine beganAt_other fun request started => ?_
        dsimp only at started
        subst started
        cases step with
        | start idle _ =>
            rw [same] at idle
            cases idle
      obtain ⟨began, started, past, respects⟩ := stages.began j thread same
      rw [old]
      exact ⟨began, started, past.trans lease.now_le, fun leads => (respects leads).step lease⟩
    · refine ⟨_, beganAt_start, lease.now_le, fun leads => ?_⟩
      cases leads
    · obtain ⟨began, started, past, respects⟩ := stages.began j _ calls
      have old : beganAt (h ++ [⟨before, .act j op, after⟩]) j = beganAt h j :=
        beganAt_other fun _ bad => nomatch bad
      rw [old]
      refine ⟨began, started, past.trans lease.now_le, fun leads => ?_⟩
      rw [rest] at leads
      cases led : Leading (.call op next) with
      | true => exact (respects led).step lease
      | false =>
          rw [world]
          exact ((stages.stage j _ calls).elected led leads).respects.earlier past

/-- What an instance publishes is current. -/
theorem InStages.current {l : Label (Op Raw) ι Unit} (injective : Function.Injective ids)
    (within : ∀ i, UnderWay s i → ∀ began ∈ beganAt h i,
      s.world.redis.time < began + leaderTTL)
    (step : (schedulers cron json ids).Step s l t) (stages : InStages cron json ids h s) :
    ∀ f ∈ firing l, Current s f.1 f.2.1 f.2.2 := by
  intro f fires
  cases step with
  | @act i request op next here =>
      cases op with
      | publish topic key value origin =>
          obtain ⟨job, row, now, rfl, reached⟩ := (stages.stage i _ here).publishes
          obtain rfl : (job.id, job.nextRunAt, now) = f := Option.some.inj fires
          refine ⟨⟨job, row, rfl, rfl⟩, fun j update pending same => ?_, reached⟩
          obtain ⟨thread, running, updates⟩ := Option.bind_eq_some_iff.mp pending
          -- The instance that is to make the update is past the election, so it is this one.
          have leads : Leading thread.rest = true := by
            unfold pendingUpdate at updates
            split at updates
            · rename_i head
              simp only [Leading, head, Option.any_some, Op.ofLeader]
            · cases updates
          obtain rfl := stages.one_leads injective within here running rfl leads
          rw [here] at running
          cases running
          cases updates
      | _ => cases fires
  | start _ _ => cases fires
  | stop _ => cases fires
  | env _ => cases fires

omit [DecidableEq ι] in
theorem schedulerLedger_idle (idle : ∀ i, s.threads i = none) (i : ι) :
    (schedulerLedger s).pending i = none := by
  simp only [schedulerLedger, idle, Option.bind_none]

omit [DecidableEq ι] in
/-- Idle instances are about to make no update. -/
theorem Ticking.of_idle (idle : ∀ i, s.threads i = none) (calm : s.world.Calm)
    (valid : ∀ job ∈ s.world.db.jobs.rows, cron.Valid job.cronExpr) : Ticking cron s := by
  refine ⟨calm, valid, fun i thread running => ?_, fun i jobID next pending => ?_⟩
  · exact absurd running (Pool.ne_some_of_idle idle)
  · rw [schedulerLedger_idle idle i] at pending
    cases pending

omit [DecidableEq ι] in
/-- The ledger of idle instances that fired nothing yet is sound. -/
theorem sound_of_unfired (idle : ∀ i, s.threads i = none)
    (unfired : ∀ jobID due, s.world.firings jobID due = 0) :
    (schedulerLedger s).Sound Earlier := by
  have free := schedulerLedger_idle idle
  refine ⟨fun jobID due => ?_, fun i _ _ _ _ pending => ?_, fun i _ _ pending => ?_,
    fun jobID due fired => ?_⟩
  · exact (unfired jobID due).le.trans zero_le_one
  · rw [free i] at pending
    cases pending
  · rw [free i] at pending
    cases pending
  · exact absurd (unfired jobID due) (Nat.pos_iff_ne_zero.mp fired)

/-- **Ticks shorter than the lease.**  Any number of scheduler instances, each with an
identifier of its own, tick in any interleaving, leader commands fail or take effect without
an answer, and the key expires; the instances and the database read one clock, which never
goes back.  If no tick is under way for as long as the key lasts, every occurrence of every
job is published at most once. -/
theorem fires_once_within_lease (injective : Function.Injective ids)
    (idle : ∀ i, s.threads i = none) (calm : s.world.Calm) (onwards : s.world.script.Onwards)
    (valid : ∀ job ∈ s.world.db.jobs.rows, cron.Valid job.cronExpr)
    (unfired : ∀ jobID due, s.world.firings jobID due = 0)
    (run : Trace (schedulers cron json ids).Step s h t) (completes : ∀ e ∈ h, Completes e)
    (within : WithinLease h) : ∀ jobID due, t.world.firings jobID due ≤ 1 := by
  have stages : InStages cron json ids [] s :=
    ⟨onwards, fun i thread running => absurd running (Pool.ne_some_of_idle idle),
      fun i thread running => absurd running (Pool.ne_some_of_idle idle)⟩
  have all := run.history (I := fun x s => InStages cron json ids x s ∧ Ticking cron s ∧
      (schedulerLedger s).Sound Earlier)
    ⟨stages, .of_idle idle calm valid, sound_of_unfired idle unfired⟩ fun x e y split step inv => by
      obtain ⟨stages, ticking, sound⟩ := inv
      have soon := within x e y split
      have current := stages.current injective soon step
      have member : e ∈ h := by
        rw [split]
        exact List.mem_append_right _ List.mem_cons_self
      exact ⟨stages.step ticking.calm.up injective soon step, ticking.step step current,
        sound.step (tick_refines ticking step current (completes e member))⟩
  exact all.2.2.fired_le

/-! ## Two instances that tick at the same time -/

omit [DecidableEq ι] in
instance (s : SchedulerPool Raw ι) (i : ι) : Decidable (UnderWay s i) :=
  inferInstanceAs (Decidable (∃ thread ∈ s.threads i, thread.rest.head ≠ none))

/-- Whether a run stays within the lease is seen at its transitions, one by one. -/
theorem WithinLease.of_take
    (each : ∀ n < h.length, ∀ e ∈ h[n]?, ∀ i, UnderWay e.pre i → ∀ began ∈ beganAt (h.take n) i,
      e.pre.world.redis.time < began + leaderTTL) : WithinLease h := by
  intro x e y split
  have short : x.length < h.length := by simp [split]
  have taken : h.take x.length = x := by rw [split, List.take_left]
  have listed : h[x.length]? = some e := by simp [split]
  rw [← taken]
  exact each x.length short e listed

/-- Both instances begin a tick, the second is turned away, and takes over once the key
has expired. -/
def turnedAway : List (Move (World Task) Bool Unit) :=
  [.start false (), .start true (), .act false, .act true, .act true, .stop true] ++
    List.replicate 5 (.act false) ++ [.stop false, .env (·.elapse leaderTTL), .start true ()] ++
    List.replicate 2 (.act true)

/-- The occurrence is fired by the first instance alone. -/
theorem fires_once_turnedAway :
    ((schedulers minuteCron plainJson twoInstances).final reportDue turnedAway).world.firings
        "job-1" (some 0) = 1 ∧
      ∀ jobID due, ((schedulers minuteCron plainJson twoInstances).final
        reportDue turnedAway).world.firings jobID due ≤ 1 := by
  refine ⟨by decide, ?_⟩
  have run := schedulers_play turnedAway (by simp [turnedAway])
  exact fires_once_within_lease twoInstances_injective (fun _ => rfl) reportDue_calm
    slowScript_clock reportDue_valid (fun _ _ => rfl) run (by decide) (.of_take (by decide))

end TaskFlow
