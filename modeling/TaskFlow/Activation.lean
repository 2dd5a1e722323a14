import TaskFlow.Jobs
import TaskFlow.Leadership
import TaskFlow.Effect.Alarm

/-!
# Firings of the only leader

One scheduler instance ticks again and again with reliable infrastructure, and no
other instance holds the leader key.  Each job is then an alarm: its publications
are the firings and its `next_run_at` is what it is set to (`World.alarm`).

* `Scheduler.runJob_fire`: what `runJob` does to the world.
* `OnSchedule.tick`: a tick keeps the alarm of a job whose expression recurs sound.
* `fires_per_activation_iff`: an expression is fired at most once per activation
  exactly when it recurs.
-/

namespace TaskFlow

open Effect

variable {Raw : Type} {cron : Cron} {json : Json Raw} {w : World Raw} {job : ScheduledJob}

/-- The expression parses and every instant after the zero time has a later
activation within reach of `Next`. -/
def Cron.Recurs (cron : Cron) (expr : String) : Prop :=
  ∃ schedule, cron.parseStandard expr = .ok schedule ∧ ∀ t, zeroTime < t → t < schedule.next t

/-- An activation time of an expression.  One that does not parse has none. -/
def Cron.Activates (cron : Cron) (expr : String) (t : Time) : Prop :=
  ∃ schedule, cron.parseStandard expr = .ok schedule ∧ schedule.activates t

/-- When a record of `tasks.pending` was published for a job. -/
def Record.firedFor (r : Record Raw) (jobID : String) : Option Time :=
  match r.origin with
  | .scheduler id _ now => if id = jobID ∧ r.message.topic = topicPending then some now else none
  | _ => none

/-- The publications for a job, in the order of the log. -/
def World.publications (w : World Raw) (jobID : String) : List Time :=
  w.kafka.filterMap (·.firedFor jobID)

/-- The alarm of a job. -/
def World.alarm (w : World Raw) (jobID : String) : Alarm Time :=
  ⟨w.publications jobID, w.db.jobs.nextRunAt jobID⟩

namespace Scheduler

/-! ## One job -/

/-- The world after the publish of `runJob`. -/
def publishJob (json : Json Raw) (w : World Raw) (job : ScheduledJob) : World Raw :=
  { w.tick.draw with
    kafka := w.kafka ++ [⟨⟨topicPending, w.script.uuid 0,
      json.marshal (newTask job (w.script.uuid 0) (w.script.clock 0))⟩,
      .scheduler job.id job.nextRunAt (w.script.clock 0)⟩] }

/-- The world after `runJob`, with reliable infrastructure. -/
def fire (cron : Cron) (json : Json Raw) (w : World Raw) (job : ScheduledJob) : World Raw :=
  match cron.parseStandard job.cronExpr with
  | .error _ => publishJob json w job
  | .ok schedule =>
      { publishJob json w job with
        db.jobs := w.db.jobs.update job.id (w.script.clock 0) (schedule.next (w.script.clock 0)) }

theorem runJob_fire (cron : Cron) (json : Json Raw) (job : ScheduledJob) (up : w.Up) :
    (Service.run (runJob cron json job) w).2 = fire cron json w job := by
  have drawn : w.tick.draw.Up := ⟨up.reliable, up.live⟩
  have sent : (publishJob json w job).Up := ⟨up.reliable, up.live⟩
  have published : Service.run (runJob cron json job) w =
      Service.run (afterPublish cron job (w.script.clock 0) none) (publishJob json w job) := by
    show Service.run (afterPublish cron job (w.script.clock 0) (w.tick.draw.publish ..).1)
      (w.tick.draw.publish ..).2 = _
    simp only [World.publish, drawn.attempt]
    rfl
  rw [published]
  unfold fire afterPublish reschedule
  cases cron.parseStandard job.cronExpr with
  | error err => rfl
  | ok schedule =>
      show ((publishJob json w job).updateJob ..).2 = _
      simp only [World.updateJob, sent.attempt]
      rfl

theorem fire_frame (cron : Cron) (json : Json Raw) (w : World Raw) (job : ScheduledJob) :
    (fire cron json w job).redis = w.redis ∧
      (fire cron json w job).cancelled = w.cancelled ∧
      (fire cron json w job).script = { w.script with
        clock := rest w.script.clock, uuid := rest w.script.uuid } := by
  unfold fire
  cases cron.parseStandard job.cronExpr <;> exact ⟨rfl, rfl, rfl⟩

theorem fire_publications (cron : Cron) (json : Json Raw) (w : World Raw) (job : ScheduledJob)
    (jobID : String) :
    (fire cron json w job).publications jobID =
      w.publications jobID ++ if job.id = jobID then [w.script.clock 0] else [] := by
  have sent : (publishJob json w job).publications jobID =
      w.publications jobID ++ if job.id = jobID then [w.script.clock 0] else [] := by
    simp only [World.publications, publishJob, List.filterMap_append, Record.firedFor]
    split
    · simp [*]
    · simp [*]
  unfold fire
  cases cron.parseStandard job.cronExpr <;> exact sent

theorem fire_alarm_other {jobID : String} (other : job.id ≠ jobID) :
    (fire cron json w job).alarm jobID = w.alarm jobID := by
  refine Alarm.ext ?_ ?_
  · simp only [World.alarm, fire_publications, if_neg other, List.append_nil]
  · simp only [World.alarm]
    unfold fire
    cases cron.parseStandard job.cronExpr with
    | error err => rfl
    | ok schedule => exact JobTable.nextRunAt_update_of_ne other.symm

theorem fire_alarm_self {schedule : Schedule} (member : job ∈ w.db.jobs.rows)
    (parsed : cron.parseStandard job.cronExpr = .ok schedule) :
    (fire cron json w job).alarm job.id =
      (w.alarm job.id).fire (w.script.clock 0) (schedule.next (w.script.clock 0)) := by
  refine Alarm.ext ?_ ?_
  · simp only [World.alarm, fire_publications, if_true]
    rfl
  · simp only [World.alarm, fire, parsed]
    exact JobTable.nextRunAt_update_self member

theorem fire_mem_other {row : ScheduledJob} (member : row ∈ w.db.jobs.rows)
    (other : job.id ≠ row.id) : row ∈ (fire cron json w job).db.jobs.rows := by
  unfold fire
  cases cron.parseStandard job.cronExpr with
  | error err => exact member
  | ok schedule => exact List.mem_map.mpr ⟨row, member, if_neg other.symm⟩

theorem fire_holds {jobID expr : String} (holds : w.db.jobs.Holds jobID expr) :
    (fire cron json w job).db.jobs.Holds jobID expr := by
  unfold fire
  cases cron.parseStandard job.cronExpr with
  | error err => exact holds
  | ok schedule => exact holds.update ..

theorem fire_up (up : w.Up) : (fire cron json w job).Up := by
  obtain ⟨_, cancelled, script⟩ := fire_frame cron json w job
  refine ⟨fun c n => ?_, cancelled.trans up.live⟩
  rw [script]
  exact up.reliable c n

theorem runJobs_fire (cron : Cron) (json : Json Raw) (jobs : List ScheduledJob) (up : w.Up) :
    (Service.run (runJobs cron json jobs) w).2 = jobs.foldl (fire cron json) w := by
  induction jobs generalizing w with
  | nil => rfl
  | cons job jobs ih =>
      have split : Service.run (runJobs cron json (job :: jobs)) w =
          Service.run (runJobs cron json jobs) (Service.run (runJob cron json job) w).2 :=
        Prog.run_bind ..
      rw [split, runJob_fire cron json job up, List.foldl_cons]
      exact ih (fire_up up)

end Scheduler

/-! ## One tick -/

/-- Reliable infrastructure, one clock, and no other instance that leads. -/
structure SoleLeader (instanceID : String) (w : World Raw) : Prop where
  calm : w.Calm
  faultless : ∀ n, w.script.fault n = .none
  sole : ∀ owner ∈ w.redis.owner, owner = instanceID
  clock : ∀ n, w.script.clock n < w.script.clock (n + 1)
  started : zeroTime ≤ w.script.clock 0

namespace SoleLeader

variable {instanceID : String}

theorem elapse (leads : SoleLeader instanceID w) {d : Time} (forward : 0 ≤ d) :
    SoleLeader instanceID (w.elapse d) where
  calm := ⟨⟨leads.calm.live, leads.calm.inHandle, leads.calm.inWait⟩, leads.calm.reliable⟩
  faultless := leads.faultless
  sole owner held := by
    obtain ⟨expiry, leader, live⟩ := Redis.owner_eq_some.mp held
    have before : w.redis.time < expiry := lt_of_le_of_lt (Int.le_add_of_nonneg_right forward) live
    exact leads.sole owner (Redis.owner_eq_some.mpr ⟨expiry, leader, before⟩)
  clock := leads.clock
  started := leads.started

theorem fire (leads : SoleLeader instanceID w) (cron : Cron) (json : Json Raw)
    (job : ScheduledJob) : SoleLeader instanceID (Scheduler.fire cron json w job) := by
  obtain ⟨redis, cancelled, script⟩ := Scheduler.fire_frame cron json w job
  refine ⟨⟨⟨cancelled.trans leads.calm.live, ?_, ?_⟩, ?_⟩, ?_, ?_, ?_, ?_⟩
  · rw [script]
    exact leads.calm.inHandle
  · rw [script]
    exact leads.calm.inWait
  · unfold World.Reliable
    rw [script]
    exact leads.calm.reliable
  · rw [script]
    exact leads.faultless
  · rw [redis]
    exact leads.sole
  · rw [script]
    exact fun n => leads.clock (n + 1)
  · rw [script]
    exact Int.le_trans leads.started (Int.le_of_lt (leads.clock 0))

/-- The world with the key leased to this instance. -/
theorem leased (leads : SoleLeader instanceID w) {fault : Nat → Fault}
    (faultless : ∀ n, fault n = .none) :
    SoleLeader instanceID
      { w with redis := w.redis.lease instanceID leaderTTL, script.fault := fault } where
  calm := ⟨⟨leads.calm.live, leads.calm.inHandle, leads.calm.inWait⟩, leads.calm.reliable⟩
  faultless := faultless
  sole owner held := by
    obtain ⟨expiry, leader, _⟩ := Redis.owner_eq_some.mp held
    cases leader
    rfl
  clock := leads.clock
  started := leads.started

theorem tick (leads : SoleLeader instanceID w) : SoleLeader instanceID w.tick where
  calm := (perform_calm leads.calm : (perform (.now : Op Raw) w).2.Calm)
  faultless := leads.faultless
  sole := leads.sole
  clock n := leads.clock (n + 1)
  started := Int.le_trans leads.started (Int.le_of_lt (leads.clock 0))

/-- The only instance leads. -/
theorem acquires (leads : SoleLeader instanceID w) :
    ∃ w', SoleLeader instanceID w' ∧ w'.db = w.db ∧ w'.kafka = w.kafka ∧
      w'.script.clock = w.script.clock ∧
      Service.run (Scheduler.acquireOrRenewLeadership instanceID) w = (true, w') := by
  have now : w.script.fault 0 = .none := leads.faultless 0
  have next : w.script.fault 1 = .none := leads.faultless 1
  rw [Scheduler.acquireOrRenewLeadership_eq]
  cases owner : w.redis.owner with
  | none =>
      have leased := leads.leased fun n => leads.faultless (n + 1)
      refine ⟨_, leased, rfl, rfl, rfl, ?_⟩
      simp only [Service.run, Prog.run, perform, World.command, now, Redis.setNX, owner, if_true]
      rfl
  | some other =>
      obtain rfl : other = instanceID := leads.sole other owner
      have leased := leads.leased fun n => leads.faultless (n + 2)
      refine ⟨_, leased, rfl, rfl, rfl, ?_⟩
      simp only [Service.run, Prog.run, perform, World.command, now, Redis.setNX, owner,
        reduceCtorEq, if_false, Scheduler.afterSetNX, Scheduler.renewLeadership_eq, rest_apply,
        next, Redis.renew, if_true]
      rfl

/-- A tick of the only instance fires the due jobs one after another. -/
theorem tick_fires (leads : SoleLeader instanceID w) (cron : Cron) (json : Json Raw) :
    ∃ w', SoleLeader instanceID w' ∧ w'.db = w.db ∧ w'.kafka = w.kafka ∧
      w'.script.clock = rest w.script.clock ∧
      (Service.run (Scheduler.tick cron json instanceID) w).2 =
        (w.db.jobs.due (w.script.clock 0)).foldl (Scheduler.fire cron json) w' := by
  obtain ⟨w', leads', db, kafka, clock, acquired⟩ := leads.acquires
  refine ⟨w'.tick, leads'.tick, db, kafka, congrArg rest clock, ?_⟩
  have loaded : perform .loadDueJobs w' = (.ok (w'.db.jobs.due (w'.script.clock 0)), w'.tick) := by
    simp only [perform, World.loadDueJobs, leads'.tick.calm.up.attempt]
    rfl
  have led : Service.run (Scheduler.tick cron json instanceID) w =
      Service.run (Scheduler.whenLeader cron json true) w' := by
    refine (Prog.run_bind ..).trans ?_
    show Service.run (Scheduler.whenLeader cron json
      (Service.run (Scheduler.acquireOrRenewLeadership instanceID) w).1)
        (Service.run (Scheduler.acquireOrRenewLeadership instanceID) w).2 = _
    rw [acquired]
  rw [led, Scheduler.whenLeader_true]
  simp only [Service.run, Prog.run, loaded, Scheduler.runLoaded_ok]
  rw [← db, ← clock]
  exact Scheduler.runJobs_fire cron json _ leads'.tick.calm.up

end SoleLeader

/-! ## A job whose expression recurs -/

/-- What holds of a job between two firings. -/
structure OnSchedule (cron : Cron) (instanceID jobID expr : String) (w : World Raw) : Prop where
  leads : SoleLeader instanceID w
  row : w.db.jobs.Holds jobID expr
  sound : (w.alarm jobID).Sound (cron.Activates expr)

namespace OnSchedule

variable {instanceID jobID expr : String}

theorem fire_other (inv : OnSchedule cron instanceID jobID expr w) (json : Json Raw)
    (other : job.id ≠ jobID) :
    OnSchedule cron instanceID jobID expr (Scheduler.fire cron json w job) := by
  refine ⟨inv.leads.fire cron json job, Scheduler.fire_holds inv.row, ?_⟩
  rw [Scheduler.fire_alarm_other other]
  exact inv.sound

theorem fire_self (recurs : cron.Recurs job.cronExpr)
    (inv : OnSchedule cron instanceID job.id job.cronExpr w) (json : Json Raw)
    (member : job ∈ w.db.jobs.rows) (due : ∀ v ∈ job.nextRunAt, v ≤ w.script.clock 0)
    (started : zeroTime < w.script.clock 0) :
    OnSchedule cron instanceID job.id job.cronExpr (Scheduler.fire cron json w job) := by
  refine ⟨inv.leads.fire cron json job, Scheduler.fire_holds inv.row, ?_⟩
  obtain ⟨schedule, parsed, after⟩ := recurs
  have later := after (w.script.clock 0) started
  have active : schedule.activates (schedule.next (w.script.clock 0)) := by
    rcases schedule.next_spec (w.script.clock 0) with ⟨active, _⟩ | ⟨zero, _⟩
    · exact active
    · exact absurd (zero ▸ later) (not_lt_of_gt started)
  rw [Scheduler.fire_alarm_self member parsed]
  refine inv.sound.fire (fun v set => due v ?_) ⟨schedule, parsed, active⟩ later
  rwa [← JobTable.nextRunAt_of_mem member]

/-- The loop over the loaded jobs. -/
theorem foldl_fire (recurs : cron.Recurs expr) (json : Json Raw) {jobs : List ScheduledJob}
    (nodup : (jobs.map ScheduledJob.id).Nodup)
    (inv : OnSchedule cron instanceID jobID expr w) (started : zeroTime < w.script.clock 0)
    (loaded : ∀ job ∈ jobs, job.id = jobID →
      job ∈ w.db.jobs.rows ∧ job.cronExpr = expr ∧ ∀ v ∈ job.nextRunAt, v ≤ w.script.clock 0) :
    OnSchedule cron instanceID jobID expr (jobs.foldl (Scheduler.fire cron json) w) := by
  induction jobs generalizing w with
  | nil => exact inv
  | cons job jobs ih =>
      rw [List.map_cons, List.nodup_cons] at nodup
      have clock : w.script.clock 0 ≤ (Scheduler.fire cron json w job).script.clock 0 := by
        rw [(Scheduler.fire_frame cron json w job).2.2]
        exact Int.le_of_lt (inv.leads.clock 0)
      rw [List.foldl_cons]
      by_cases same : job.id = jobID
      · subst same
        obtain ⟨member, rfl, due⟩ := loaded job List.mem_cons_self rfl
        refine ih nodup.2 (inv.fire_self recurs json member due started)
          (lt_of_lt_of_le started clock) fun other later eq => ?_
        exact absurd (List.mem_map.mpr ⟨other, later, eq⟩) nodup.1
      · refine ih nodup.2 (inv.fire_other json same) (lt_of_lt_of_le started clock)
          fun row later eq => ?_
        obtain ⟨member, sameExpr, due⟩ := loaded row (List.mem_cons_of_mem _ later) eq
        refine ⟨Scheduler.fire_mem_other member (eq ▸ same), sameExpr, fun v set => ?_⟩
        exact (due v set).trans clock

theorem tick (recurs : cron.Recurs expr) (json : Json Raw)
    (inv : OnSchedule cron instanceID jobID expr w) :
    OnSchedule cron instanceID jobID expr
      (Service.run (Scheduler.tick cron json instanceID) w).2 := by
  obtain ⟨w', leads', db, kafka, clock, run⟩ := inv.leads.tick_fires cron json
  have later : w.script.clock 0 < w'.script.clock 0 := by
    rw [clock]
    exact inv.leads.clock 0
  have inv' : OnSchedule cron instanceID jobID expr w' := by
    refine ⟨leads', db ▸ inv.row, ?_⟩
    have same : w'.alarm jobID = w.alarm jobID := by
      unfold World.alarm World.publications
      rw [db, kafka]
    rw [same]
    exact inv.sound
  rw [run]
  refine inv'.foldl_fire recurs json (JobTable.due_nodup ..)
    (lt_of_le_of_lt inv.leads.started later) fun job member same => ?_
  obtain ⟨present, due⟩ := JobTable.mem_due.mp member
  obtain ⟨row, rowPresent, rowID, rowExpr⟩ := inv.row
  obtain rfl := JobTable.eq_of_mem present rowPresent (same.trans rowID.symm)
  refine ⟨db ▸ present, rowExpr, fun v set => ?_⟩
  have reached : v ≤ w.script.clock 0 := by
    simp only [ScheduledJob.isDue, Option.mem_def.mp set, Bool.and_eq_true,
      decide_eq_true_eq] at due
    exact due.2
  exact reached.trans later.le

end OnSchedule

/-! ## Whole runs -/

/-- Ticks of one instance, each after some time has passed on the Redis server. -/
def runTicks (cron : Cron) (json : Json Raw) (instanceID : String) :
    List Time → World Raw → World Raw
  | [], w => w
  | d :: ds, w =>
      runTicks cron json instanceID ds
        (Service.run (Scheduler.tick cron json instanceID) (w.elapse d)).2

theorem OnSchedule.runTicks {instanceID jobID expr : String} (recurs : cron.Recurs expr)
    (json : Json Raw) {durations : List Time} (forward : ∀ d ∈ durations, 0 ≤ d)
    (inv : OnSchedule cron instanceID jobID expr w) :
    OnSchedule cron instanceID jobID expr (runTicks cron json instanceID durations w) := by
  induction durations generalizing w with
  | nil => exact inv
  | cons d ds ih =>
      have waited : OnSchedule cron instanceID jobID expr (w.elapse d) :=
        ⟨inv.leads.elapse (forward d List.mem_cons_self), inv.row, inv.sound⟩
      exact ih (fun d later => forward d (List.mem_cons_of_mem _ later)) (waited.tick recurs json)

/-! ## A job that stays due -/

/-- The row of a job after it fired at `now`. -/
def ScheduledJob.rescheduled (job : ScheduledJob) (cron : Cron) (now : Time) : ScheduledJob :=
  match cron.parseStandard job.cronExpr with
  | .error _ => job
  | .ok schedule => job.fired now (schedule.next now)

/-- A tick with one due job in the table. -/
theorem SoleLeader.tick_single {instanceID : String} (leads : SoleLeader instanceID w)
    (cron : Cron) (json : Json Raw) (only : w.db.jobs.rows = [job])
    (due : job.isDue (w.script.clock 0) = true) :
    ∃ w', (Service.run (Scheduler.tick cron json instanceID) w).2 = w' ∧
      SoleLeader instanceID w' ∧ w'.script.clock = rest (rest w.script.clock) ∧
      w'.db.jobs.rows = [job.rescheduled cron (w.script.clock 1)] ∧
      w'.publications job.id = w.publications job.id ++ [w.script.clock 1] := by
  obtain ⟨w', leads', db, kafka, clock, run⟩ := leads.tick_fires cron json
  have loaded : w.db.jobs.due (w.script.clock 0) = [job] := by
    simp [JobTable.due, only, due]
  rw [loaded, List.foldl_cons, List.foldl_nil] at run
  refine ⟨_, run, leads'.fire cron json job, ?_, ?_, ?_⟩
  · rw [(Scheduler.fire_frame cron json w' job).2.2, clock]
  · unfold Scheduler.fire ScheduledJob.rescheduled
    cases cron.parseStandard job.cronExpr with
    | error err =>
        show w'.db.jobs.rows = _
        rw [db, only]
    | ok schedule =>
        simp only [JobTable.update, db, only, clock, rest_apply, List.map_cons, List.map_nil,
          if_true]
  · rw [Scheduler.fire_publications, if_pos rfl, clock]
    unfold World.publications
    rw [kafka]
    rfl

/-- An expression that does not recur leaves its job due at some instant, with no
activation near. -/
theorem Cron.stuck_of_not_recurs {expr : String} (ends : ¬ cron.Recurs expr) :
    ∃ t, zeroTime < t ∧ ¬ Alarm.Between (cron.Activates expr) t (t + 2) ∧
      ∀ schedule, cron.parseStandard expr = .ok schedule → schedule.next t = zeroTime := by
  cases parsed : cron.parseStandard expr with
  | error err =>
      refine ⟨1, by decide, ?_, fun schedule ok => by cases ok⟩
      rintro ⟨a, ⟨schedule, ok, _⟩, _⟩
      rw [parsed] at ok
      cases ok
  | ok schedule =>
      have stops : ∃ t, zeroTime < t ∧ ¬ t < schedule.next t := by
        by_contra goes
        refine ends ⟨schedule, parsed, fun t started => ?_⟩
        by_contra late
        exact goes ⟨t, started, late⟩
      obtain ⟨t, started, late⟩ := stops
      rcases schedule.next_spec t with ⟨_, later, _⟩ | ⟨zero, silent⟩
      · exact absurd later late
      · refine ⟨t, started, ?_, fun other ok => by cases ok; exact zero⟩
        rintro ⟨a, ⟨other, ok, active⟩, after, before⟩
        rw [parsed] at ok
        cases ok
        exact silent a after (before.trans (Int.add_le_add_left (by decide) t)) active

/-- A job that has never run. -/
def unsetJob (expr : String) : ScheduledJob where
  id := "job-1"
  name := "report"
  cronExpr := expr
  taskType := "email"
  payload := [123, 125]
  enabled := true
  lastRunAt := none
  nextRunAt := none

/-- A deployment with that job alone, on a clock that starts at `t`. -/
def unsetWorld (expr : String) (t : Time) : World Raw :=
  { World.fresh { Script.calm with clock := fun n => t + n } with
    db.jobs := ⟨[unsetJob expr], List.nodup_singleton _⟩ }

theorem unsetWorld_leads (instanceID expr : String) {t : Time} (started : zeroTime ≤ t) :
    SoleLeader instanceID (unsetWorld expr t : World Raw) where
  calm := ⟨⟨rfl, fun _ => rfl, fun _ => rfl⟩, fun _ _ => rfl⟩
  faultless _ := rfl
  sole owner held := by cases held
  clock n := Int.add_lt_add_left (Int.ofNat_lt.mpr (Nat.lt_succ_self n)) t
  started := started.trans (Int.le_add_of_nonneg_right (Int.natCast_nonneg 0))

/-- A job left due by its firing fires at the next tick again. -/
theorem unsetWorld_refires (cron : Cron) (json : Json Raw) (instanceID expr : String) {t : Time}
    (started : zeroTime < t)
    (stuck : ∀ schedule, cron.parseStandard expr = .ok schedule → schedule.next t = zeroTime) :
    (runTicks cron json instanceID [0, 0] (unsetWorld expr (t - 1))).publications "job-1" =
      [t, t + 2] := by
  have leads : SoleLeader instanceID ((unsetWorld expr (t - 1) : World Raw).elapse 0) :=
    (unsetWorld_leads instanceID expr (Int.le_sub_one_of_lt started)).elapse le_rfl
  have only : ((unsetWorld expr (t - 1) : World Raw).elapse 0).db.jobs.rows = [unsetJob expr] := rfl
  have clock : ∀ n : Nat, ((unsetWorld expr (t - 1) : World Raw).elapse 0).script.clock n =
      t - 1 + n := fun _ => rfl
  obtain ⟨w₁, run₁, leads₁, clock₁, rows₁, sent₁⟩ := leads.tick_single cron json only rfl
  have first : t - 1 + ((1 : Nat) : Int) = t := Int.sub_add_cancel t 1
  rw [clock, first] at rows₁ sent₁
  have second : w₁.script.clock 1 = t + 2 := by
    have third : ∀ u : Int, u - 1 + ((3 : Nat) : Int) = u + 2 := fun u => by omega
    rw [clock₁, rest_apply, rest_apply, clock]
    exact third t
  have still :
      ((unsetJob expr).rescheduled cron t).isDue ((w₁.elapse 0).script.clock 0) = true := by
    unfold ScheduledJob.rescheduled
    cases parsed : cron.parseStandard (unsetJob expr).cronExpr with
    | error err => rfl
    | ok schedule =>
        have reached : zeroTime ≤ (w₁.elapse 0).script.clock 0 := leads₁.started
        simpa only [ScheduledJob.isDue, ScheduledJob.fired, stuck schedule parsed, Bool.true_and,
          unsetJob, decide_eq_true_eq] using reached
  obtain ⟨w₂, run₂, -, -, -, sent₂⟩ :=
    (leads₁.elapse le_rfl).tick_single cron json rows₁ still
  have ran : runTicks cron json instanceID [0, 0] (unsetWorld expr (t - 1)) = w₂ := by
    unfold runTicks
    rw [run₁]
    exact run₂
  have sameID : ((unsetJob expr).rescheduled cron t).id = "job-1" := by
    unfold ScheduledJob.rescheduled
    cases cron.parseStandard (unsetJob expr).cronExpr <;> rfl
  rw [sameID] at sent₂
  rw [ran, sent₂]
  exact congrArg₂ (· ++ ·) sent₁ (congrArg (fun u => [u]) second)

/-- **Firings per activation.**  The only leader fires a job at most once per
activation of its expression, whatever the table, the clock and the pace of the
ticks, exactly when the expression recurs. -/
theorem fires_per_activation_iff (cron : Cron) (json : Json Raw) (instanceID expr : String) :
    (∀ (w : World Raw) (job : ScheduledJob) (durations : List Time), SoleLeader instanceID w →
      job ∈ w.db.jobs.rows → job.cronExpr = expr → w.publications job.id = [] →
      (∀ d ∈ durations, 0 ≤ d) →
      ((runTicks cron json instanceID durations w).publications job.id).Pairwise
        (Alarm.Between (cron.Activates expr))) ↔ cron.Recurs expr := by
  constructor
  · intro spaced
    by_contra ends
    obtain ⟨t, started, apart, stuck⟩ := Cron.stuck_of_not_recurs ends
    have twice := spaced (unsetWorld expr (t - 1)) (unsetJob expr) [0, 0]
      (unsetWorld_leads instanceID expr (Int.le_sub_one_of_lt started)) List.mem_cons_self rfl rfl
      (by decide)
    rw [show (unsetJob expr).id = "job-1" from rfl,
      unsetWorld_refires cron json instanceID expr started stuck] at twice
    exact apart (List.rel_of_pairwise_cons twice List.mem_cons_self)
  · intro recurs w job durations leads member same unfired forward
    have start : OnSchedule cron instanceID job.id expr w :=
      ⟨leads, ⟨job, member, rfl, same⟩, .unfired unfired⟩
    exact (start.runTicks recurs json forward).sound.spaced

/-- A job with a malformed expression fires at every tick. -/
theorem malformed_fires_again :
    ¬ ∀ (cron : Cron) (instanceID : String) (w : World Task) (job : ScheduledJob)
      (durations : List Time), SoleLeader instanceID w → job ∈ w.db.jobs.rows →
      w.publications job.id = [] → (∀ d ∈ durations, 0 ≤ d) →
      ((runTicks cron plainJson instanceID durations w).publications job.id).Pairwise
        (Alarm.Between (cron.Activates job.cronExpr)) := by
  intro spaced
  let cron : Cron := ⟨fun _ => .error (.new "expected exactly 5 fields")⟩
  have twice := spaced cron "scheduler-a" (unsetWorld "every minute" 0) (unsetJob "every minute")
    [0, 0] (unsetWorld_leads _ _ le_rfl) List.mem_cons_self rfl (by decide)
  have fired : (runTicks cron plainJson "scheduler-a" [0, 0]
      (unsetWorld "every minute" 0)).publications "job-1" = [1, 3] := by decide
  rw [show (unsetJob "every minute").id = "job-1" from rfl, fired] at twice
  obtain ⟨a, ⟨schedule, parsed, _⟩, _⟩ := List.rel_of_pairwise_cons twice List.mem_cons_self
  cases parsed

end TaskFlow
