import TaskFlow.Activation
import TaskFlow.Occurrence

/-!
# No activation is skipped

Scheduler instances tick at the same time, lose the leadership in the middle of a tick,
crash between publishing a task and storing the next activation, and see queries,
publications and updates fail.  `Occurrence` shows that a job can then fire more than once
for an occurrence.  It never fires too rarely: when `next_run_at` of a job has passed an
activation of its schedule, a task was published for the job at or after that activation
(`activations_covered`).

`next_run_at` is set to the least activation after the instant at which the same instance
published, so what it passes over is not later than that publication.  Nothing else is
needed of the other instances, of the leadership or of the clocks.
-/

namespace TaskFlow

open Effect

variable {Raw ι : Type} {cron : Cron} {json : Json Raw} {schedule : Schedule}
  {jobID expr : String}

namespace Scheduler

/-! ## What an update comes after -/

/-- Loaded jobs have the expression of their row. -/
def Loads (jobID expr : String) : (op : Op Raw) → op.Ans → Prop
  | .loadDueJobs, loaded => ∀ jobs, loaded = .ok jobs → ∀ job ∈ jobs, job.id = jobID →
      job.cronExpr = expr
  | _, _ => True

/-- The update of the job comes right after a publication for it that worked, and stores
the next activation after that instant. -/
def Rearms (schedule : Schedule) (jobID : String) :
    (op : Op Raw) → op.Ans → Service Raw Unit → Prop
  | .publish topic _ _ origin, failed, rest => ∀ now next,
      rest.head = some (.updateJob now next jobID) → topic = topicPending ∧
        (∃ due, origin = .scheduler jobID due now) ∧ failed = none ∧ next = schedule.next now
  | _, _, rest => ∀ now next, rest.head ≠ some (.updateJob now next jobID)

/-- A job that could not be rescheduled leaves the rest of the loop. -/
theorem afterPublish_cases (cron : Cron) (json : Json Raw) (job : ScheduledJob)
    (jobs : List ScheduledJob) (now : Time) (failed : Option Error) :
    (afterPublish cron job now failed >>= fun _ => runJobs cron json jobs) =
        runJobs cron json jobs ∨
      failed = none ∧ ∃ schedule, cron.parseStandard job.cronExpr = .ok schedule ∧
        (afterPublish cron job now failed >>= fun _ => runJobs cron json jobs) =
          .call (.updateJob now (schedule.next now) job.id) fun _ => runJobs cron json jobs := by
  cases failed with
  | some err => exact .inl rfl
  | none =>
      cases parsed : cron.parseStandard job.cronExpr with
      | error err =>
          left
          simp only [afterPublish, reschedule, parsed]
          rfl
      | ok schedule =>
          refine .inr ⟨rfl, schedule, rfl, ?_⟩
          simp only [afterPublish, reschedule, parsed]
          rfl

theorem runJobs_rearms (json : Json Raw) {jobs : List ScheduledJob}
    (parsed : cron.parseStandard expr = .ok schedule)
    (loads : ∀ job ∈ jobs, job.id = jobID → job.cronExpr = expr) :
    Prog.Follows (Loads jobID expr) (Rearms schedule jobID) (runJobs cron json jobs) ∧
      ∀ now next, (runJobs cron json jobs).head ≠ some (.updateJob now next jobID) := by
  induction jobs with
  | nil => exact ⟨trivial, by simp [runJobs, Prog.head]⟩
  | cons job jobs ih =>
      obtain ⟨later, started⟩ := ih fun job member => loads job (List.mem_cons_of_mem _ member)
      rw [runJobs_cons]
      refine ⟨fun now _ => ⟨by simp [Rearms, Prog.head], fun taskID _ =>
        ⟨by simp [Rearms, Prog.head], fun failed _ => ?_⟩⟩, by simp [Prog.head]⟩
      dsimp only
      rcases afterPublish_cases cron json job jobs now failed with
        same | ⟨rfl, schedule', parsed', rest⟩
      · rw [same]
        exact ⟨fun now' next head => absurd head (started now' next), later⟩
      · rw [rest]
        refine ⟨fun now' next head => ?_, fun _ _ => ⟨started, later⟩⟩
        -- The update is that of the job just published.
        cases head
        rw [loads job List.mem_cons_self rfl, parsed] at parsed'
        cases parsed'
        exact ⟨rfl, ⟨_, rfl⟩, rfl, rfl⟩

theorem whenLeader_rearms (json : Json Raw) (jobID : String)
    (parsed : cron.parseStandard expr = .ok schedule) (leads : Bool) :
    Prog.Follows (Loads jobID expr) (Rearms schedule jobID) (whenLeader cron json leads) ∧
      ∀ now next, (whenLeader cron json leads).head ≠ some (.updateJob now next jobID) := by
  cases leads with
  | false => exact ⟨trivial, by simp [whenLeader, Prog.head]⟩
  | true =>
      rw [whenLeader_true]
      refine ⟨fun loaded expected => ?_, by simp [Prog.head]⟩
      cases loaded with
      | error err => exact ⟨by simp [Rearms, runLoaded, Prog.head], trivial⟩
      | ok jobs =>
          dsimp only
          rw [runLoaded_ok]
          obtain ⟨follows, started⟩ := runJobs_rearms json parsed (expected jobs rfl)
          exact ⟨started, follows⟩

theorem tick_rearms (json : Json Raw) (jobID : String)
    (parsed : cron.parseStandard expr = .ok schedule) (instanceID : String) :
    Prog.Follows (Loads jobID expr) (Rearms schedule jobID) (tick cron json instanceID) := by
  rw [tick_eq]
  intro reply _
  obtain ⟨leading, load⟩ := whenLeader_rearms json jobID parsed true
  obtain ⟨idling, none⟩ := whenLeader_rearms json jobID parsed false
  rcases reply with err | (_ | _)
  · exact ⟨none, idling⟩
  · refine ⟨by simp [Rearms, afterSetNX, renew_eq, Prog.head], fun reply _ => ?_⟩
    obtain ⟨follows, started⟩ := whenLeader_rearms json jobID parsed (renewed reply)
    exact ⟨started, follows⟩
  · exact ⟨load, leading⟩

end Scheduler

/-! ## Answers of the database -/

/-- Jobs are loaded as their rows stand. -/
theorem JobTable.Holds.loads {w : World Raw} (holds : w.db.jobs.Holds jobID expr) (op : Op Raw) :
    Scheduler.Loads jobID expr op (perform op w).1 := by
  cases op with
  | loadDueJobs =>
      intro jobs loaded job member same
      obtain ⟨row, present, rfl, rfl⟩ := holds
      have rows : job ∈ w.db.jobs.rows := by
        cases down : w.tick.fails .loadDueJobs with
        | true =>
            simp only [perform, World.loadDueJobs, World.attempt_of_fails down] at loaded
            cases loaded
        | false =>
            simp only [perform, World.loadDueJobs, World.attempt_of_works down] at loaded
            cases loaded
            exact (JobTable.mem_due.mp member).1
      rw [JobTable.eq_of_mem rows present same]
  | _ => trivial

/-- An update fails or changes its row. -/
theorem perform_updateJob_jobs (now next : Time) (id : String) (w : World Raw) :
    (perform (.updateJob now next id) w).2.db.jobs = w.db.jobs ∨
      (perform (.updateJob now next id) w).2.db.jobs = w.db.jobs.update id now next := by
  cases down : w.fails .updateJob with
  | true =>
      left
      simp only [perform, World.updateJob, World.attempt_of_fails down]
      rfl
  | false =>
      right
      simp only [perform, World.updateJob, World.attempt_of_works down]
      rfl

/-- What a call leaves in the row of a job: what it held, or what it was updated to. -/
theorem perform_nextRunAt (op : Op Raw) (w : World Raw) (jobID : String) :
    (perform op w).2.db.jobs.nextRunAt jobID = w.db.jobs.nextRunAt jobID ∨
      ∃ now next, op = .updateJob now next jobID ∧
        ∀ v, (perform op w).2.db.jobs.nextRunAt jobID = some v → v = next := by
  by_cases updates : ∃ now next id, op = .updateJob now next id
  · obtain ⟨now, next, id, rfl⟩ := updates
    rcases perform_updateJob_jobs now next id w with same | updated
    · exact .inl (by rw [same])
    · rw [updated]
      by_cases own : jobID = id
      · subst own
        refine .inr ⟨now, next, rfl, fun v after => ?_⟩
        exact JobTable.nextRunAt_update_eq after
      · exact .inl (JobTable.nextRunAt_update_of_ne own)
  · exact .inl (by rw [perform_jobs fun now next id eq => updates ⟨now, next, id, eq⟩])

theorem perform_holds (op : Op Raw) {w : World Raw} (holds : w.db.jobs.Holds jobID expr) :
    (perform op w).2.db.jobs.Holds jobID expr := by
  by_cases updates : ∃ now next id, op = .updateJob now next id
  · obtain ⟨now, next, id, rfl⟩ := updates
    rcases perform_updateJob_jobs now next id w with same | updated
    · rwa [same]
    · rw [updated]
      exact holds.update id now next
  · rwa [perform_jobs fun now next id eq => updates ⟨now, next, id, eq⟩]

/-! ## Publications since the start -/

/-- The log has grown from `old`, by records that include one for the job at `now`. -/
def World.FiredSince (w : World Raw) (old : List (Record Raw)) (jobID : String) (now : Time) :
    Prop :=
  ∃ new, w.kafka = old ++ new ∧ ∃ r ∈ new, r.firedFor jobID = some now

theorem World.FiredSince.perform {w : World Raw} {old : List (Record Raw)} {now : Time}
    (fired : w.FiredSince old jobID now) (op : Op Raw) :
    (perform op w).2.FiredSince old jobID now := by
  obtain ⟨new, log, r, member, firing⟩ := fired
  rcases perform_log op w with same | ⟨_, _, _, _, _, _, grown⟩
  · exact ⟨new, same.trans log, r, member, firing⟩
  · rw [log, List.append_assoc] at grown
    exact ⟨_, grown, r, List.mem_append_left _ member, firing⟩

/-- A publication for the job that worked. -/
theorem firedSince_publish {w : World Raw} {old new : List (Record Raw)} {key : String}
    {value : Raw} {due : Option Time} {now : Time} (log : w.kafka = old ++ new)
    (worked : (perform (.publish topicPending key value (.scheduler jobID due now)) w).1 = none) :
    (perform (.publish topicPending key value (.scheduler jobID due now)) w).2.FiredSince
      old jobID now := by
  have up := perform_publish_ok.mp worked
  have grown := perform_publish_kafka (w := w) topicPending key value (.scheduler jobID due now)
  rw [up, log, List.append_assoc] at grown
  exact ⟨_, grown, _, List.mem_append_right _ (List.mem_singleton_self _),
    if_pos ⟨rfl, rfl⟩⟩

/-! ## Runs of the instances -/

section Runs

variable {ids : ι → String} {s t : SchedulerPool Raw ι} {h : List (SchedulerStep Raw ι)}

/-- What holds between the steps: an update about to be made stores the activation after a
publication, and what the row has passed over was published for. -/
structure Covering (schedule : Schedule) (jobID expr : String) (old : List (Record Raw))
    (start : Option Time) (s : SchedulerPool Raw ι) : Prop where
  follows : ∀ i thread, s.threads i = some thread →
    Prog.Follows (Scheduler.Loads jobID expr) (Scheduler.Rearms schedule jobID) thread.rest
  armed : ∀ i thread now next, s.threads i = some thread →
    thread.rest.head = some (.updateJob now next jobID) →
    next = schedule.next now ∧ s.world.FiredSince old jobID now
  holds : s.world.db.jobs.Holds jobID expr
  grown : ∃ new, s.world.kafka = old ++ new
  covered : ∀ v a, s.world.db.jobs.nextRunAt jobID = some v → schedule.activates a →
    zeroTime ≤ a → (∀ x ∈ start, x ≤ a) → a < v →
    ∃ now, a ≤ now ∧ s.world.FiredSince old jobID now

/-- `Next` passes over no activation. -/
theorem Schedule.le_of_lt_next {now a : Time} (activates : schedule.activates a)
    (started : zeroTime ≤ a) (before : a < schedule.next now) : a ≤ now := by
  by_contra later
  rcases schedule.next_spec now with ⟨_, _, least⟩ | ⟨never, _⟩
  · exact absurd before (not_lt.mpr (least a (not_le.mp later) activates))
  · rw [never] at before
    exact absurd before (not_lt.mpr started)

variable [DecidableEq ι]

theorem Covering.step {old : List (Record Raw)} {start : Option Time}
    (parsed : cron.parseStandard expr = .ok schedule)
    {l : Label (Op Raw) ι Unit} (step : (schedulers cron json ids).Step s l t)
    (inv : Covering schedule jobID expr old start s) :
    Covering schedule jobID expr old start t := by
  have fired : ∀ now, s.world.FiredSince old jobID now → t.world.FiredSince old jobID now := by
    intro now
    refine step.world_invariant (I := fun w => w.FiredSince old jobID now)
      (fun op w fired => fired.perform op) ?_
    rintro w _ ⟨d, _, rfl⟩ fired
    exact fired
  refine ⟨fun j thread running => ?_, fun j thread now next running head => ?_, ?_, ?_, ?_⟩
  · rcases step.threads_cases running with ⟨before, _⟩ | ⟨request, _, _, _, rfl⟩ |
      ⟨op, next, _, before, rest, _⟩
    · exact inv.follows j thread before
    · exact Scheduler.tick_rearms json jobID parsed (ids j)
    · rw [rest]
      exact (inv.follows j _ before _ (inv.holds.loads op)).2
  · rcases step.threads_cases running with ⟨before, _⟩ | ⟨request, _, _, _, rfl⟩ |
      ⟨op, rest, _, before, left, after⟩
    · obtain ⟨stored, published⟩ := inv.armed j thread now next before head
      exact ⟨stored, fired now published⟩
    · cases head
    · have rearms := (inv.follows j _ before _ (inv.holds.loads op)).1
      rw [left] at head
      -- Only a publication for the job is followed by an update of it.
      cases op with
      | publish topic key value origin =>
          obtain ⟨rfl, ⟨due, rfl⟩, worked, rfl⟩ := rearms now next head
          obtain ⟨new, log⟩ := inv.grown
          rw [after]
          exact ⟨rfl, firedSince_publish log worked⟩
      | _ => exact absurd head (rearms now next)
  · refine step.world_invariant (I := fun w => w.db.jobs.Holds jobID expr)
      (fun op w => perform_holds op) ?_ inv.holds
    rintro w _ ⟨d, _, rfl⟩ holds
    exact holds
  · refine step.world_invariant (I := fun w => ∃ new, w.kafka = old ++ new) ?_ ?_ inv.grown
    · rintro op w ⟨new, log⟩
      rcases perform_log op w with same | ⟨_, _, _, _, _, _, grown⟩
      · exact ⟨new, same.trans log⟩
      · rw [log, List.append_assoc] at grown
        exact ⟨_, grown⟩
    · rintro w _ ⟨d, _, rfl⟩ grown
      exact grown
  · intro v a held activates started from' before
    have kept : s.world.db.jobs.nextRunAt jobID = some v →
        ∃ now, a ≤ now ∧ t.world.FiredSince old jobID now := by
      intro same
      obtain ⟨now, late, published⟩ := inv.covered v a same activates started from' before
      exact ⟨now, late, fired now published⟩
    rcases step.world_cases with ⟨_, same⟩ | ⟨i, _, op, _, _, here, after⟩ | ⟨_, moved⟩
    · rw [same] at held
      exact kept held
    · rw [after] at held
      rcases perform_nextRunAt op s.world jobID with same | ⟨now, next, rfl, stored⟩
      · exact kept (same ▸ held)
      · -- The row is set to what the instance computed after its publication.
        obtain rfl := stored v held
        obtain ⟨rfl, published⟩ := inv.armed i _ now v here rfl
        exact ⟨now, schedule.le_of_lt_next activates started before, fired now published⟩
    · obtain ⟨d, _, moved⟩ := moved
      rw [moved] at held
      exact kept held

/-- Whatever the instances do and whatever fails, `next_run_at` of a job passes over no
activation of its schedule that no task was published for. -/
theorem activations_covered (parsed : cron.parseStandard expr = .ok schedule)
    (idle : ∀ i, s.threads i = none) (holds : s.world.db.jobs.Holds jobID expr)
    (run : Trace (schedulers cron json ids).Step s h t) {v a : Time}
    (held : t.world.db.jobs.nextRunAt jobID = some v) (activates : schedule.activates a)
    (started : zeroTime ≤ a) (due : ∀ x ∈ s.world.db.jobs.nextRunAt jobID, x ≤ a)
    (passed : a < v) :
    ∃ now, a ≤ now ∧ t.world.FiredSince s.world.kafka jobID now := by
  have start : Covering schedule jobID expr s.world.kafka (s.world.db.jobs.nextRunAt jobID) s := by
    refine ⟨fun i thread running => ?_, fun i thread _ _ running => ?_, holds,
      ⟨[], (List.append_nil _).symm⟩, fun v a held _ _ due passed => ?_⟩
    · rw [idle i] at running
      cases running
    · rw [idle i] at running
      cases running
    · exact absurd passed (not_lt.mpr (due v held))
  have covering := run.invariant start fun e _ step inv => inv.step parsed step
  exact covering.covered v a held activates started due passed

/-- The leader loses the key in the middle of its tick, the next one crashes after it has
published, and the first one stores the next activation. -/
def crashed : List (Move (World Task) Bool Unit) := overtaken ++ [.stop true, .act false]

theorem activations_covered_crashed :
    ∃ now, 0 ≤ now ∧ ((schedulers minuteCron plainJson twoInstances).final
      reportDue crashed).world.FiredSince [] "job-1" now := by
  have run := schedulers_play crashed (by simp [crashed, overtaken])
  have parsed : minuteCron.parseStandard "* * * * *" = .ok everyMinute := rfl
  have holds : reportDue.world.db.jobs.Holds "job-1" "* * * * *" :=
    ⟨reportJob, List.mem_singleton_self _, rfl, rfl⟩
  have held : ((schedulers minuteCron plainJson twoInstances).final
      reportDue crashed).world.db.jobs.nextRunAt "job-1" = some minute := by decide
  have due : ∀ x ∈ reportDue.world.db.jobs.nextRunAt "job-1", x ≤ 0 := by decide
  exact activations_covered parsed (fun _ => rfl) holds run held (Int.dvd_zero _) (by decide)
    due (by decide)

end Runs

end TaskFlow
