import TaskFlow.Coverage

/-!
# One failing job does not hold back the others

`processDueJobs` fires the due jobs one after another, and publications, expressions and
updates fail.  `Firing` is what happens to one job: whether its task was sent and what its
row was moved to.  Whatever fails, every due job is tried once, in the order of the query;
the log grows by the tasks that were sent, in that order; whether a job is sent depends on
its own publication alone; and its row moves exactly when its task was sent, its expression
parses and its own update works (`due_jobs_independent`).
-/

namespace TaskFlow

open Effect

variable {Raw : Type} {cron : Cron} {json : Json Raw} {w : World Raw}

/-- What `runJob` does for a job. -/
structure Firing : Type where
  job : ScheduledJob
  taskID : String
  now : Time
  sent : Bool
  next : Option Time

namespace Firing

/-- The record of the task, if it was sent. -/
def record (json : Json Raw) (f : Firing) : Option (Record Raw) :=
  if f.sent then
    some ⟨⟨topicPending, f.taskID, json.marshal (Scheduler.newTask f.job f.taskID f.now)⟩,
      .scheduler f.job.id f.job.nextRunAt f.now⟩
  else none

/-- The schedule the row is moved by: `runJob` gets to its update when the task was sent
and the expression parses. -/
def schedule (cron : Cron) (f : Firing) : Option Schedule :=
  if f.sent then (cron.parseStandard f.job.cronExpr).toOption else none

/-- How many of the jobs got to their update. -/
def updates (cron : Cron) (fs : List Firing) : Nat :=
  fs.countP fun f => (f.schedule cron).isSome

/-- What happens to the job at place `k` when `u` of the jobs before it got to their
update: it has the identifier, the time and the publication of its place, and its update is
the next one. -/
structure Follows (cron : Cron) (w : World Raw) (k u : Nat) (f : Firing) : Prop where
  taskID : f.taskID = w.script.uuid k
  now : f.now = w.script.clock k
  sent : f.sent = !(w.cancelled || w.script.fails .publish k)
  next : f.next = (f.schedule cron).bind fun schedule =>
    if w.script.fails .updateJob u then none else some (schedule.next f.now)

/-- The table after the update of the job, if there was one. -/
def move (f : Firing) (table : JobTable) : JobTable :=
  match f.next with
  | none => table
  | some next => table.update f.job.id f.now next

/-- The row of the job afterwards. -/
def row (f : Firing) : ScheduledJob :=
  match f.next with
  | none => f.job
  | some next => f.job.fired f.now next

end Firing

theorem World.spend_fails_self (w : World Raw) (c : Call) :
    (w.spend c).script.fails c = rest (w.script.fails c) :=
  Function.update_self c _ w.script.fails

theorem World.spend_fails_ne (w : World Raw) {c c' : Call} (ne : c' ≠ c) :
    (w.spend c).script.fails c' = w.script.fails c' :=
  Function.update_of_ne ne _ w.script.fails

namespace Scheduler

/-- What happens to a job that is fired now. -/
def firing (cron : Cron) (w : World Raw) (job : ScheduledJob) : Firing where
  job := job
  taskID := w.script.uuid 0
  now := w.script.clock 0
  sent := !w.fails .publish
  next :=
    if w.fails .publish then none
    else match cron.parseStandard job.cronExpr with
      | .error _ => none
      | .ok schedule =>
          if w.script.fails .updateJob 0 then none else some (schedule.next (w.script.clock 0))

/-- What happens to the jobs of a list, one after another. -/
def firings (cron : Cron) (json : Json Raw) (w : World Raw) : List ScheduledJob → List Firing
  | [] => []
  | job :: jobs =>
      firing cron w job :: firings cron json (Service.run (runJob cron json job) w).2 jobs

/-! ## One job -/

/-- The world after the task of a job was sent, or was not. -/
structure Sends (json : Json Raw) (w : World Raw) (f : Firing) (w' : World Raw) : Prop where
  log : w'.kafka = w.kafka ++ (f.record json).toList
  jobs : w'.db.jobs = w.db.jobs
  cancelled : w'.cancelled = w.cancelled
  uuid : w'.script.uuid = rest w.script.uuid
  clock : w'.script.clock = rest w.script.clock
  publishes : w'.script.fails .publish = rest (w.script.fails .publish)
  updates : w'.script.fails .updateJob = w.script.fails .updateJob

/-- The world after a job was fired: the log and the table as the firing says, and what the
surroundings have left for the later jobs. -/
structure Fires (cron : Cron) (json : Json Raw) (w : World Raw) (f : Firing) (w' : World Raw) :
    Prop where
  log : w'.kafka = w.kafka ++ (f.record json).toList
  jobs : w'.db.jobs = f.move w.db.jobs
  cancelled : w'.cancelled = w.cancelled
  uuid : w'.script.uuid = rest w.script.uuid
  clock : w'.script.clock = rest w.script.clock
  publishes : w'.script.fails .publish = rest (w.script.fails .publish)
  updates : w'.script.fails .updateJob =
    if (f.schedule cron).isSome then rest (w.script.fails .updateJob)
    else w.script.fails .updateJob

/-- The publication of `runJob`. -/
def send (json : Json Raw) (w : World Raw) (job : ScheduledJob) : Option Error × World Raw :=
  perform (.publish topicPending (w.script.uuid 0)
    (json.marshal (newTask job (w.script.uuid 0) (w.script.clock 0)))
    (.scheduler job.id job.nextRunAt (w.script.clock 0))) w.tick.draw

theorem runJob_send (cron : Cron) (json : Json Raw) (w : World Raw) (job : ScheduledJob) :
    Service.run (runJob cron json job) w =
      Service.run (afterPublish cron job (w.script.clock 0) (send json w job).1)
        (send json w job).2 := rfl

/-- What the publication of a job does. -/
theorem send_sends (cron : Cron) (json : Json Raw) (w : World Raw) (job : ScheduledJob) :
    Sends json w (firing cron w job) (send json w job).2 where
  log := by
    refine (perform_publish_kafka ..).trans (congrArg (w.kafka ++ ·) ?_)
    show (if w.fails .publish then [] else _) = _
    cases down : w.fails .publish with
    | true => simp [Firing.record, firing, down]
    | false => simp [Firing.record, firing, down]
  jobs := perform_jobs (by simp)
  cancelled := perform_cancelled (by simp) (by simp)
  uuid := perform_uuid_same (by simp) (by simp)
  clock := perform_clock (by simp [Op.readsClock])
  publishes := by
    cases down : w.tick.draw.fails .publish with
    | true =>
        simp only [send, perform, World.publish, World.attempt_of_fails down]
        exact World.spend_fails_self ..
    | false =>
        simp only [send, perform, World.publish, World.attempt_of_works down]
        exact World.spend_fails_self ..
  updates := perform_fails (by simp [Op.kind])

section Update

variable {f : Firing} {w' : World Raw}

/-- A job that does not get to its update. -/
theorem Sends.fires (sends : Sends json w f w') (unreached : f.schedule cron = none)
    (unmoved : f.next = none) : Fires cron json w f w' where
  log := sends.log
  jobs := by rw [sends.jobs, Firing.move, unmoved]
  cancelled := sends.cancelled
  uuid := sends.uuid
  clock := sends.clock
  publishes := sends.publishes
  updates := by
    rw [sends.updates, unreached]
    rfl

/-- A job that gets to its update. -/
theorem Sends.update (sends : Sends json w f w') (live : w.cancelled = false) {next : Time}
    (reached : (f.schedule cron).isSome = true)
    (moved : f.next = if w.script.fails .updateJob 0 then none else some next) :
    Fires cron json w f (perform (.updateJob f.now next f.job.id) w').2 := by
  have same : w'.fails .updateJob = w.script.fails .updateJob 0 := by
    rw [World.fails, sends.cancelled, live, sends.updates]
    rfl
  refine ⟨(perform_kafka (by simp)).trans sends.log, ?_,
    (perform_cancelled (by simp) (by simp)).trans sends.cancelled,
    (perform_uuid_same (by simp) (by simp)).trans sends.uuid,
    (perform_clock (by simp [Op.readsClock])).trans sends.clock,
    (perform_fails (by simp [Op.kind])).trans sends.publishes, ?_⟩
  · rw [Firing.move, moved]
    cases down : w.script.fails .updateJob 0 with
    | true =>
        simp only [perform, World.updateJob, World.attempt_of_fails (same.trans down)]
        exact sends.jobs
    | false =>
        simp only [perform, World.updateJob, World.attempt_of_works (same.trans down)]
        exact congrArg (JobTable.update · f.job.id f.now next) sends.jobs
  · rw [if_pos reached, ← sends.updates]
    cases down : w'.fails .updateJob with
    | true =>
        simp only [perform, World.updateJob, World.attempt_of_fails down]
        exact w'.spend_fails_self .updateJob
    | false =>
        simp only [perform, World.updateJob, World.attempt_of_works down]
        exact w'.spend_fails_self .updateJob

end Update

theorem runJob_fires (cron : Cron) (json : Json Raw) (w : World Raw) (job : ScheduledJob) :
    Fires cron json w (firing cron w job) (Service.run (runJob cron json job) w).2 := by
  have sends := send_sends cron json w job
  have sent : (send json w job).1 = none ↔ w.fails .publish = false := perform_publish_ok
  rw [runJob_send]
  cases answer : (send json w job).1 with
  | some err =>
      have down : w.fails .publish = true := by
        rw [answer] at sent
        exact Bool.eq_true_of_not_eq_false fun up => nomatch sent.mpr up
      exact sends.fires (by simp [Firing.schedule, firing, down]) (by simp [firing, down])
  | none =>
      have up := sent.mp answer
      unfold afterPublish reschedule
      cases parsed : cron.parseStandard job.cronExpr with
      | error err =>
          refine sends.fires ?_ ?_
          · simp [Firing.schedule, firing, parsed, Except.toOption]
          · simp [firing, parsed]
      | ok schedule =>
          refine sends.update (Bool.or_eq_false_iff.mp up).1 ?_ ?_
          · simp [Firing.schedule, firing, up, parsed, Except.toOption]
          · simp [firing, up, parsed]

theorem firing_follows (cron : Cron) (w : World Raw) (job : ScheduledJob) :
    (firing cron w job).Follows cron w 0 0 where
  taskID := rfl
  now := rfl
  sent := rfl
  next := by
    cases down : w.fails .publish with
    | true => simp [firing, Firing.schedule, down]
    | false =>
        cases parsed : cron.parseStandard job.cronExpr with
        | error err => simp [firing, Firing.schedule, down, parsed, Except.toOption]
        | ok schedule => simp [firing, Firing.schedule, down, parsed, Except.toOption]

/-- What follows for a later job. -/
theorem Fires.follows {f g : Firing} {w' : World Raw} {k u : Nat}
    (fires : Fires cron json w f w') (later : g.Follows cron w' k u) :
    g.Follows cron w (k + 1) (u + if (f.schedule cron).isSome then 1 else 0) where
  taskID := by rw [later.taskID, fires.uuid, rest_apply]
  now := by rw [later.now, fires.clock, rest_apply]
  sent := by rw [later.sent, fires.cancelled, fires.publishes, rest_apply]
  next := by
    rw [later.next, fires.updates]
    cases (f.schedule cron).isSome with
    | true => rfl
    | false => rfl

/-! ## All of them -/

theorem run_runJobs_cons (cron : Cron) (json : Json Raw) (w : World Raw) (job : ScheduledJob)
    (jobs : List ScheduledJob) :
    Service.run (runJobs cron json (job :: jobs)) w =
      Service.run (runJobs cron json jobs) (Service.run (runJob cron json job) w).2 :=
  Prog.run_bind ..

theorem firings_job (cron : Cron) (json : Json Raw) (w : World Raw) (jobs : List ScheduledJob) :
    (firings cron json w jobs).map Firing.job = jobs := by
  induction jobs generalizing w with
  | nil => rfl
  | cons job jobs ih => exact congrArg (job :: ·) (ih _)

theorem runJobs_log (jobs : List ScheduledJob) :
    (Service.run (runJobs cron json jobs) w).2.kafka =
      w.kafka ++ (firings cron json w jobs).filterMap (Firing.record json) := by
  induction jobs generalizing w with
  | nil => exact (List.append_nil _).symm
  | cons job jobs ih =>
      rw [run_runJobs_cons, ih, (runJob_fires cron json w job).log, List.append_assoc, firings,
        List.filterMap_cons]
      cases (firing cron w job).record json <;> rfl

theorem runJobs_table (jobs : List ScheduledJob) :
    (Service.run (runJobs cron json jobs) w).2.db.jobs =
      (firings cron json w jobs).foldl (fun table f => f.move table) w.db.jobs := by
  induction jobs generalizing w with
  | nil => rfl
  | cons job jobs ih =>
      rw [run_runJobs_cons, ih, (runJob_fires cron json w job).jobs]
      rfl

theorem firings_follow {jobs : List ScheduledJob} {k : Nat} {f : Firing}
    (found : (firings cron json w jobs)[k]? = some f) :
    f.Follows cron w k (Firing.updates cron ((firings cron json w jobs).take k)) := by
  induction jobs generalizing w k with
  | nil => cases found
  | cons job jobs ih =>
      cases k with
      | zero =>
          cases found
          exact firing_follows cron w job
      | succ k =>
          rw [firings, List.take_succ_cons, Firing.updates, List.countP_cons]
          exact (runJob_fires cron json w job).follows (ih found)

end Scheduler

/-! ## The rows -/

namespace Firing

variable {f : Firing} {table : JobTable} {row : ScheduledJob}

theorem row_id (f : Firing) : f.row.id = f.job.id := by
  unfold row
  cases f.next <;> rfl

/-- The rows after the update of a job. -/
theorem mem_move (present : f.job ∈ table.rows) :
    row ∈ (f.move table).rows ↔ row = f.row ∨ row ∈ table.rows ∧ row.id ≠ f.job.id := by
  unfold move Firing.row
  cases f.next with
  | none =>
      constructor
      · intro member
        by_cases same : row.id = f.job.id
        · exact .inl (table.eq_of_mem member present same)
        · exact .inr ⟨member, same⟩
      · rintro (rfl | ⟨member, _⟩)
        · exact present
        · exact member
  | some next =>
      dsimp only
      constructor
      · intro member
        obtain ⟨old, listed, rfl⟩ := List.mem_map.mp member
        split
        · rename_i same
          exact .inl (by rw [table.eq_of_mem listed present same])
        · exact .inr ⟨listed, ‹_›⟩
      · rintro (rfl | ⟨member, other⟩)
        · exact List.mem_map.mpr ⟨f.job, present, if_pos rfl⟩
        · exact List.mem_map.mpr ⟨row, member, if_neg other⟩

/-- The rows after the updates of several jobs. -/
theorem mem_moves {fs : List Firing} (present : ∀ f ∈ fs, f.job ∈ table.rows)
    (distinct : (fs.map (·.job.id)).Nodup) :
    row ∈ (fs.foldl (fun table f => f.move table) table).rows ↔
      (∃ f ∈ fs, row = f.row) ∨ row ∈ table.rows ∧ ∀ f ∈ fs, row.id ≠ f.job.id := by
  induction fs generalizing table with
  | nil => simp
  | cons f fs ih =>
      rw [List.map_cons, List.nodup_cons] at distinct
      have here := present f List.mem_cons_self
      have apart : ∀ g ∈ fs, g.job.id ≠ f.job.id := fun g member same =>
        distinct.1 (same ▸ List.mem_map_of_mem (f := fun g : Firing => g.job.id) member)
      have later : ∀ g ∈ fs, g.job ∈ (f.move table).rows := fun g member =>
        (mem_move here).mpr (.inr ⟨present g (List.mem_cons_of_mem _ member), apart g member⟩)
      rw [List.foldl_cons, ih later distinct.2, mem_move here]
      constructor
      · rintro (⟨g, member, same⟩ | ⟨rfl | ⟨old, other⟩, others⟩)
        · exact .inl ⟨g, List.mem_cons_of_mem _ member, same⟩
        · exact .inl ⟨f, List.mem_cons_self, rfl⟩
        · refine .inr ⟨old, fun g member => ?_⟩
          rcases List.mem_cons.mp member with rfl | rest
          · exact other
          · exact others g rest
      · rintro (⟨g, member, rfl⟩ | ⟨old, others⟩)
        · rcases List.mem_cons.mp member with rfl | rest
          · refine .inr ⟨.inl rfl, fun g rest => ?_⟩
            rw [row_id]
            exact (apart g rest).symm
          · exact .inl ⟨g, rest, rfl⟩
        · exact .inr ⟨.inr ⟨old, others f List.mem_cons_self⟩, fun g rest =>
            others g (List.mem_cons_of_mem _ rest)⟩

end Firing

/-! ## The outcome -/

/-- What the due jobs came to.  The clock is read once for the query before it is read for
the jobs. -/
structure DueOutcome (cron : Cron) (json : Json Raw) (w w' : World Raw) (fs : List Firing) :
    Prop where
  order : fs.map Firing.job = w.db.jobs.due (w.script.clock 0)
  log : w'.kafka = w.kafka ++ fs.filterMap (Firing.record json)
  each : ∀ k (f : Firing), fs[k]? = some f →
    f.Follows cron w.tick k (Firing.updates cron (fs.take k))
  rows : ∀ row, row ∈ w'.db.jobs.rows ↔ (∃ f ∈ fs, row = f.row) ∨
    row ∈ w.db.jobs.rows ∧ row ∉ w.db.jobs.due (w.script.clock 0)

/-- The outcome of the loop. -/
theorem loaded_outcome (cron : Cron) (json : Json Raw) (w : World Raw) :
    DueOutcome cron json w
      (Service.run (Scheduler.runJobs cron json (w.db.jobs.due (w.script.clock 0)))
        (w.tick.spend .loadDueJobs)).2
      (Scheduler.firings cron json (w.tick.spend .loadDueJobs)
        (w.db.jobs.due (w.script.clock 0))) where
  order := Scheduler.firings_job ..
  log := Scheduler.runJobs_log _
  each k f found := by
    have follows := Scheduler.firings_follow found
    refine ⟨follows.taskID, follows.now, ?_, ?_⟩
    · rw [follows.sent, World.spend_fails_ne w.tick (by decide)]
      rfl
    · rw [follows.next, World.spend_fails_ne w.tick (by decide)]
  rows row := by
    have jobs := Scheduler.firings_job cron json (w.tick.spend .loadDueJobs)
      (w.db.jobs.due (w.script.clock 0))
    rw [Scheduler.runJobs_table]
    generalize Scheduler.firings cron json (w.tick.spend .loadDueJobs)
      (w.db.jobs.due (w.script.clock 0)) = fs at jobs ⊢
    change row ∈ (fs.foldl (fun table f => f.move table) w.db.jobs).rows ↔ _
    have fired : ∀ f ∈ fs, f.job ∈ w.db.jobs.due (w.script.clock 0) := fun f member =>
      jobs ▸ List.mem_map_of_mem member
    have present : ∀ f ∈ fs, f.job ∈ w.db.jobs.rows := fun f member =>
      (JobTable.mem_due.mp (fired f member)).1
    have distinct : (fs.map (·.job.id)).Nodup := by
      have nodup := w.db.jobs.due_nodup (w.script.clock 0)
      rwa [← jobs, List.map_map] at nodup
    rw [Firing.mem_moves present distinct]
    refine or_congr_right (and_congr_right fun old =>
      ⟨fun others due => ?_, fun idle f member => ?_⟩)
    · rw [← jobs] at due
      obtain ⟨f, member, rfl⟩ := List.mem_map.mp due
      exact others f member rfl
    · intro same
      rw [JobTable.eq_of_mem old (present f member) same] at idle
      exact idle (fired f member)

/-- **Failures do not cross jobs.**  Whatever fails during `processDueJobs`, either the query
did and nothing changed, or every due job was tried once in the order of the query: its
task is in the log exactly when its own publication worked, its row moved exactly when
besides its expression parses and its own update worked, and no other row changed. -/
theorem due_jobs_independent (cron : Cron) (json : Json Raw) (w : World Raw) :
    (w.fails .loadDueJobs = true ∧
      (Service.run (Scheduler.processDueJobs cron json) w).1 ≠ none ∧
      (Service.run (Scheduler.processDueJobs cron json) w).2.kafka = w.kafka ∧
      (Service.run (Scheduler.processDueJobs cron json) w).2.db = w.db) ∨
    (w.fails .loadDueJobs = false ∧
      (Service.run (Scheduler.processDueJobs cron json) w).1 = none ∧
      ∃ fs, DueOutcome cron json w (Service.run (Scheduler.processDueJobs cron json) w).2 fs) := by
  have ticked : w.tick.fails .loadDueJobs = w.fails .loadDueJobs := rfl
  have run : Service.run (Scheduler.processDueJobs cron json) w =
      Service.run (Scheduler.runLoaded cron json w.loadDueJobs.1) w.loadDueJobs.2 := rfl
  rw [run]
  cases down : w.fails .loadDueJobs with
  | true =>
      left
      rw [World.loadDueJobs, World.attempt_of_fails (ticked.trans down)]
      exact ⟨rfl, Option.some_ne_none _, rfl, rfl⟩
  | false =>
      right
      rw [World.loadDueJobs, World.attempt_of_works (ticked.trans down)]
      have loop : Service.run (Scheduler.runLoaded cron json
          (.ok (w.db.jobs.due (w.script.clock 0)))) (w.tick.spend .loadDueJobs) =
          (none, (Service.run (Scheduler.runJobs cron json (w.db.jobs.due (w.script.clock 0)))
            (w.tick.spend .loadDueJobs)).2) := Prog.run_bind ..
      refine ⟨rfl, congrArg Prod.fst loop, Scheduler.firings cron json (w.tick.spend .loadDueJobs)
        (w.db.jobs.due (w.script.clock 0)), ?_⟩
      exact (congrArg Prod.snd loop).symm ▸ loaded_outcome cron json w

/-- Two due jobs, of which the first cannot be updated. -/
def twoDue : World Task :=
  { (World.fresh { Script.calm with fails := fun c n => c == .updateJob && n == 0 }) with
    db.jobs := ⟨[reportJob, { reportJob with id := "job-2" }], by decide⟩ }

-- Both tasks are sent, and the second row moves although the update of the first has failed.
example :
    let w := (Service.run (Scheduler.processDueJobs minuteCron plainJson) twoDue).2
    w.kafka.length = 2 ∧ w.db.jobs.rows.map (·.nextRunAt) = [some 0, some minute] := by
  decide

end TaskFlow
