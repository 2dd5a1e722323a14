import TaskFlow.Redelivery

/-!
# The calls of one execution

`Service.calls` lists what a call of a service asked of its surroundings.  For a call of
`processMessage` that gets past its check, `processMessage_trace` gives the handler
calls, the status writes, the cached copy and the recorded execution, under any faults
and cancellations: the counter `attempts`, which the attempt closure increments and the
`OnRetry` callback overwrites, is the number of handler calls made.
-/

namespace TaskFlow

open Effect

variable {Raw α : Type}

/-- The calls a service makes when it is executed alone. -/
def Service.calls (p : Service Raw α) (w : World Raw) : List (Op Raw) := Prog.calls perform p w

/-- The task of a handler call. -/
def Op.handled : Op Raw → Option Task
  | .handle _ task => some task
  | _ => none

/-- The task and the status of a status write. -/
def Op.statusWrite : Op Raw → Option (String × Status)
  | .setStatus id status => some (id, status)
  | _ => none

/-- The delay of a wait. -/
def Op.delay : Op Raw → Option Int64
  | .wait delay => some delay
  | _ => none

/-- The task of a write to the cache. -/
def Op.cached : Op Raw → Option Task
  | .setTaskMeta task => some task
  | _ => none

/-- The execution a call records. -/
def Op.recorded : Op Raw → Option TaskExecution
  | .recordExecution exec => some exec
  | _ => none

theorem perform_handled_eq (op : Op Raw) (w : World Raw) :
    (perform op w).2.handled.map Prod.fst = w.handled.map Prod.fst ++ op.handled.toList := by
  cases op with
  | handle h task => exact List.map_append
  | _ =>
      rw [perform_handled (by simp)]
      exact (List.append_nil _).symm

/-- The log of the handler calls grows by the handler calls made. -/
theorem Service.run_handled (p : Service Raw α) (w : World Raw) :
    (Service.run p w).2.handled.map Prod.fst =
      w.handled.map Prod.fst ++ (Service.calls p w).filterMap Op.handled := by
  induction p generalizing w with
  | pure value => exact (List.append_nil _).symm
  | call op next ih =>
      refine (ih _ _).trans ?_
      rw [perform_handled_eq, List.append_assoc]
      cases op <;> rfl

namespace Worker

variable {w : Worker} {h : Handler} {task : Task} {number left attempts : Nat} {s : World Raw}
  {json : Json Raw} {msg : Message Raw}

/-- The loop reports a retry for each wait it enters. -/
theorem attemptsFrom_waits (s : World Raw) :
    ((Service.calls (w.attemptsFrom h task number left attempts) s).filterMap
        Op.statusWrite).length =
      ((Service.calls (w.attemptsFrom h task number left attempts) s).filterMap
        Op.delay).length := by
  induction left generalizing number attempts s with
  | zero =>
      rw [attemptsFrom_zero]
      rfl
  | succ left ih =>
      rw [attemptsFrom_succ]
      unfold Service.calls
      rw [Prog.calls_call]
      generalize (perform (.handle h task) s).1 = outcome
      cases outcome with
      | none => rfl
      | some err =>
          simp only [afterAttempt, Prog.calls_call]
          generalize (perform (.wait (retryDelay w.baseDelay number)) _).1 = answer
          cases answer with
          | none => exact congrArg (· + 1) (ih _)
          | some ctxErr => rfl

/-- What a list of calls shows of an execution. -/
structure Shows (calls : List (Op Raw)) (handled : List Task) (statuses : List (String × Status))
    (waits : Nat) (cached recorded : List Int) : Prop where
  handled : calls.filterMap Op.handled = handled
  statuses : calls.filterMap Op.statusWrite = statuses
  waits : (calls.filterMap Op.delay).length = waits
  cached : (calls.filterMap Op.cached).map Task.attempts = cached
  recorded : (calls.filterMap Op.recorded).map TaskExecution.attempt = recorded

theorem Shows.append {calls calls' : List (Op Raw)} {handled handled' : List Task}
    {statuses statuses' : List (String × Status)} {waits waits' : Nat}
    {cached cached' recorded recorded' : List Int}
    (first : Shows calls handled statuses waits cached recorded)
    (second : Shows calls' handled' statuses' waits' cached' recorded') :
    Shows (calls ++ calls') (handled ++ handled') (statuses ++ statuses') (waits + waits')
      (cached ++ cached') (recorded ++ recorded') where
  handled := by rw [List.filterMap_append, first.handled, second.handled]
  statuses := by rw [List.filterMap_append, first.statuses, second.statuses]
  waits := by rw [List.filterMap_append, List.length_append, first.waits, second.waits]
  cached := by rw [List.filterMap_append, List.map_append, first.cached, second.cached]
  recorded := by rw [List.filterMap_append, List.map_append, first.recorded, second.recorded]

/-- The start of an execution. -/
theorem entered_shows (w : Worker) (task : Task) :
    Shows [.setStatus task.id .running, .count (.workerTasksInFlight w.workerType) 1,
      (.now : Op Raw)] [] [(task.id, .running)] 0 [] [] :=
  ⟨rfl, rfl, rfl, rfl, rfl⟩

/-- The end of an execution: one terminal status, and the counter in the cached copy and
in the recorded execution. -/
theorem finish_shows (w : Worker) (msg : Message Raw) (task : Task) (start : Time)
    (execErr : Option Error) (attempts : Nat) (s : World Raw) :
    Shows (Service.calls (w.finish msg task start (execErr, attempts)) s) []
      [(task.id, if execErr = none then .done else .dead)] 0 [(attempts : Int)]
      [(attempts : Int)] := by
  cases execErr with
  | none => exact ⟨rfl, rfl, rfl, rfl, rfl⟩
  | some err => exact ⟨rfl, rfl, rfl, rfl, rfl⟩

/-- The retry loop: as many handler calls as it counts, and a retry reported for each
wait. -/
theorem execAttempts_shows (w : Worker) (h : Handler) (task : Task) (s : World Raw) {k : Nat}
    {execErr : Option Error}
    (ran : Attempted task w.maxAttempts s (Service.run (w.execAttempts h task) s).2 execErr k) :
    ∃ waits, Shows (Service.calls (w.execAttempts h task) s) (List.replicate (k + 1) task)
      (List.replicate waits (task.id, .retrying)) waits [] [] := by
  have only : ∀ op ∈ Service.calls (w.execAttempts h task) s, AttemptOp task op :=
    attemptsFrom_all.calls s
  refine ⟨_, ?_, ?_, rfl, ?_, ?_⟩
  · have grown := Service.run_handled (w.execAttempts h task) s
    rw [ran.handled, List.map_append, List.map_map] at grown
    rw [← List.append_cancel_left grown, List.eq_replicate_iff]
    simp
  · rw [List.eq_replicate_iff]
    refine ⟨attemptsFrom_waits s, fun write member => ?_⟩
    obtain ⟨op, called, writes⟩ := List.mem_filterMap.mp member
    have attempt := only op called
    cases op with
    | setStatus id status =>
        obtain ⟨rfl, rfl⟩ := attempt
        exact (Option.some.inj writes).symm
    | _ => cases writes
  · rw [List.map_eq_nil_iff, List.filterMap_eq_nil_iff]
    intro op called
    have attempt := only op called
    cases op with
    | setTaskMeta t => exact attempt.elim
    | _ => rfl
  · rw [List.map_eq_nil_iff, List.filterMap_eq_nil_iff]
    intro op called
    have attempt := only op called
    cases op with
    | recordExecution exec => exact attempt.elim
    | _ => rfl

theorem perform_waitCut {op : Op Raw} {i : Nat}
    (handles : ∀ handler task, op ≠ .handle handler task) (waits : ∀ delay, op ≠ .wait delay) :
    WaitCut (perform op s).2 i ↔ WaitCut s i := by
  unfold WaitCut
  rw [perform_cancelled handles waits, perform_cancelInHandle handles, perform_cancelInWait waits,
    perform_timerFirst waits]

/-- The loop is entered with the outcomes and the cancellations of the start. -/
theorem entered_outcome (w : Worker) (task : Task) (s : World Raw) :
    (w.entered task s).script.outcome = s.script.outcome := by
  unfold entered
  rw [perform_outcome (by simp), perform_outcome (by simp), perform_outcome (by simp)]

theorem entered_waitCut {i : Nat} : WaitCut (w.entered task s) i ↔ WaitCut s i := by
  unfold entered
  rw [perform_waitCut (by simp) (by simp), perform_waitCut (by simp) (by simp),
    perform_waitCut (by simp) (by simp)]

/-- The calls of an execution with `k` attempts, for the outcomes and cancellations that
lie ahead at `s`. -/
structure Executes (w : Worker) (task : Task) (s : World Raw) (calls : List (Op Raw)) (k : Nat) :
    Prop where
  pos : 1 ≤ k
  le : k ≤ w.maxAttempts
  failed : ∀ i, i + 1 < k → s.script.outcome i ≠ none
  stops : s.script.outcome (k - 1) = none ∨ k = w.maxAttempts ∨ WaitCut s (k - 1)
  handled : calls.filterMap Op.handled = List.replicate k task
  statuses : calls.filterMap Op.statusWrite =
    (task.id, .running) ::
      List.replicate (calls.filterMap Op.delay).length (task.id, .retrying) ++
        [(task.id, if s.script.outcome (k - 1) = none then .done else .dead)]
  cached : (calls.filterMap Op.cached).map Task.attempts = [(k : Int)]
  recorded : (calls.filterMap Op.recorded).map TaskExecution.attempt = [(k : Int)]

theorem execute_calls (w : Worker) (msg : Message Raw) (task : Task) (h : Handler)
    (up : s.fails .setStatus = false) :
    ∃ start, Service.calls (w.execute msg task h) s =
      [.setStatus task.id .running, .count (.workerTasksInFlight w.workerType) 1, .now] ++
        (Service.calls (w.execAttempts h task) (w.entered task s) ++
          Service.calls (w.finish msg task start
            (Service.run (w.execAttempts h task) (w.entered task s)).1)
            (Service.run (w.execAttempts h task) (w.entered task s)).2) := by
  have answer : (perform (.setStatus task.id .running) s).1 = none := perform_setStatus_ok.mpr up
  simp only [Service.calls, execute_eq, Prog.calls_call, answer, afterRunning_none,
    Prog.calls_bind]
  exact ⟨_, rfl⟩

/-- Past `RUNNING`, a call returns nil and its calls are those of an execution. -/
theorem execute_trace (w : Worker) (msg : Message Raw) (task : Task) (h : Handler)
    (up : s.fails .setStatus = false) :
    (Service.run (w.execute msg task h) s).1 = none ∧
      ∃ k, Executes w task s (Service.calls (w.execute msg task h) s) k := by
  obtain ⟨_, run⟩ := execute_run w msg task h up
  obtain ⟨start, calls⟩ := execute_calls w msg task h up
  obtain ⟨k, ran, count, stops⟩ := w.execAttempts_run h task (w.entered task s)
  obtain ⟨waits, loop⟩ := w.execAttempts_shows h task (w.entered task s) ran
  have shows := (w.entered_shows task).append (loop.append (w.finish_shows msg task start
    (Service.run (w.execAttempts h task) (w.entered task s)).1.1
    (Service.run (w.execAttempts h task) (w.entered task s)).1.2
    (Service.run (w.execAttempts h task) (w.entered task s)).2))
  rw [run, calls]
  rw [entered_outcome, entered_waitCut] at stops
  have failed := ran.failed
  have success := ran.nil_iff
  rw [entered_outcome] at failed success
  refine ⟨w.finish_returns .., k + 1, Nat.succ_pos k, ran.lt,
    fun i lt => failed i (Nat.lt_of_succ_lt_succ lt), stops, ?_, ?_, ?_, ?_⟩
  · exact shows.handled.trans (List.append_nil _)
  · rw [shows.waits, Nat.zero_add, Nat.add_zero]
    refine shows.statuses.trans ?_
    simp only [success, Nat.add_sub_cancel]
    rfl
  · rw [← count]
    exact shows.cached
  · rw [← count]
    exact shows.recorded

theorem processMessage_calls (decodes : json.unmarshal msg.value = some task)
    (unseen : alreadyTerminal (perform (.getStatus task.id) s).1 = false) :
    Service.calls (w.processMessage json msg) s =
      .getStatus task.id :: Service.calls (w.processNew msg task)
        (perform (.getStatus task.id) s).2 := by
  simp only [Service.calls, processMessage, decodes, processTask_eq, Prog.calls_call, unseen]
  rfl

/-- The read of the check is no part of an execution. -/
theorem Executes.afterCheck {calls : List (Op Raw)} {k : Nat}
    (executes : Executes w task (perform (.getStatus task.id) s).2 calls k) :
    Executes w task s (.getStatus task.id :: calls) k := by
  have outcome : (perform (.getStatus task.id) s).2.script.outcome = s.script.outcome :=
    perform_outcome (by simp)
  obtain ⟨pos, le, failed, stops, handled, statuses, cached, recorded⟩ := executes
  rw [outcome] at failed stops statuses
  rw [perform_waitCut (by simp) (by simp)] at stops
  exact ⟨pos, le, failed, stops, handled, statuses, cached, recorded⟩

/-- Nothing happened between two worlds but the check and a status write that failed. -/
structure Refused (task : Task) (s s' : World Raw) (calls : List (Op Raw)) : Prop where
  calls : calls = [.getStatus task.id, .setStatus task.id .running]
  redis : s'.redis = s.redis
  db : s'.db = s.db
  kafka : s'.kafka = s.kafka
  handled : s'.handled = s.handled

theorem perform_getStatus_world (id : String) (s : World Raw) :
    (perform (.getStatus id) s).2 = s.spend .getStatus := by
  cases down : s.fails .getStatus with
  | true => simp only [perform, World.getStatus, World.attempt_of_fails down]
  | false => simp only [perform, World.getStatus, World.attempt_of_works down]

/-- A call that cannot write `RUNNING` returns the error of that write. -/
theorem execute_refused (w : Worker) (msg : Message Raw) (task : Task) (h : Handler)
    (down : s.fails .setStatus = true) :
    (∃ err, Service.run (w.execute msg task h) s = (some err, s.spend .setStatus)) ∧
      Service.calls (w.execute msg task h) s = [.setStatus task.id .running] := by
  have refused : perform (.setStatus task.id .running) s =
      (some (.wrap ("redis set status for " ++ task.id) s.unavailable), s.spend .setStatus) := by
    simp only [perform, World.setStatus, World.attempt_of_fails down]
  simp only [Service.run, Service.calls, execute_eq, Prog.run_call, Prog.calls_call, refused]
  exact ⟨⟨_, rfl⟩, rfl⟩

/-- **One call of `processMessage`.**  For a task with a handler that is not finished:
when `RUNNING` cannot be written the call returns an error and nothing happened;
otherwise it returns nil and its calls are those of an execution. -/
theorem processMessage_trace (w : Worker) (json : Json Raw) (msg : Message Raw) (s : World Raw)
    (decodes : json.unmarshal msg.value = some task)
    (registered : w.registry.get task.type = .ok h) (unfinished : s.terminal task.id = false) :
    (s.fails .setStatus = true →
      (∃ err, (Service.run (w.processMessage json msg) s).1 = some err) ∧
      Refused task s (Service.run (w.processMessage json msg) s).2
        (Service.calls (w.processMessage json msg) s)) ∧
    (s.fails .setStatus = false →
      (Service.run (w.processMessage json msg) s).1 = none ∧
      ∃ k, Executes w task s (Service.calls (w.processMessage json msg) s) k) := by
  have unseen : alreadyTerminal (perform (.getStatus task.id) s).1 = false := by
    rw [alreadyTerminal_getStatus, unfinished, Bool.and_false]
  have same : w.processNew msg task = w.execute msg task h := by simp only [processNew, registered]
  rw [processMessage_run decodes unseen, processMessage_calls decodes unseen, same]
  have fails : (perform (.getStatus task.id) s).2.fails .setStatus = s.fails .setStatus :=
    perform_fails_now (by simp) (by simp) (by simp [Op.kind])
  rw [← fails]
  constructor
  · intro down
    obtain ⟨⟨err, run⟩, calls⟩ := execute_refused w msg task h down
    rw [run, calls, perform_getStatus_world]
    exact ⟨⟨err, rfl⟩, rfl, rfl, rfl, rfl, rfl⟩
  · intro up
    obtain ⟨returns, k, executes⟩ := execute_trace w msg task h up
    exact ⟨returns, k, executes.afterCheck⟩

theorem processMessage_trace_email :
    (Service.calls ((emailWorker 3).processMessage plainJson emailMessage)
        (World.fresh flakyMail)).filterMap Op.statusWrite =
      [("task-1", .running), ("task-1", .retrying), ("task-1", .done)] ∧
    (Service.run ((emailWorker 3).processMessage plainJson emailMessage)
      (World.fresh flakyMail)).1 = none ∧
    ∃ k, Executes (emailWorker 3) emailTask (World.fresh flakyMail)
      (Service.calls ((emailWorker 3).processMessage plainJson emailMessage)
        (World.fresh flakyMail)) k :=
  ⟨by decide, ((emailWorker 3).processMessage_trace plainJson emailMessage (World.fresh flakyMail)
    rfl rfl rfl).2 rfl⟩

end Worker

end TaskFlow
