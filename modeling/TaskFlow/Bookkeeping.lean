import TaskFlow.DurableCopies
import TaskFlow.PipelineCalls
import TaskFlow.Effect.Diary

/-!
# The books of the workers

At the end of a call a worker writes down what it did: a row of `task_executions` with the
attempts, the verdict and the time they took, and a copy of the task in the cache.  Other
calls on the same task may be under way, attempts fail and are cut short, and the writes
themselves may be lost.  What is written is right all the same (`books_accurate`): every row
and every copy of a finished task agrees with the handler runs of the one call that wrote
it, and no call writes two rows.

What the diary of one call says about its attempts is its `Course`.  That the books agree
with it is a property of the program of the worker alone (`Worker.processTask_keeps`).
-/

namespace TaskFlow

open Effect

variable {Raw ι : Type} {json : Json Raw}

/-! ## The course of a call -/

/-- What a worker went through in a call: the outcomes of the handler runs, the readings of
the clock, the error a wait was cut short with, and the rows it wrote. -/
structure Course : Type where
  outcomes : List (Option Error)
  readings : List Time
  cancelled : Option Error
  rows : List TaskExecution

/-- One more call with its answer. -/
def Course.add (c : Course) : Sigma (@Op.Ans Raw) → Course
  | ⟨.handle _ _, outcome⟩ => { c with outcomes := c.outcomes ++ [outcome] }
  | ⟨.now, reading⟩ => { c with readings := c.readings ++ [reading] }
  | ⟨.wait _, some ctxErr⟩ => { c with cancelled := some ctxErr }
  | ⟨.recordExecution exec, _⟩ => { c with rows := c.rows ++ [exec] }
  | _ => c

/-- The course of a diary. -/
def course (x : List (Sigma (@Op.Ans Raw))) : Course := x.foldl Course.add ⟨[], [], none, []⟩

theorem course_snoc (x : List (Sigma (@Op.Ans Raw))) (note : Sigma (@Op.Ans Raw)) :
    course (x ++ [note]) = (course x).add note :=
  List.foldl_append ..

/-- The result of `retry.Do`, from the outcomes of the attempts: the first success, the error
of the last of the attempts there may be, or the cancellation of a wait between two. -/
inductive Concludes (entitled : Nat) (outcomes : List (Option Error)) (cancelled : Option Error) :
    Option Error → Prop
  | success {failed : List Error} : outcomes = failed.map some ++ [none] →
    failed.length < entitled → Concludes entitled outcomes cancelled none
  | exhausted {failed : List Error} {err : Error} : outcomes = failed.map some ++ [some err] →
    failed.length + 1 = entitled → Concludes entitled outcomes cancelled (some err)
  | cutShort {failed : List Error} {ctxErr : Error} : outcomes = failed.map some →
    0 < failed.length → failed.length < entitled → cancelled = some ctxErr →
    Concludes entitled outcomes cancelled (some (.wrap
      ("retry cancelled after attempt " ++ toString failed.length) ctxErr))

/-- The status and the error text a result is booked with. -/
def bookedAs : Option Error → Status × String
  | none => (.done, "")
  | some err => (.dead, err.error)

/-- The row agrees with the course of the call that writes it, which has written none yet. -/
structure Course.Books (c : Course) (w : Worker) (task : Task) (row : TaskExecution) : Prop where
  first : c.rows = []
  task : row.taskID = task.id
  worker : row.workerID = w.workerID
  attempts : row.attempt = c.outcomes.length
  verdict : ∃ execErr, Concludes w.maxAttempts c.outcomes c.cancelled execErr ∧
    (row.status, row.error) = bookedAs execErr
  timed : ∃ start stop now, c.readings = [start, stop, now] ∧
    row.durationMs = Worker.milliseconds (Time.sub stop start)

/-- The copy is the task with the course of the call that writes it. -/
structure Course.Copies (c : Course) (w : Worker) (task copy : Task) : Prop where
  verdict : ∃ execErr, Concludes w.maxAttempts c.outcomes c.cancelled execErr ∧
    copy.status = (bookedAs execErr).1
  attempts : copy.attempts = c.outcomes.length
  same : ∃ status attempts updatedAt completedAt,
    copy = { task with status, attempts, updatedAt, completedAt }

/-! ## One call -/

namespace Worker

/-- What the worker writes agrees with the diary of its call. -/
def Books (w : Worker) (task : Task) (x : List (Sigma (@Op.Ans Raw))) : Op Raw → Prop
  | .recordExecution row => (course x).Books w task row
  | .setTaskMeta copy => (course x).Copies w task copy
  | _ => True

variable {w : Worker} {msg : Message Raw} {task : Task} {h : Handler}
  {x : List (Sigma (@Op.Ans Raw))}

theorem course_attempt {failed : List Error} {readings : List Time}
    (before : course x = ⟨failed.map some, readings, none, []⟩) (outcome : Option Error) :
    course (x ++ [⟨.handle h task, outcome⟩]) =
      ⟨failed.map some ++ [outcome], readings, none, []⟩ := by
  rw [course_snoc, before]
  rfl

/-- The course at the end of the retry loop agrees with its result. -/
def Retried (w : Worker) (readings : List Time) (y : List (Sigma (@Op.Ans Raw)))
    (result : Option Error × Nat) : Prop :=
  ∃ outcomes cancelled, course y = ⟨outcomes, readings, cancelled, []⟩ ∧
    Concludes w.maxAttempts outcomes cancelled result.1 ∧ result.2 = outcomes.length

/-- The retry loop, when the attempts before it failed. -/
theorem attemptsFrom_keeps {left : Nat} (failed : List Error) (readings : List Time)
    (before : course x = ⟨failed.map some, readings, none, []⟩)
    (entitled : failed.length + 1 + left = w.maxAttempts) :
    Prog.Keeps (w.Books task) (w.Retried readings) x
      (w.attemptsFrom h task (failed.length + 1) left failed.length) := by
  induction left generalizing failed x with
  | zero =>
      rw [attemptsFrom_zero]
      refine ⟨trivial, fun answer => ?_⟩
      cases answer with
      | none => exact ⟨_, _, course_attempt before none, .success rfl (by omega), by simp⟩
      | some err =>
          exact ⟨_, _, course_attempt before (some err), .exhausted rfl entitled, by simp⟩
  | succ left ih =>
      rw [attemptsFrom_succ]
      refine ⟨trivial, fun answer => ?_⟩
      cases answer with
      | none => exact ⟨_, _, course_attempt before none, .success rfl (by omega), by simp⟩
      | some err =>
          have failedOnce : failed.map some ++ [some err] = (failed ++ [err]).map some := by simp
          have longer : (failed ++ [err]).length = failed.length + 1 := by simp
          refine ⟨trivial, fun _ => ⟨trivial, fun _ => ⟨trivial, fun answer => ?_⟩⟩⟩
          cases answer with
          | none =>
              have again : ∀ y : List (Sigma (@Op.Ans Raw)),
                  course y = ⟨(failed ++ [err]).map some, readings, none, []⟩ →
                  Prog.Keeps (w.Books task) (w.Retried readings) y
                    (w.attemptsFrom h task (failed.length + 1 + 1) left (failed.length + 1)) := by
                intro y noted
                have next := ih (failed ++ [err]) noted (by omega)
                rwa [longer] at next
              apply again
              rw [course_snoc, course_snoc, course_snoc, course_attempt before, failedOnce]
              rfl
          | some ctxErr =>
              refine ⟨(failed ++ [err]).map some, some ctxErr, ?_, ?_, by simp⟩
              · rw [course_snoc, course_snoc, course_snoc, course_attempt before, failedOnce]
                rfl
              · rw [← longer]
                exact .cutShort rfl (by omega) (by omega) rfl

/-- The end of a call, when its course agrees with its result. -/
theorem finish_keeps {start : Time} {execErr : Option Error} {attempts : Nat}
    {outcomes : List (Option Error)} {cancelled : Option Error}
    (before : course x = ⟨outcomes, [start], cancelled, []⟩)
    (concludes : Concludes w.maxAttempts outcomes cancelled execErr)
    (counted : attempts = outcomes.length) :
    Prog.Keeps (w.Books task) (fun _ _ => True) x
      (w.finish msg task start (execErr, attempts)) := by
  have recorded : ∀ {y : List (Sigma (@Op.Ans Raw))} {stop now : Time} {copy : Task},
      course y = ⟨outcomes, [start, stop, now], cancelled, []⟩ →
      copy.status = (bookedAs execErr).1 → copy.attempts = outcomes.length →
      (∃ status attempts updatedAt completedAt,
        copy = { task with status, attempts, updatedAt, completedAt }) →
      Prog.Keeps (w.Books task) (fun _ _ => True) y
        (w.record copy (milliseconds (Time.sub stop start)) (bookedAs execErr).2 now) := by
    intro y stop now copy noted status attempts same
    rw [record_eq]
    refine ⟨trivial, fun _ => ⟨?_, fun _ => ⟨?_, fun _ => ⟨trivial, fun _ => trivial⟩⟩⟩⟩
    · show (course _).Copies w task copy
      rw [course_snoc, noted]
      exact ⟨⟨execErr, concludes, status⟩, attempts, same⟩
    · show (course _).Books w task _
      rw [course_snoc, course_snoc, noted]
      obtain ⟨_, _, _, _, rfl⟩ := same
      exact ⟨rfl, rfl, rfl, attempts, ⟨execErr, concludes, Prod.ext status rfl⟩,
        start, stop, now, rfl, rfl⟩
  rw [finish_eq]
  refine ⟨trivial, fun stop => Prog.Keeps.bind (Q := fun _ _ => True) ?_ fun y _ _ =>
    ⟨trivial, fun _ => trivial⟩⟩
  cases execErr with
  | none =>
      rw [settle, finishSuccess_eq]
      refine ⟨trivial, fun now => Prog.Keeps.bind (recorded ?_ rfl ?_ ⟨_, _, _, _, rfl⟩)
        fun _ _ _ => ⟨trivial, fun _ => trivial⟩⟩
      · rw [course_snoc, course_snoc, before]
        rfl
      · exact congrArg Nat.cast counted
  | some err =>
      rw [settle, finishFailure_eq]
      refine ⟨trivial, fun now => Prog.Keeps.bind (recorded ?_ rfl ?_ ⟨_, _, _, _, rfl⟩)
        fun _ _ _ => ⟨trivial, fun _ => ⟨trivial, fun _ => ⟨trivial, fun _ => trivial⟩⟩⟩⟩
      · rw [course_snoc, course_snoc, before]
        rfl
      · exact congrArg Nat.cast counted

theorem processTask_keeps (w : Worker) (msg : Message Raw) (task : Task) :
    Prog.Keeps (w.Books task) (fun _ _ => True) [] (w.processTask msg task) := by
  rw [processTask_eq]
  refine ⟨trivial, fun status => ?_⟩
  dsimp only
  split
  · trivial
  · unfold processNew
    split
    · exact ⟨trivial, fun _ => ⟨trivial, fun _ => ⟨trivial, fun _ => trivial⟩⟩⟩
    · rename_i h found
      rw [execute_eq]
      refine ⟨trivial, fun answer => ?_⟩
      cases answer with
      | some err => trivial
      | none =>
          rw [afterRunning_none]
          refine ⟨trivial, fun _ => ⟨trivial, fun start => ?_⟩⟩
          rw [execAttempts_eq]
          have positive : 0 < w.maxAttempts := entitled_pos _
          refine Prog.Keeps.bind (attemptsFrom_keeps [] [start] rfl ?_) ?_
          · rw [List.length_nil]
            omega
          · intro y result concluded
            obtain ⟨outcomes, cancelled, noted, concludes, counted⟩ := concluded
            exact finish_keeps noted concludes counted

end Worker

/-- What a slot writes to the books: workers agree with their diaries, dispatchers write
nothing, and submissions write copies of tasks that have not begun. -/
def Job.Books (json : Json Raw) : Job Raw → List (Sigma (@Op.Ans Raw)) → Op Raw → Prop
  | .consume _ (.process w msg), x, op =>
      ∃ task, json.unmarshal msg.value = some task ∧ w.Books task x op
  | .consume _ (.route _ _), _, .recordExecution _ => False
  | .consume _ (.route _ _), _, .setTaskMeta _ => False
  | .submit _, _, .recordExecution _ => False
  | .submit _, _, .setTaskMeta copy => copy.status = .pending
  | _, _, _ => True

theorem Job.body_keeps (job : Job Raw) :
    Prog.Keeps (job.Books json) (fun _ _ => True) [] (job.body json) := by
  cases job with
  | submit r =>
      refine Prog.Keeps.of_all ?_ fun _ _ => trivial
      refine r.submit_calls json none (fun _ => trivial) (fun _ => trivial)
        (fun _ _ _ => trivial) fun task asks => ?_
      obtain ⟨req, now, _, same⟩ := asks
      exact ⟨fun _ => congrArg Task.status same, fun _ => trivial, fun _ => trivial,
        fun _ => trivial⟩
  | consume n c =>
      cases c with
      | route d msg =>
          refine Prog.Keeps.of_all ((d.route_makes json msg).mono fun op calls => ?_)
            fun _ _ => trivial
          cases op with
          | recordExecution exec => exact calls.elim
          | setTaskMeta copy => exact calls.elim
          | _ => exact fun _ => trivial
      | process w msg =>
          dsimp only [body, Consume.body]
          unfold Worker.processMessage
          cases decodes : json.unmarshal msg.value with
          | none => trivial
          | some task =>
              refine (w.processTask_keeps msg task).mono (fun _ op books => ?_) fun _ _ => id
              exact ⟨task, decodes, books⟩

/-! ## The tables -/

/-- The row that a call appends to `task_executions`. -/
def Op.row (w : World Raw) : Op Raw → Option TaskExecution
  | .recordExecution exec =>
      if (perform (.recordExecution exec) w).1 = none then some (w.fillExecution exec).1 else none
  | _ => none

/-- The defaults of `RecordExecution` touch the identifier and the time of the row alone. -/
theorem World.fillExecution_eq (w : World Raw) (exec : TaskExecution) :
    (w.fillExecution exec).2.db = w.db ∧
      ∃ id executedAt, (w.fillExecution exec).1 = { exec with id, executedAt } := by
  by_cases unnamed : exec.id = ""
  · by_cases untimed : exec.executedAt = zeroTime
    · simp only [World.fillExecution, unnamed, untimed, if_true]
      exact ⟨rfl, _, _, rfl⟩
    · simp only [World.fillExecution, unnamed, untimed, if_true, if_false]
      exact ⟨rfl, _, _, rfl⟩
  · by_cases untimed : exec.executedAt = zeroTime
    · simp only [World.fillExecution, unnamed, untimed, if_true, if_false]
      exact ⟨rfl, _, _, rfl⟩
    · simp only [World.fillExecution, unnamed, untimed, if_false]
      exact ⟨trivial, _, _, rfl⟩

theorem perform_executions (op : Op Raw) (w : World Raw) :
    (perform op w).2.db.executions = w.db.executions ++ (op.row w).toList := by
  by_cases records : ∃ exec, op = .recordExecution exec
  · obtain ⟨exec, rfl⟩ := records
    have filled := (w.fillExecution_eq exec).1
    unfold Op.row
    simp only [perform, World.recordExecution]
    cases down : (w.fillExecution exec).2.fails .recordExecution with
    | true =>
        simp only [World.attempt_of_fails down, World.spend, filled]
        simp
    | false =>
        simp only [World.attempt_of_works down]
        have same : ((w.fillExecution exec).2.spend .recordExecution).db = w.db := filled
        cases inserted : ((w.fillExecution exec).2.spend .recordExecution).db.insertExecution
            (w.fillExecution exec).1 with
        | none => simp [same]
        | some db =>
            unfold Postgres.insertExecution at inserted
            split at inserted
            · cases inserted
              simp [same]
            · cases inserted
  · have quiet : op.row w = none := by
      unfold Op.row
      split
      · exact absurd ⟨_, rfl⟩ records
      · rfl
    rw [quiet, Option.toList_none, List.append_nil]
    refine perform_frame (fun w => w.db.executions) fun w w' change => ?_
    cases change with
    | record same inserted => exact absurd ⟨_, rfl⟩ records
    | insert inserted =>
        unfold Postgres.insertTask at inserted
        split at inserted
        · cases inserted
        · cases inserted
          rfl
    | _ => rfl

section Runs

variable [DecidableEq ι] {w : World Raw} {t : PipelinePool Raw ι}
  {h x y : List (PipelineStep Raw ι)} {e : PipelineStep Raw ι}

/-- The row that a step appends to `task_executions`. -/
def booked (e : PipelineStep Raw ι) : Option TaskExecution :=
  match e.label with
  | .act _ op => op.row e.pre.world
  | _ => none

/-- A worker made this call, after the steps `x`, and it agrees with the course of its call
so far. -/
def WrittenBy (json : Json Raw) (x : List (PipelineStep Raw ι)) (e : PipelineStep Raw ι)
    (op : Op Raw) (Agrees : Course → Worker → Task → Prop) : Prop :=
  ∃ i n worker msg task rest, e.label = .act i op ∧
    e.pre.threads i = some ⟨.consume n (.process worker msg), rest⟩ ∧
    json.unmarshal msg.value = some task ∧
    Agrees (course ((pipeline ι json).diary x i)) worker task

/-- The rows of `task_executions` are those that steps of the run appended. -/
theorem executions_run (unbooked : w.db.executions = [])
    (run : Trace (pipeline ι json).Step ⟨w, fun _ => none⟩ h t) :
    t.world.db.executions = h.filterMap booked := by
  refine run.history (I := fun x s => s.world.db.executions = x.filterMap booked) unbooked ?_
  intro x e y _ step before
  rw [List.filterMap_append, ← before]
  rcases step.world_cases with ⟨quiet, same⟩ | ⟨i, job, op, next, label, _, world⟩ |
    ⟨label, moved⟩
  · have silent : booked e = none := by
      unfold booked
      split
      · rename_i i op label
        exact absurd label (quiet i op)
      · rfl
    rw [List.filterMap_cons_none silent, same, List.filterMap_nil, List.append_nil]
  · have wrote : booked e = op.row e.pre.world := by
      unfold booked
      rw [label]
    have grown : e.post.world.db.executions = _ :=
      (congrArg (fun w : World Raw => w.db.executions) world).trans
        (perform_executions op e.pre.world)
    rw [grown]
    congr 1
    cases row : op.row e.pre.world with
    | none => rw [List.filterMap_cons_none (wrote.trans row)]; rfl
    | some exec => rw [List.filterMap_cons_some (wrote.trans row)]; rfl
  · have silent : booked e = none := by
      unfold booked
      rw [label]
    rw [List.filterMap_cons_none silent, List.filterMap_nil, List.append_nil]
    exact congrArg Postgres.executions (World.Drift.db moved)

/-- Every slot keeps its books as its program does. -/
theorem booked_at_call {i : ι} {job : Job Raw} {op : Op Raw}
    {next : op.Ans → Service Raw (Option Error)}
    (run : Trace (pipeline ι json).Step ⟨w, fun _ => none⟩ (x ++ e :: y) t)
    (here : e.pre.threads i = some ⟨job, .call op next⟩) :
    job.Books json ((pipeline ι json).diary x i) op :=
  System.kept_at_call (P := Job.Books json) (Q := fun _ _ _ => True) run
    (fun _ _ _ job _ => job.body_keeps) here

omit [DecidableEq ι] in
/-- A step that appends a row is a call of `RecordExecution`. -/
theorem booked_eq {row : TaskExecution} (wrote : booked e = some row) :
    ∃ i exec, e.label = .act i (.recordExecution exec) ∧
      (e.pre.world.fillExecution exec).1 = row := by
  unfold booked at wrote
  split at wrote
  · rename_i i op label
    cases op with
    | recordExecution exec =>
        dsimp only [Op.row] at wrote
        split at wrote
        · exact ⟨i, exec, label, Option.some.inj wrote⟩
        · cases wrote
    | _ => cases wrote
  · cases wrote

/-- A worker appended the row, and it agrees with the call of this worker. -/
theorem row_written {row : TaskExecution}
    (run : Trace (pipeline ι json).Step ⟨w, fun _ => none⟩ (x ++ e :: y) t)
    (wrote : booked e = some row) :
    ∃ exec, WrittenBy json x e (.recordExecution exec) fun course worker task =>
      course.Books worker task row := by
  obtain ⟨i, exec, label, rfl⟩ := booked_eq wrote
  obtain ⟨job, next, here⟩ : ∃ job next,
      e.pre.threads i = some ⟨job, .call (.recordExecution exec) next⟩ := by
    have step := run.split_cons.2.1
    rw [label] at step
    generalize e.post = after at step
    cases step with
    | act here => exact ⟨_, _, here⟩
  have books := booked_at_call run here
  cases job with
  | submit r => exact books.elim
  | consume n c =>
      cases c with
      | route d msg => exact books.elim
      | process worker msg =>
          obtain ⟨task, decodes, agrees⟩ := books
          obtain ⟨_, id, executedAt, filled⟩ := e.pre.world.fillExecution_eq exec
          refine ⟨exec, i, n, worker, msg, task, _, label, here, decodes, ?_⟩
          -- The defaults of the repository leave what the worker wrote.
          rw [filled]
          exact ⟨agrees.first, agrees.task, agrees.worker, agrees.attempts, agrees.verdict,
            agrees.timed⟩

/-- A worker wrote the copy in the run, and it agrees with the course of its call. -/
def CopyBooked (json : Json Raw) (h : List (PipelineStep Raw ι)) (copy : Task) : Prop :=
  ∃ x e y, h = x ++ e :: y ∧ WrittenBy json x e (.setTaskMeta copy) fun course worker task =>
    course.Copies worker task copy

theorem CopyBooked.snoc {copy : Task} (before : CopyBooked json h copy) :
    CopyBooked json (h ++ [e]) copy := by
  obtain ⟨x, e', y, rfl, written⟩ := before
  exact ⟨x, e', y ++ [e], by simp, written⟩

/-- A copy of finished work in the cache was written by a worker, and agrees with its call. -/
theorem copy_written (empty : w.Empty)
    (run : Trace (pipeline ι json).Step ⟨w, fun _ => none⟩ h t) {id : String} {copy : Task}
    (cached : t.world.redis.metas id = some copy) (terminal : copy.status.isTerminal = true) :
    CopyBooked json h copy := by
  refine run.history
    (I := fun z s => s.world.redis.metas id = some copy → CopyBooked json z copy)
    (fun found => ?_) (fun x e y whole step before found => ?_) cached
  · rw [empty.metas id] at found
    cases found
  · rcases step.world_cases with ⟨_, same⟩ | ⟨i, job, op, next, label, here, world⟩ | ⟨_, moved⟩
    · rw [same] at found
      exact (before found).snoc
    · rw [world] at found
      rcases perform_copy op e.pre.world id with kept | ⟨task, rfl, _, put⟩
      · exact (before (kept.symm.trans found)).snoc
      · cases Option.some.inj (put.symm.trans found)
        have books := booked_at_call (whole ▸ run) here
        cases job with
        | submit r =>
            -- A submission caches the task before anyone works on it.
            have pending : copy.status = .pending := books
            rw [pending] at terminal
            cases terminal
        | consume n c =>
            cases c with
            | route d msg => exact books.elim
            | process worker msg =>
                obtain ⟨sent, decodes, agrees⟩ := books
                exact ⟨x, e, [], rfl, i, n, worker, msg, sent, _, label, here, decodes, agrees⟩
    · exact (before (World.Drift.metas moved found)).snoc

/-- What `task_executions` and the cache say about finished work. -/
structure Accurate (json : Json Raw) (h : List (PipelineStep Raw ι)) (w : World Raw) : Prop where
  table : w.db.executions = h.filterMap booked
  rows : ∀ x e y row, h = x ++ e :: y → booked e = some row →
    ∃ exec, WrittenBy json x e (.recordExecution exec) fun course worker task =>
      course.Books worker task row
  copies : ∀ id copy, w.redis.metas id = some copy → copy.status.isTerminal = true →
    CopyBooked json h copy

/-- **The books are right.**  In every run of the pipeline from an empty deployment, with any
number of calls under way and under any faults: the rows of `task_executions` are those the
workers appended, in order; each names the task, the worker and as many attempts as the
handler ran in the one call that wrote it, with the verdict these came to and the time they
took; no call writes a second row; and every cached copy of a finished task agrees with the
handler runs of the call that wrote it. -/
theorem books_accurate (json : Json Raw) (w : World Raw) (empty : w.Empty)
    (unbooked : w.db.executions = []) (t : PipelinePool Raw ι) (h : List (PipelineStep Raw ι))
    (run : Trace (pipeline ι json).Step ⟨w, fun _ => none⟩ h t) : Accurate json h t.world where
  table := executions_run unbooked run
  rows _ _ _ _ whole wrote := row_written (whole ▸ run) wrote
  copies _ _ cached terminal := copy_written empty run cached terminal

end Runs

/-- An email is submitted, routed, and handled at the second attempt. -/
def retriedEmail : List (Move (World Task) Bool (Job Task)) :=
  submitAndRoute ⟨"email", [123, 125], 1, 0⟩ ++ takeEmail 17

theorem books_accurate_email :
    ((((pipeline Bool plainJson).final (undeployed flakyMail) retriedEmail).world.db.executions.map
      fun row => (row.attempt, row.status)) = [(2, .done)]) ∧
    Accurate plainJson ((pipeline Bool plainJson).play (undeployed flakyMail) retriedEmail)
      ((pipeline Bool plainJson).final (undeployed flakyMail) retriedEmail).world := by
  refine ⟨by decide, books_accurate plainJson _ (undeployed_empty flakyMail) rfl _ _ ?_⟩
  refine System.play_trace ?_ ?_
  · decide
  · simp [retriedEmail, submitAndRoute, takeEmail]

end TaskFlow
