import TaskFlow.Integrity
import TaskFlow.Settlement

/-!
# Every status has a cause

The status of a task is kept in three places, the live key, the cached copy and the row of
`tasks`, and dispatchers and workers write it late, more than once, out of order and after
crashes of others.  Still no status is there for nothing.  `QUEUED` comes after the task
was sent to the workers of its type, `RUNNING` after a worker found it unfinished,
`RETRYING` after a failed attempt, `DONE` after a successful one, `DEAD` after a failed one
or when the worker has no handler for the type, and `FAILED` is never written
(`caused_of_shows`).

The order within one call carries the argument: what a call must have been answered before
it writes a status is a property of its program (`Consume.body_causes`).
-/

namespace TaskFlow

open Effect

variable {Raw ι : Type} {json : Json Raw} {w : World Raw} {op : Op Raw} {id : String}
  {status : Status}

/-! ## Where a status shows -/

/-- The status shows in one of the places where it is kept. -/
def Dossier.Shows (d : Dossier) (status : Status) : Prop :=
  d.live = some status ∨ d.cached.map Task.status = some status ∨
    d.row.map Task.status = some status

/-- The call writes this status, if it writes one. -/
def Op.Marks (status : Status) : Op Raw → Prop
  | .setStatus _ written => written = status
  | .setTaskMeta task => task.status = status
  | .create task => task.status = status
  | .updateStatus _ written => written = status
  | _ => False

/-- A status that shows after a call was there before, or the call wrote it. -/
theorem perform_shows (shows : ((perform op w).2.dossier id).Shows status) :
    (w.dossier id).Shows status ∨ op.Writes id ∧ op.Marks status := by
  by_cases writes : op.Writes id
  · rcases shows with live | cached | row
    · by_cases before : w.redis.state id = some status
      · exact .inl (.inl before)
      · obtain rfl := perform_wrote before live
        exact .inr ⟨writes, rfl⟩
    · rcases perform_copy op w id with same | ⟨task, rfl, _, written⟩
      · exact .inl (.inr (.inl ((congrArg (Option.map Task.status) same).symm.trans cached)))
      · rw [show ((perform (.setTaskMeta task) w).2.dossier id).cached = some task from written]
          at cached
        exact .inr ⟨writes, Option.some.inj cached⟩
    · rcases perform_row op w id with same | ⟨task, rfl, _, inserted⟩ |
        ⟨other, written, old, now, rfl, _, updated⟩
      · exact .inl (.inr (.inr ((congrArg (Option.map Task.status) same).symm.trans row)))
      · rw [show ((perform (.create task) w).2.dossier id).row = _ from inserted] at row
        exact .inr ⟨writes, Option.some.inj row⟩
      · rw [show ((perform (.updateStatus other written) w).2.dossier id).row = _ from updated]
          at row
        exact .inr ⟨writes, Option.some.inj row⟩
  · rw [perform_dossier writes] at shows
    exact .inl shows

theorem World.Drift.shows {w' : World Raw} (drift : w.Drift w')
    (shows : (w'.dossier id).Shows status) : (w.dossier id).Shows status := by
  rcases shows with live | cached | row
  · refine .inl ?_
    cases drift with
    | copy other => exact live
    | context cancelled => exact live
    | state other =>
        by_cases same : id = other
        · subst same
          simp [World.dossier, World.putState] at live
        · simpa [World.dossier, World.putState, Function.update_of_ne same] using live
  · refine .inr (.inl ?_)
    obtain ⟨task, found, same⟩ := Option.map_eq_some_iff.mp cached
    exact Option.map_eq_some_iff.mpr ⟨task, drift.metas found, same⟩
  · refine .inr (.inr ?_)
    rw [← row]
    exact congrArg (fun db : Postgres => (db.tasks id).map Task.status) drift.db.symm

/-! ## What a call is answered before it writes a status -/

/-- A dispatcher has sent the task on before it writes `QUEUED`, a worker has found it
unfinished before it writes `RUNNING`, and tried it before it writes the others. -/
def Consume.Cause (json : Json Raw) (status : Status) :
    Consume Raw → (op : Op Raw) → op.Ans → Prop
  | .route _ msg, .publish topic key value _, answer => status = .queued ∧ answer = none ∧
      value = msg.value ∧ ∃ task, json.unmarshal msg.value = some task ∧
        topic = workerTopic task.type ∧ key = task.id
  | .process w msg, .getStatus id, answer => Worker.alreadyTerminal answer = false ∧
      ∃ task, json.unmarshal msg.value = some task ∧ task.id = id ∧
        (status = .running ∨ status = .dead ∧ ∃ err, w.registry.get task.type = .error err)
  | .process _ msg, .handle _ task, answer => json.unmarshal msg.value = some task ∧
      (answer = none ∧ status = .done ∨
        answer ≠ none ∧ (status = .retrying ∨ status = .dead))
  | _, _, _ => False

theorem Dispatcher.route_causes (d : Dispatcher) (json : Json Raw) (msg : Message Raw)
    (status : Status) :
    Prog.Until ((Consume.route d msg).Cause json status) (Op.Marks status) (fun _ => False)
      (d.route json msg) := by
  have toDLQ : Prog.Until ((Consume.route d msg).Cause json status) (Op.Marks status)
      (fun _ => False) (toDLQ msg.value) := ⟨id, fun _ => .inr id⟩
  have reject : Prog.Until ((Consume.route d msg).Cause json status) (Op.Marks status)
      (fun _ => False) (reject msg) := ⟨id, fun _ => .inr toDLQ⟩
  have forward : ∀ task, json.unmarshal msg.value = some task →
      Prog.Until ((Consume.route d msg).Cause json status) (Op.Marks status)
        (fun _ => False) (forward msg task) := by
    intro task decodes
    refine ⟨id, fun answer => ?_⟩
    cases answer with
    | some err => exact .inr id
    | none =>
        by_cases queued : status = .queued
        · exact .inl ⟨queued, rfl, rfl, task, decodes, rfl, rfl⟩
        · exact .inr ⟨fun marks => queued marks.symm, fun _ => .inr ⟨id, fun _ => .inr id⟩⟩
  unfold route
  split
  · exact reject
  · rename_i task decodes
    split
    · exact reject
    · split
      · refine ⟨id, fun allowed => .inr ?_⟩
        rcases allowed with err | (_ | _)
        · exact forward task decodes
        · exact ⟨id, fun _ => .inr ⟨id, fun _ => .inr toDLQ⟩⟩
        · exact forward task decodes
      · exact forward task decodes

namespace Worker

variable {worker : Worker} {msg : Message Raw} {task : Task} {h : Handler}

/-- The retry loop fails or succeeds only by an attempt that did. -/
theorem attemptsFrom_causes {number left attempts : Nat}
    (decodes : json.unmarshal msg.value = some task) :
    Prog.Until ((Consume.process worker msg).Cause json status) (Op.Marks status)
      (fun result => status = .done ∧ result.1 = none ∨ status = .dead ∧ result.1 ≠ none)
      (worker.attemptsFrom h task number left attempts) := by
  have succeeds : ∀ attempts : Nat,
      (Consume.process worker msg).Cause json status (.handle h task) none ∨
      ¬ (status = .done ∧ ((none : Option Error), attempts).1 = none ∨
        status = .dead ∧ ((none : Option Error), attempts).1 ≠ none) := by
    intro attempts
    by_cases done : status = .done
    · exact .inl ⟨decodes, .inl ⟨rfl, done⟩⟩
    · right
      rintro (⟨isDone, _⟩ | ⟨_, failed⟩)
      · exact done isDone
      · exact failed rfl
  induction left generalizing number attempts with
  | zero =>
      rw [attemptsFrom_zero]
      refine ⟨id, fun answer => ?_⟩
      cases answer with
      | none => exact succeeds _
      | some err =>
          by_cases dead : status = .dead
          · exact .inl ⟨decodes, .inr ⟨nofun, .inr dead⟩⟩
          · right
            rintro (⟨_, bad⟩ | ⟨isDead, _⟩)
            · cases bad
            · exact dead isDead
  | succ left ih =>
      rw [attemptsFrom_succ]
      refine ⟨id, fun answer => ?_⟩
      cases answer with
      | none => exact succeeds _
      | some err =>
          by_cases failed : status = .retrying ∨ status = .dead
          · exact .inl ⟨decodes, .inr ⟨nofun, failed⟩⟩
          · obtain ⟨notRetrying, notDead⟩ := not_or.mp failed
            refine .inr ⟨id, fun _ => .inr ⟨fun marks => notRetrying marks.symm, fun _ =>
              .inr ⟨id, fun answer => .inr ?_⟩⟩⟩
            cases answer with
            | none => exact ih
            | some ctxErr =>
                rintro (⟨_, bad⟩ | ⟨isDead, _⟩)
                · cases bad
                · exact notDead isDead

theorem record_quiet {copy : Task} {durationMs : Int} {error : String} {now : Time}
    (other : copy.status ≠ status) :
    Prog.All (fun op => ¬ op.Marks status)
      (worker.record copy durationMs error now : Service Raw Unit) := by
  rw [record_eq]
  exact ⟨other, fun _ => ⟨other, fun _ => ⟨id, fun _ => ⟨other, fun _ => trivial⟩⟩⟩⟩

/-- A call that ends writes `DONE` or `DEAD`, by its result. -/
theorem finish_quiet {start : Time} {execErr : Option Error} {attempts : Nat}
    (success : execErr = none → status ≠ .done) (failure : execErr ≠ none → status ≠ .dead) :
    Prog.All (fun op => ¬ op.Marks status)
      (worker.finish msg task start (execErr, attempts)) := by
  rw [finish_eq]
  refine ⟨id, fun stop => Prog.All.bind ?_ fun _ => ⟨id, fun _ => trivial⟩⟩
  cases execErr with
  | none =>
      rw [settle, finishSuccess_eq]
      exact ⟨id, fun now => Prog.All.bind (record_quiet (success rfl).symm) fun _ =>
        ⟨id, fun _ => trivial⟩⟩
  | some err =>
      have otherwise := failure (Option.some_ne_none err)
      rw [settle, finishFailure_eq]
      exact ⟨id, fun now => Prog.All.bind (record_quiet otherwise.symm) fun _ =>
        ⟨id, fun _ => ⟨id, fun _ => ⟨id, fun _ => trivial⟩⟩⟩⟩

theorem processTask_causes (decodes : json.unmarshal msg.value = some task) :
    Prog.Until ((Consume.process worker msg).Cause json status) (Op.Marks status)
      (fun _ => False) (worker.processTask msg task) := by
  rw [processTask_eq]
  refine ⟨id, fun answer => ?_⟩
  dsimp only
  split
  · exact .inr id
  · rename_i unfinished
    rw [Bool.not_eq_true] at unfinished
    unfold processNew
    split
    · rename_i err missing
      by_cases dead : status = .dead
      · exact .inl ⟨unfinished, task, decodes, rfl, .inr ⟨dead, err, missing⟩⟩
      · exact .inr ⟨fun marks => dead marks.symm, fun _ => .inr ⟨id, fun _ =>
          .inr ⟨id, fun _ => .inr id⟩⟩⟩
    · rename_i h found
      by_cases running : status = .running
      · exact .inl ⟨unfinished, task, decodes, rfl, .inl running⟩
      · rw [execute_eq]
        refine .inr ⟨fun marks => running marks.symm, fun answer => .inr ?_⟩
        cases answer with
        | some err => exact id
        | none =>
            rw [afterRunning_none]
            refine ⟨id, fun _ => .inr ⟨id, fun start => .inr ?_⟩⟩
            refine Prog.Until.bind (attemptsFrom_causes decodes) fun result uncaused => ?_
            obtain ⟨execErr, attempts⟩ := result
            obtain ⟨notDone, notDead⟩ := not_or.mp uncaused
            refine Prog.Until.of_all (finish_quiet ?_ ?_) fun _ => id
            · exact fun success done => notDone ⟨done, success⟩
            · exact fun failure dead => notDead ⟨dead, failure⟩

end Worker

/-- A consumer writes a status only after its cause. -/
theorem Consume.body_causes (json : Json Raw) (c : Consume Raw) (status : Status) :
    Prog.Until (c.Cause json status) (Op.Marks status) (fun _ => False) (c.body json) := by
  cases c with
  | route d msg => exact d.route_causes json msg status
  | process worker msg =>
      dsimp only [body]
      unfold Worker.processMessage
      cases decodes : json.unmarshal msg.value with
      | none => exact id
      | some task => exact Worker.processTask_causes decodes

/-! ## Causes in a run -/

/-- The task was sent to the workers of its type. -/
def SentOn (json : Json Raw) (h : List (PipelineStep Raw ι)) (id : String) : Prop :=
  ∃ e ∈ h, ∃ i task value origin,
    e.label = .act i (.publish (workerTopic task.type) task.id value origin) ∧
    json.unmarshal value = some task ∧ task.id = id ∧
    e.pre.world.fails .publish = false

/-- Such a worker, on a message of the task, asked for its status and did not find it
finished, as when the read fails. -/
def TakenUp (json : Json Raw) (h : List (PipelineStep Raw ι)) (id : String)
    (P : Worker → Task → Prop) : Prop :=
  ∃ e ∈ h, ∃ i n worker msg task rest, e.label = .act i (.getStatus id) ∧
    e.pre.threads i = some ⟨.consume n (.process worker msg), rest⟩ ∧
    Worker.alreadyTerminal (perform (.getStatus id) e.pre.world).1 = false ∧
    json.unmarshal msg.value = some task ∧ task.id = id ∧ P worker task

/-- A handler ran on the task and ended so. -/
def Attempted (h : List (PipelineStep Raw ι)) (id : String) (P : Option Error → Prop) : Prop :=
  ∃ e ∈ h, ∃ i handler task, e.label = .act i (.handle handler task) ∧ task.id = id ∧
    P (e.pre.world.script.outcome 0)

/-- What a status says about the past of its task. -/
def Caused (json : Json Raw) (h : List (PipelineStep Raw ι)) (id : String) : Status → Prop
  | .pending => ∃ content, Requested h id content
  | .queued => SentOn json h id
  | .running => TakenUp json h id fun _ _ => True
  | .retrying => Attempted h id (· ≠ none)
  | .done => Attempted h id (· = none)
  | .dead => Attempted h id (· ≠ none) ∨
      TakenUp json h id fun worker task => ∃ err, worker.registry.get task.type = .error err
  | .failed => False

variable {h x y : List (PipelineStep Raw ι)}

theorem SentOn.mono (sent : SentOn json x id) : SentOn json (x ++ y) id := by
  obtain ⟨e, member, made⟩ := sent
  exact ⟨e, List.mem_append_left _ member, made⟩

theorem TakenUp.mono {P : Worker → Task → Prop} (taken : TakenUp json x id P) :
    TakenUp json (x ++ y) id P := by
  obtain ⟨e, member, made⟩ := taken
  exact ⟨e, List.mem_append_left _ member, made⟩

theorem Attempted.mono {P : Option Error → Prop} (attempted : Attempted x id P) :
    Attempted (x ++ y) id P := by
  obtain ⟨e, member, made⟩ := attempted
  exact ⟨e, List.mem_append_left _ member, made⟩

theorem Caused.mono (caused : Caused json x id status) : Caused json (x ++ y) id status := by
  cases status with
  | pending =>
      obtain ⟨content, e, member, asked⟩ := caused
      exact ⟨content, e, List.mem_append_left _ member, asked⟩
  | queued => exact SentOn.mono caused
  | running => exact TakenUp.mono caused
  | retrying => exact Attempted.mono (P := (· ≠ none)) caused
  | done => exact Attempted.mono (P := (· = none)) caused
  | dead => exact caused.imp Attempted.mono TakenUp.mono
  | failed => exact caused

namespace Job

def Cause (json : Json Raw) (status : Status) : Job Raw → (op : Op Raw) → op.Ans → Prop
  | .submit _ => fun _ _ => False
  | .consume _ c => c.Cause json status

def Marks (status : Status) : Job Raw → Op Raw → Prop
  | .submit _ => fun _ => False
  | .consume _ _ => Op.Marks status

end Job

/-- A consumer whose program has passed the cause of a status has caused it. -/
theorem caused_of_passed {n : Nat} {c : Consume Raw}
    (passed : (pipeline ι json).Passed (Job.Cause json status) h (.consume n c))
    (about : c.About json id) : Caused json h id status := by
  obtain ⟨e, member, i, op, next, label, here, cause⟩ := passed
  obtain ⟨task, decodes, rfl⟩ := about
  cases c with
  | route d msg =>
      cases op with
      | publish topic key value origin =>
          obtain ⟨rfl, works, rfl, task', decodes', rfl, rfl⟩ := cause
          cases decodes.symm.trans decodes'
          exact ⟨e, member, i, task, _, origin, label, decodes, rfl, perform_publish_ok.mp works⟩
      | _ => exact cause.elim
  | process worker msg =>
      cases op with
      | getStatus other =>
          obtain ⟨unfinished, task', decodes', rfl, written⟩ := cause
          cases decodes.symm.trans decodes'
          have taken : ∀ P : Worker → Task → Prop, P worker task → TakenUp json h task.id P :=
            fun P holds => ⟨e, member, i, n, worker, msg, task, _, label, here, unfinished,
              decodes, rfl, holds⟩
          rcases written with rfl | ⟨rfl, missing⟩
          · exact taken _ trivial
          · exact .inr (taken _ missing)
      | handle handler copy =>
          obtain ⟨decodes', ended⟩ := cause
          cases decodes.symm.trans decodes'
          rcases ended with ⟨success, rfl⟩ | ⟨failure, rfl | rfl⟩
          · exact ⟨e, member, i, handler, task, label, rfl, success⟩
          · exact ⟨e, member, i, handler, task, label, rfl, failure⟩
          · exact .inl ⟨e, member, i, handler, task, label, rfl, failure⟩
      | _ => exact cause.elim

/-- A submission marks the task it carries, as `PENDING`. -/
theorem Submission.Submitting.marks {next : op.Ans → Service Raw (Option Error)}
    (submitting : Submitting json (.call op next)) (answer : op.Ans) (writes : op.Writes id)
    (marks : op.Marks status) :
    status = .pending ∧
      ∃ task, carried json (.call op next) = some task ∧ task.id = id := by
  have advance := (submitting.advance answer).2
  cases op with
  | setTaskMeta task => exact ⟨marks.symm.trans advance.caches.pending, task, rfl, writes⟩
  | create task => exact ⟨marks.symm.trans advance.creates.pending, task, rfl, writes⟩
  | setStatus other written =>
      obtain rfl : written = status := marks
      obtain rfl : other = id := writes
      refine ⟨advance.marks.2, ?_⟩
      generalize eq : Prog.call (Op.setStatus other written) next = p at submitting ⊢
      cases submitting with
      | drawing typed counts => cases eq
      | timing id typed counts => cases eq
      | @caching task answer' new ends =>
          rw [Gateway.enqueue_eq] at eq
          cases eq
      | @marking task answer' new ends =>
          cases eq
          exact ⟨task, rfl, rfl⟩
      | @creating task answer' new ends => cases eq
      | publishing new ends => cases eq
      | ended ends =>
          subst eq
          obtain ⟨⟨m, n, same⟩, _⟩ := ends
          cases same
  | updateStatus other written => cases advance
  | recordExecution exec => exact marks.elim
  | _ => exact writes.elim

section Runs

variable [DecidableEq ι] {t : PipelinePool Raw ι}

/-- **No status for nothing.**  In every run of the pipeline from an empty deployment,
under any faults, crashes, redeliveries and expiries, whatever status the live key, the
cached copy or the row of a task shows, what it says has happened to the task. -/
theorem caused_of_shows (empty : w.Empty) (idle : w.handled = [])
    (distinct : Function.Injective w.script.uuid)
    (run : Trace (pipeline ι json).Step ⟨w, fun _ => none⟩ h t) {id : String} {status : Status}
    (shows : (t.world.dossier id).Shows status) : Caused json h id status := by
  have bodies : ∀ status, ∀ e ∈ h, ∀ i job, e.label = .start i job →
      Prog.Until (Job.Cause json status job) (Job.Marks status job) (fun _ => False)
        ((pipeline ι json).body i job) := by
    intro status e _ i job _
    cases job with
    | submit r => exact Prog.Until.of_silent (fun _ => not_false) (fun _ => not_false) _
    | consume n c => exact c.body_causes json status
  revert id status
  refine run.history (I := fun x s => ∀ {id status}, (s.world.dossier id).Shows status →
    Caused json x id status) ?_ ?_
  · intro id status shows
    simp only [Dossier.Shows, World.dossier, empty.state id, empty.metas id, empty.tasks id,
      Option.map_none, reduceCtorEq, or_self] at shows
  · intro x e y eq step before id status shows
    subst eq
    have sourced := sourced_run empty idle distinct run.split_cons.1
    have known : (e.pre.world.dossier id).Shows status → Caused json (x ++ [e]) id status :=
      fun earlier => (before earlier).mono
    have happens := pipeline_step step sourced.lineage.shaped
    obtain ⟨pre, label, post⟩ := e
    dsimp only at happens shows
    cases happens with
    | start free delivered => exact known shows
    | stop running => exact known shows
    | drifts moved => exact known (moved.shows shows)
    | @submits i r op next here advance =>
        rcases perform_shows shows with earlier | ⟨writes, marks⟩
        · exact known earlier
        · have submitting : Submission.Submitting json (.call op next) :=
            sourced.lineage.shaped i _ here
          obtain ⟨rfl, task, carried, rfl⟩ :=
            submitting.marks (perform op pre.world).1 writes marks
          have holds : Holds json pre task.id task.content :=
            .inr ⟨i, r, task, ⟨_, here, carried⟩, rfl, rfl⟩
          exact Caused.mono ⟨_, sourced.requested task.id _ holds⟩
    | @consumes i n c op next here consumes =>
        rcases perform_shows shows with earlier | ⟨writes, marks⟩
        · exact known earlier
        · have passed := System.passed_of_call (Q := Job.Marks status)
            (G := fun _ _ => False) run (bodies status) here marks
          exact (caused_of_passed passed (consumes.writes writes)).mono

end Runs

end TaskFlow
