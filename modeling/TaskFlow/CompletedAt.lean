import TaskFlow.Fallback
import TaskFlow.WholeCalls

/-!
# `completed_at` in the answers of `GetTaskStatus`

The status of an answer comes from one key of Redis, `completed_at` from another or from
Postgres.  `Dossier.Filed` is what makes them agree whichever of the keys have expired:
all three records are open and without a date, or all three are closed and dated.
Submissions and `route` calls leave a dossier open (`perform_filed`), and a
`processMessage` call that succeeds closes it (`Worker.process_filed`).  A call that
fails, or finds no handler, writes `DEAD` and leaves the cached copy without a date.
-/

namespace TaskFlow

open Effect

variable {Raw ι : Type} {json : Json Raw} {w : World Raw} {id : String} {closed : Bool}

/-! ## Answers -/

/-- The answer has a completion time and a duration exactly when its status is terminal.
A duration of 0 is left out of the answer. -/
def Gateway.TaskStatusResponse.Tracks (r : Gateway.TaskStatusResponse) : Prop :=
  (r.completedAt.isSome = true ↔ r.status.isTerminal = true) ∧
    (r.durationMs ≠ 0 ↔ r.status.isTerminal = true)

/-- The same of a gRPC answer, whose fields are 0 when they are not set. -/
def Gateway.GRPCStatusResponse.Tracks (r : Gateway.GRPCStatusResponse) : Prop :=
  (r.completedAt ≠ 0 ↔ r.status.isTerminal = true) ∧
    (r.durationMs ≠ 0 ↔ r.status.isTerminal = true)

/-- Every answer about the task tracks its completion. -/
structure World.AnswersTrack (w : World Raw) (id : String) : Prop where
  rest : ∀ r, (Service.run (Gateway.restGetTaskStatus id) w).1 = .ok r → r.Tracks
  grpc : ∀ r, (Service.run (Gateway.grpcGetTaskStatus id) w).1 = .ok r → r.Tracks

/-! ## Records -/

/-- A record that is closed and dated, or open and without a date. -/
structure Task.Dated (closed : Bool) (task : Task) : Prop where
  status : task.status.isTerminal = closed
  completed : task.completedAt.isSome = true ↔ closed = true
  stamped : task.completedAt.elim 0 unix ≠ 0 ↔ closed = true
  timed : Gateway.durationMs task ≠ 0 ↔ closed = true

theorem Task.dated_open {task : Task} (status : task.status.isTerminal = false)
    (completed : task.completedAt = none) : task.Dated false := by
  refine ⟨status, ?_, ?_, ?_⟩ <;> simp [completed, Gateway.durationMs]

/-- A completion time that shows in the answers: not in second 0 of Unix time, and at
least a millisecond off the creation. -/
def Task.Stamps (task : Task) (now : Time) : Prop :=
  unix now ≠ 0 ∧ (now - task.createdAt).tdiv 1000000 ≠ 0

instance (task : Task) (now : Time) : Decidable (task.Stamps now) :=
  inferInstanceAs (Decidable (_ ∧ _))

/-- A difference of at least a millisecond is one in 64 bits too. -/
theorem Time.sub_milliseconds {t u : Int} (apart : (t - u).tdiv 1000000 ≠ 0) :
    (Time.sub t u).tdiv 1000000 ≠ 0 := by
  unfold Time.sub
  generalize t - u = d at apart ⊢
  rcases Int.le_total 0 d with later | earlier
  · have nonneg : 0 ≤ max (-9223372036854775808) (min d 9223372036854775807) := by omega
    rw [Int.tdiv_eq_ediv_of_nonneg later] at apart
    rw [Int.tdiv_eq_ediv_of_nonneg nonneg]
    omega
  · have reversed : (-d).tdiv 1000000 ≠ 0 := by
      rw [Int.neg_tdiv]
      omega
    have nonneg : 0 ≤ -max (-9223372036854775808) (min d 9223372036854775807) := by omega
    suffices (-max (-9223372036854775808) (min d 9223372036854775807)).tdiv 1000000 ≠ 0 by
      rw [Int.neg_tdiv] at this
      omega
    rw [Int.tdiv_eq_ediv_of_nonneg (by omega)] at reversed
    rw [Int.tdiv_eq_ediv_of_nonneg nonneg]
    omega

theorem Task.dated_closed {task : Task} {now : Time} (status : task.status.isTerminal = true)
    (completed : task.completedAt = some now) (stamps : task.Stamps now) : task.Dated true := by
  refine ⟨status, ?_, ?_, ?_⟩
  · simp [completed]
  · simp [completed, stamps.1]
  · simp [completed, Gateway.durationMs, Time.sub_milliseconds stamps.2]

/-- All records of a task are closed and dated, or all are open and without a date. -/
structure Dossier.Filed (closed : Bool) (d : Dossier) : Prop where
  live : ∀ status, d.live = some status → status.isTerminal = closed
  cached : ∀ task, d.cached = some task → task.Dated closed
  row : ∀ task, d.row = some task → task.Dated closed

theorem Task.Dated.withLive {task : Task} {live : Option Status} (dated : task.Dated closed)
    (agrees : ∀ status, live = some status → status.isTerminal = closed) :
    (Gateway.withLive task live).Dated closed := by
  refine ⟨?_, dated.completed, dated.stamped, dated.timed⟩
  cases live with
  | none => exact dated.status
  | some status => exact agrees status rfl

theorem Dossier.Filed.lookup {found : Task} (filed : (w.dossier id).Filed closed) (up : w.StoresUp)
    (ok : (Service.run (Gateway.lookup id) w).1 = .ok found) : found.Dated closed := by
  cases cached : (w.dossier id).cached with
  | some copy =>
      rw [Gateway.lookup_cached up cached] at ok
      cases ok
      exact (filed.cached copy cached).withLive filed.live
  | none =>
      obtain ⟨row, held, rfl⟩ := Gateway.lookup_uncached up cached ok
      exact (filed.row row held).withLive filed.live

theorem Gateway.grpcGetTaskStatus_ok {response : GRPCStatusResponse}
    (ok : (Service.run (grpcGetTaskStatus id) w).1 = .ok response) :
    ∃ found, (Service.run (lookup id) w).1 = .ok found ∧ response = grpcStatusResponse found := by
  unfold grpcGetTaskStatus at ok
  split at ok
  · cases ok
  · simp only [Service.run, Prog.run_bind] at ok ⊢
    cases found : (Prog.run perform (lookup id) w).1 with
    | error failure =>
        rw [found] at ok
        cases ok
    | ok task =>
        rw [found] at ok
        cases ok
        exact ⟨task, rfl, rfl⟩

/-- Whichever keys have expired, the answers about a filed task track its completion. -/
theorem Dossier.Filed.answersTrack (filed : (w.dossier id).Filed closed) (up : w.StoresUp) :
    w.AnswersTrack id := by
  constructor
  · intro r ok
    obtain ⟨found, looked, rfl⟩ := Gateway.restGetTaskStatus_ok ok
    have dated := filed.lookup up looked
    have same : (Gateway.statusResponse found).status.isTerminal = closed := dated.status
    exact ⟨same ▸ dated.completed, same ▸ dated.timed⟩
  · intro r ok
    obtain ⟨found, looked, rfl⟩ := Gateway.grpcGetTaskStatus_ok ok
    have dated := filed.lookup up looked
    have same : (Gateway.grpcStatusResponse found).status.isTerminal = closed := dated.status
    exact ⟨same ▸ dated.stamped, same ▸ dated.timed⟩

/-! ## Calls that leave a task open -/

/-- The calls that give a task no terminal status and no date. -/
def Op.LeavesOpen : Op Raw → Prop
  | .setStatus _ status => status.isTerminal = false
  | .setTaskMeta task => task.Dated false
  | .create task => task.status.isTerminal = false
  | .updateStatus _ _ => False
  | _ => True

theorem perform_filed {op : Op Raw} (leaves : op.LeavesOpen)
    (filed : (w.dossier id).Filed false) : ((perform op w).2.dossier id).Filed false := by
  refine ⟨fun status after => ?_, fun task after => ?_, fun task after => ?_⟩
  · by_cases before : w.redis.state id = some status
    · exact filed.live status before
    · obtain rfl := perform_wrote before after
      exact leaves
  · rcases perform_copy op w id with same | ⟨copy, rfl, _, written⟩
    · exact filed.cached task (same.symm.trans after)
    · cases written.symm.trans after
      exact leaves
  · rcases perform_row op w id with same | ⟨new, rfl, _, inserted⟩ | ⟨_, _, _, _, rfl, _, _⟩
    · exact filed.row task (same.symm.trans after)
    · cases inserted.symm.trans after
      exact Task.dated_open leaves rfl
    · exact leaves.elim

theorem Submission.New.dated {task : Task} (new : Submission.New task) : task.Dated false :=
  Task.dated_open (new.pending ▸ rfl) new.unfinished

theorem Submission.Advance.leavesOpen {before after : Submission.Progress} {op : Op Raw}
    {answer : op.Ans} (advance : Submission.Advance json before op answer after) :
    op.LeavesOpen := by
  cases advance with
  | cache new => exact new.dated
  | cacheFails err new => exact new.dated
  | create answer new => exact new.dated.status
  | mark other => exact rfl
  | markFails other err => exact rfl
  | _ => trivial

theorem Dispatcher.route_filed (d : Dispatcher) (json : Json Raw) (msg : Message Raw)
    (filed : (w.dossier id).Filed false) :
    ((Service.run (d.route json msg) w).2.dossier id).Filed false := by
  refine (d.route_all json msg).run_invariant
    (I := fun w' : World Raw => (w'.dossier id).Filed false)
    (fun op w' routes before => ?_) filed
  refine perform_filed ?_ before
  cases op with
  | setStatus other status =>
      obtain rfl : status = .queued := routes
      exact rfl
  | publish _ _ _ _ | allow _ | count _ _ => trivial
  | _ => exact routes.elim

/-- A key that expires takes nothing away from the agreement of the others. -/
theorem Dossier.Filed.expireState (filed : (w.dossier id).Filed closed) (other : String) :
    ((w.putState other none).dossier id).Filed closed := by
  refine ⟨fun status after => ?_, filed.cached, filed.row⟩
  by_cases same : id = other
  · subst same
    cases (Function.update_self ..).symm.trans after
  · exact filed.live status ((Function.update_of_ne same ..).symm.trans after)

theorem Dossier.Filed.expireMeta (filed : (w.dossier id).Filed closed) (other : String) :
    ((w.putMeta other none).dossier id).Filed closed := by
  refine ⟨filed.live, fun task after => ?_, filed.row⟩
  by_cases same : id = other
  · subst same
    cases (Function.update_self ..).symm.trans after
  · exact filed.cached task ((Function.update_of_ne same ..).symm.trans after)

/-! ## Calls that close a task -/

/-- What a `processMessage` call needs to complete its task with a date: a handler, one
success among the attempts the task is entitled to, and readings of the clock that show in
the answers, for the cached copy and for the row if there is one. -/
structure Worker.Completes (worker : Worker) (task : Task) (w : World Raw) : Prop where
  handler : ∃ h, worker.registry.get task.type = .ok h
  success : ∃ i < worker.maxAttempts, w.script.outcome i = none
  copy : task.Stamps (w.script.clock 2)
  row : ∀ row, w.db.tasks task.id = some row →
    row.Stamps (updateReading (rest (rest w.script.clock)))

theorem Worker.process_filed {worker : Worker} {msg : Message Raw} {task : Task}
    (decodes : json.unmarshal msg.value = some task) (calm : w.StoresCalm)
    (filed : (w.dossier task.id).Filed false) (completes : worker.Completes task w) :
    ((Service.run (worker.processMessage json msg) w).2.dossier task.id).Filed true := by
  have unfinished : w.terminal task.id = false := by
    unfold World.terminal
    cases live : w.redis.state task.id with
    | none => rfl
    | some status => exact filed.live status live
  obtain ⟨h, registered⟩ := completes.handler
  obtain ⟨k, execErr, exec, succeeds, closes⟩ :=
    process_closes decodes calm unfinished registered
  obtain rfl := succeeds.mpr completes.success
  rw [closes]
  refine ⟨?_, ?_, ?_⟩
  · rintro _ ⟨⟩
    rfl
  · rintro _ ⟨⟩
    exact Task.dated_closed rfl rfl completes.copy
  · intro task' after
    obtain ⟨row, held, rfl⟩ := Option.map_eq_some_iff.mp after
    exact Task.dated_closed rfl rfl (completes.row row held)

/-- A consumer leaves the dossiers of other tasks alone. -/
theorem Consume.body_dossier (c : Consume Raw) (w : World Raw)
    (other : ¬ ∃ task, json.unmarshal c.message.value = some task ∧ task.id = id) :
    (Service.run (c.body json) w).2.dossier id = w.dossier id := by
  refine Service.run_dossier ((c.body_consumes json).mono fun op consumes => ?_) w
  exact fun writes => other (consumes.writes writes)

/-! ## Runs -/

section Runs

variable [DecidableEq ι] {s t : PipelinePool Raw ι} {out : List Nat}
  {l : Label (Op Raw) ι (Job Raw)}

/-- If the step is a `processMessage` call on the task, it completes it with a date. -/
def Timely (json : Json Raw) (id : String) (e : PipelineStep Raw ι) : Prop :=
  match e.label with
  | .start _ (.consume _ (.process worker msg)) => ∀ task,
      json.unmarshal msg.value = some task → task.id = id → worker.Completes task e.pre.world
  | _ => True

/-- The records of the task agree, and once they are closed its ticket is gone. -/
def OnFile (json : Json Raw) (id : String) (out : List Nat) (s : PipelinePool Raw ι) : Prop :=
  ∃ closed, (s.world.dossier id).Filed closed ∧ (closed = true → (tickets json out s).Spent id)

omit [DecidableEq ι] in
theorem OnFile.of_open (filed : (s.world.dossier id).Filed false) : OnFile json id out s :=
  ⟨false, filed, nofun⟩

omit [DecidableEq ι] in
/-- Whoever holds the ticket of a task finds it open. -/
theorem OnFile.open_of_held {p : ι ⊕ Nat} (file : OnFile json id out s)
    (held : (tickets json out s).held p = some id) : (s.world.dossier id).Filed false := by
  obtain ⟨closed, filed, spent⟩ := file
  cases closed with
  | false => exact filed
  | true => exact absurd held ((spent rfl).free p)

theorem OnFile.step (step : Whole json s l t) (settled : Settled json out s) (once : out.Nodup)
    (fresh : ∀ n ∈ hands ⟨s, l, t⟩, n ∉ out) (timely : Timely json id ⟨s, l, t⟩)
    (file : OnFile json id out s) : OnFile json id (out ++ (hands ⟨s, l, t⟩).toList) t := by
  obtain ⟨_, kept⟩ := step.settled fresh settled once
  have same : t.world.dossier id = s.world.dossier id →
      OnFile json id (out ++ (hands ⟨s, l, t⟩).toList) t := by
    intro unchanged
    obtain ⟨closed, filed, spent⟩ := file
    exact ⟨closed, unchanged ▸ filed, fun done => kept id (spent done)⟩
  cases step with
  | gateway taken own =>
      cases pipeline_step taken settled.ordered.shaped with
      | start idle delivered => exact same rfl
      | stop running => exact same rfl
      | drifts moved => exact own.elim
      | @consumes i n c op next here consumes => exact absurd here (settled.gateway i n c _)
      | @submits i r op next here advance =>
          by_cases writes : op.Writes id
          · have held : (tickets json out s).held (.inl i) = some id :=
              (tickets_slot here).trans (advance.writes writes)
            exact .of_open (perform_filed advance.leavesOpen (file.open_of_held held))
          · exact same (perform_dossier writes)
  | @call i n c idle delivered =>
      by_cases about : ∃ task, json.unmarshal c.message.value = some task ∧ task.id = id
      · obtain ⟨task, decodes, rfl⟩ := about
        have held : (tickets json out s).held (.inr n) = some task.id := by
          rw [tickets_delivered delivered (fresh n rfl), decodes]
          rfl
        have filed := file.open_of_held held
        cases c with
        | route d msg => exact .of_open (d.route_filed json msg filed)
        | process worker msg =>
            exact ⟨true, Worker.process_filed decodes settled.calm filed (timely task decodes rfl),
              fun _ => spent_of_process settled.ordered (fresh n rfl) delivered decodes⟩
      · exact same (c.body_dossier s.world about)
  | state other =>
      obtain ⟨closed, filed, spent⟩ := file
      exact ⟨closed, filed.expireState other, fun done => kept id (spent done)⟩
  | copy other =>
      obtain ⟨closed, filed, spent⟩ := file
      exact ⟨closed, filed.expireMeta other, fun done => kept id (spent done)⟩

/-! ## The way of one task -/

omit [DecidableEq ι] in
theorem OfGateway.hands {e : PipelineStep Raw ι} (own : OfGateway e.label) : hands e = none := by
  obtain ⟨s, l, t⟩ := e
  cases l with
  | start i job =>
      cases job with
      | submit r => rfl
      | consume n c => exact own.elim
  | _ => rfl

omit [DecidableEq ι] in
theorem OfGateway.timely {e : PipelineStep Raw ι} (own : OfGateway e.label) :
    Timely json id e := by
  obtain ⟨s, l, t⟩ := e
  cases l with
  | start i job =>
      cases job with
      | submit r => trivial
      | consume n c => exact own.elim
  | _ => trivial

/-- An idle slot may serve a submission alone. -/
theorem Whole.submission (json : Json Raw) (i : ι) (r : Submission) (idle : s.threads i = none) :
    ∃ h, Trace (Whole json) s h { s with world := (Service.run (r.submit json) s.world).2 } ∧
      ∀ e ∈ h, OfGateway e.label := by
  obtain ⟨first, h, ⟨world, threads⟩, run, ran, same, start, serves, _⟩ :=
    (pipeline ι json).serve i (.submit r) idle trivial
  have own : ∀ e ∈ first :: h, OfGateway e.label := by
    intro e member
    rcases List.mem_cons.mp member with rfl | later
    · rw [start]
      trivial
    · rcases serves e later with label | ⟨op, label⟩ <;> rw [label] <;> trivial
  have body : world = (Service.run (r.submit json) s.world).2 := by
    refine ran.trans ?_
    simp only [pipeline, Job.body, Service.run, Prog.run_bind, Prog.run_pure]
  cases body
  cases same
  exact ⟨first :: h, run.mono fun e member taken => .gateway taken (own e member), own⟩

/-- A task is submitted, routed and processed. -/
theorem Whole.way (json : Json Raw) (i : ι) (r : Submission) (d : Dispatcher) (worker : Worker)
    (pending queued : Message Raw) {w₁ w₂ : World Raw}
    (submitted : w₁ = (Service.run (r.submit json) w).2)
    (routed : w₂ = (Service.run (d.route json pending) w₁).2)
    (first : (Job.consume 0 (.route d pending)).Delivered w₁.kafka)
    (second : (Job.consume 1 (.process worker queued)).Delivered w₂.kafka) :
    ∃ h : List (PipelineStep Raw ι), Trace (Whole json) ⟨w, fun _ => none⟩ h
        ⟨(Service.run (worker.processMessage json queued) w₂).2, fun _ => none⟩ ∧
      (handedOut h).Nodup ∧ ∀ id, (∀ task, json.unmarshal queued.value = some task →
        task.id = id → worker.Completes task w₂) → ∀ e ∈ h, Timely json id e := by
  obtain ⟨h, run, own⟩ := Whole.submission (s := ⟨w, fun _ => none⟩) json i r rfl
  have route : Whole json ⟨w₁, fun _ => none⟩ (.start i (.consume 0 (.route d pending)))
      ⟨w₂, fun _ => none⟩ := routed ▸ .call rfl first
  have process : Whole json ⟨w₂, fun _ => none⟩ (.start i (.consume 1 (.process worker queued)))
      ⟨_, fun _ => none⟩ := .call rfl second
  rw [← submitted] at run
  refine ⟨_, (run.snoc route).snoc process, ?_, ?_⟩
  · have quiet : handedOut h = [] :=
      List.filterMap_eq_nil_iff.mpr fun e member => (own e member).hands
    rw [handedOut_concat, handedOut_concat, quiet]
    exact show [0, 1].Nodup by decide
  · intro id completes e member
    rcases List.mem_append.mp member with before | last
    · rcases List.mem_append.mp before with early | middle
      · exact (own e early).timely
      · rw [List.mem_singleton.mp middle]
        trivial
    · rw [List.mem_singleton.mp last]
      exact completes

/-! ## Every run -/

/-- A run from an empty deployment in which the stores work and each record is handed out
once. -/
structure WholeRun (json : Json Raw) (w : World Raw) (h : List (PipelineStep Raw ι))
    (t : PipelinePool Raw ι) : Prop where
  empty : w.Empty
  calm : w.StoresCalm
  distinct : Function.Injective w.script.uuid
  run : Trace (Whole json) ⟨w, fun _ => none⟩ h t
  once : (handedOut h).Nodup

theorem WholeRun.onFile {h : List (PipelineStep Raw ι)} (whole : WholeRun json w h t)
    (timely : ∀ e ∈ h, Timely json id e) :
    Settled json (handedOut h) t ∧ OnFile json id (handedOut h) t := by
  refine whole.run.history (I := fun x s' => Settled json (handedOut x) s' ∧
    OnFile json id (handedOut x) s') ⟨?_, ?_⟩ ?_
  · exact ⟨ordered_idle whole.empty whole.distinct, fun _ _ _ _ => nofun, whole.calm⟩
  · refine .of_open ⟨?_, ?_, ?_⟩
    · intro status live
      cases (whole.empty.state id).symm.trans live
    · intro task cached
      cases (whole.empty.metas id).symm.trans cached
    · intro task row
      cases (whole.empty.tasks id).symm.trans row
  · rintro x e y split step ⟨settled, file⟩
    have once := whole.once
    rw [split] at once
    have fresh : ∀ n ∈ hands e, n ∉ [] ++ handedOut x := handedOut_fresh once
    have before : (handedOut x).Nodup := by
      rw [handedOut, List.filterMap_append] at once
      exact (List.nodup_append.mp once).1
    rw [handedOut_concat]
    exact ⟨(step.settled fresh settled before).1, file.step step settled before fresh
      (timely e (split ▸ List.mem_append_right _ List.mem_cons_self))⟩

/-- **`completed_at` tracks terminality.**  Between the calls of the consumers, in every
run in which the stores work and each record is handed out once, whichever keys have
expired: the answers about a task carry a completion time and a duration exactly when its
status is terminal, as long as each `processMessage` call on the task completes it. -/
theorem completion_tracked {h : List (PipelineStep Raw ι)} (whole : WholeRun json w h t)
    (id : String) (timely : ∀ e ∈ h, Timely json id e) : t.world.AnswersTrack id := by
  obtain ⟨settled, closed, filed, _⟩ := whole.onFile timely
  exact filed.answersTrack settled.calm.up

end Runs

/-- The first task of a deployment, from an email request. -/
def firstEmail : Task := firstTask ⟨"email", [123, 125], 1, 0⟩

/-- An empty deployment that accepted its first email task. -/
def emailAccepted (script : Script) : World Task :=
  (Service.run ((Submission.grpc ⟨"email", [123, 125], 1, 0⟩).submit plainJson)
    (undeployed script).world).2

/-- The same when the task is routed. -/
def emailRouted (script : Script) : World Task :=
  (Service.run (Dispatcher.route ⟨false⟩ plainJson (pendingMessage plainJson firstEmail))
    (emailAccepted script)).2

/-- The same when the worker is done with the task. -/
def emailWorked (script : Script) : World Task :=
  (Service.run ((emailWorker 0).processMessage plainJson (workerMessage plainJson firstEmail))
    (emailRouted script)).2

theorem email_way (script : Script)
    (first : (Job.consume 0 (.route ⟨false⟩ (pendingMessage plainJson firstEmail))).Delivered
      (emailAccepted script).kafka)
    (second : (Job.consume 1 (.process (emailWorker 0)
      (workerMessage plainJson firstEmail))).Delivered (emailRouted script).kafka) :
    ∃ h : List (PipelineStep Task Unit),
      Trace (Whole plainJson) ⟨(undeployed script).world, fun _ => none⟩ h
        ⟨emailWorked script, fun _ => none⟩ ∧
      (handedOut h).Nodup ∧ ∀ id, (∀ task, some firstEmail = some task →
        task.id = id → (emailWorker 0).Completes task (emailRouted script)) →
        ∀ e ∈ h, Timely plainJson id e :=
  Whole.way plainJson () _ ⟨false⟩ (emailWorker 0) _ _ rfl rfl first second

/-- Every reading of the clock is a second later than the one before. -/
def ticking : Script := { Script.calm with clock := fun n => n * second }

theorem completion_tracked_email :
    (∃ r, (Service.run (Gateway.restGetTaskStatus "x") (emailWorked ticking)).1 = .ok r ∧
      r.status = .done) ∧ (emailWorked ticking).AnswersTrack "x" := by
  refine ⟨⟨_, rfl, rfl⟩, ?_⟩
  obtain ⟨h, run, once, timely⟩ := email_way ticking ⟨rfl, rfl⟩ ⟨rfl, rfl⟩
  refine completion_tracked ⟨undeployed_empty ticking, ⟨⟨rfl, fun _ => rfl, fun _ => rfl⟩,
    fun _ _ _ => rfl⟩, countedIDs_injective, run, once⟩ "x" (timely "x" ?_)
  rintro _ ⟨⟩ _
  refine ⟨⟨_, rfl⟩, ⟨0, by decide, rfl⟩, by decide, ?_⟩
  rintro _ ⟨⟩
  decide

/-- No handler call succeeds. -/
def failing : Script := { Script.calm with outcome := fun _ => some (.new "boom") }

/-- A task that is `DEAD` after its last attempt has no completion time. -/
theorem dead_without_completion :
    ¬ ∀ (w : World Task) (h : List (PipelineStep Task Unit)) (t : PipelinePool Task Unit),
      WholeRun plainJson w h t → ∀ id, t.world.AnswersTrack id := by
  intro allTrack
  obtain ⟨h, run, once, _⟩ := email_way failing ⟨rfl, rfl⟩ ⟨rfl, rfl⟩
  have tracks := allTrack _ h _ ⟨undeployed_empty failing, ⟨⟨rfl, fun _ => rfl, fun _ => rfl⟩,
    fun _ _ _ => rfl⟩, countedIDs_injective, run, once⟩ "x"
  obtain ⟨completed, _⟩ := tracks.rest _ rfl
  exact absurd (completed.mpr rfl) (by decide)

end TaskFlow
