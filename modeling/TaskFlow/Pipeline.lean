import TaskFlow.Scheduler
import TaskFlow.WorkerRun

/-!
# From a submission to the end of a task

What each service does to the dossier of one task when nothing fails: a submission
of the gateway opens it (`Gateway.enqueue_run`), the scheduler does not touch it,
the dispatcher marks it `QUEUED` (`Dispatcher.route_dossier`), and the worker closes
it (`Worker.process_dossier`) or, without a handler, marks it `DEAD`
(`Worker.reject_dossier`).  A `Journey` puts these together, with any activity on
other tasks in between.
-/

namespace TaskFlow

open Effect

variable {Raw α : Type} {json : Json Raw} {s : World Raw} {task : Task}

/-! ## The worker -/

namespace Worker

variable {w : Worker} {msg : Message Raw}

theorem processMessage_open (decodes : json.unmarshal msg.value = some task) (up : s.StoresUp)
    (unfinished : s.terminal task.id = false) :
    Service.run (w.processMessage json msg) s = Service.run (w.processNew msg task) s := by
  have unseen : alreadyTerminal (perform (.getStatus task.id) s).1 = false := by
    rw [alreadyTerminal_getStatus, unfinished, Bool.and_false]
  rw [processMessage_run decodes unseen, up.reliable.perform_getStatus]

/-- A task with a handler is closed, as a success exactly when one of the attempts it is
entitled to succeeds. -/
theorem process_closes {h : Handler} (decodes : json.unmarshal msg.value = some task)
    (calm : s.StoresCalm) (unfinished : s.terminal task.id = false)
    (registered : w.registry.get task.type = .ok h) :
    ∃ (k : Nat) (execErr : Option Error) (exec : TaskExecution),
      (execErr = none ↔ ∃ i < w.maxAttempts, s.script.outcome i = none) ∧
      (Service.run (w.processMessage json msg) s).2.dossier task.id =
        (s.dossier task.id).close
          (closing { task with attempts := ((k + 1 : Nat) : Int) } (s.script.clock 2) execErr)
          (updateReading (rest (rest s.script.clock))) exec := by
  rw [processMessage_open decodes calm.up unfinished]
  have works : s.fails .setStatus = false := calm.up.fails .setStatus nofun
  obtain ⟨start, run⟩ := execute_run w msg task h works
  have enter : (w.entered task s).StoresCalm :=
    perform_storesCalm (perform_storesCalm (perform_storesCalm calm))
  have loopUp : (Service.run (w.execAttempts h task) (w.entered task s)).2.StoresUp :=
    (Service.run_storesCalm enter).up
  obtain ⟨k, attempted, count, _⟩ := w.execAttempts_run h task (w.entered task s)
  obtain ⟨exec, closes⟩ := w.finish_dossier msg task start
    (Service.run (w.execAttempts h task) (w.entered task s)).1 loopUp
  refine ⟨k, (Service.run (w.execAttempts h task) (w.entered task s)).1.1, exec, ?_, ?_⟩
  · rw [attempted.nil_iff, attempted.success_iff loopUp.live, (w.entered_sameLog task s).outcome]
  · obtain ⟨live, entered⟩ := w.entered_dossier task s
    obtain ⟨live', looped⟩ := w.execAttempts_dossier h task (w.entered task s)
    have same : Service.run (w.processNew msg task) s = Service.run (w.execute msg task h) s := by
      simp only [processNew, registered]
    have clock : (Service.run (w.execAttempts h task) (w.entered task s)).2.script.clock =
        rest s.script.clock := (w.execAttempts_clock h task _).trans (w.entered_clock task s)
    rw [same, run, closes, looped, entered, clock, count]
    rfl

/-- A task with a handler is closed, after at least one attempt. -/
theorem process_dossier {h : Handler} (decodes : json.unmarshal msg.value = some task)
    (calm : s.Calm) (unfinished : s.terminal task.id = false)
    (registered : w.registry.get task.type = .ok h) :
    ∃ closed t exec, (closed : Task).status.isTerminal = true ∧ 1 ≤ closed.attempts ∧
      (Service.run (w.processMessage json msg) s).2.dossier task.id =
        (s.dossier task.id).close closed t exec := by
  obtain ⟨k, execErr, exec, _, closes⟩ := process_closes decodes calm.stores unfinished registered
  refine ⟨_, _, exec, closing_terminal .., ?_, closes⟩
  rw [closing_attempts]
  exact Int.ofNat_le.mpr (Nat.succ_pos k)

/-- A task without a handler is marked `DEAD` in the live status alone. -/
theorem reject_dossier {err : Error} (decodes : json.unmarshal msg.value = some task)
    (up : s.Up) (unfinished : s.terminal task.id = false)
    (unregistered : w.registry.get task.type = .error err) :
    (Service.run (w.processMessage json msg) s).2.dossier task.id =
      { s.dossier task.id with live := some .dead } := by
  rw [processMessage_open decodes up.stores unfinished,
    ← up.stores.setStatus_dossier task.id .dead]
  simp only [processNew, unregistered, noHandler, Service.run, ask, Prog.op_bind, Prog.run_call,
    Prog.run_pure, perform_count_dossier, perform_publish_dossier]

end Worker

/-! ## The dispatcher -/

/-- The dispatcher marks a task `QUEUED` or leaves its dossier alone. -/
theorem Dispatcher.route_dossier (d : Dispatcher) (json : Json Raw) (msg : Message Raw)
    (s : World Raw) (id : String) :
    ∃ live, (live = (s.dossier id).live ∨ live = some .queued) ∧
      (Service.run (d.route json msg) s).2.dossier id = { s.dossier id with live := live } := by
  refine (d.route_all json msg).run_invariant (I := fun s' : World Raw =>
      ∃ live, (live = (s.dossier id).live ∨ live = some .queued) ∧
        s'.dossier id = { s.dossier id with live := live })
    (fun op s' routes same => ?_) ⟨_, .inl rfl, rfl⟩
  obtain ⟨live, which, same⟩ := same
  by_cases writes : op.Writes id
  · cases op with
    | setStatus other status =>
        obtain rfl : other = id := writes
        obtain rfl : status = .queued := routes
        obtain ⟨live', kept | queued, written⟩ := perform_setStatus_dossier other .queued s'
        · rw [same] at kept
          exact ⟨live', kept ▸ which, written.trans (by rw [same])⟩
        · exact ⟨live', .inr queued, written.trans (by rw [same])⟩
    | _ => exact absurd writes (by first | exact routes.elim | exact not_false)
  · exact ⟨live, which, (perform_dossier writes).trans same⟩

/-! ## The submissions -/

/-- The message of a task on `tasks.pending`. -/
def pendingMessage (json : Json Raw) (task : Task) : Message Raw :=
  ⟨topicPending, task.id, json.marshal task⟩

theorem Json.marshal_injective (json : Json Raw) : Function.Injective json.marshal := by
  intro a b same
  have decoded := json.unmarshal_marshal a
  rw [same, json.unmarshal_marshal] at decoded
  exact (Option.some.inj decoded).symm

namespace Gateway

/-- The world when a submission has written to Redis. -/
def opened (task : Task) (s : World Raw) : World Raw :=
  (s.putMeta task.id (some task)).putState task.id (some .pending)

theorem enqueue_run (json : Json Raw) (task : Task) (up : s.Up) :
    Service.run (enqueue json task) s =
      (none, (perform (.publish topicPending task.id (json.marshal task) .gateway)
        (perform (.create task) (opened task s)).2).2) := by
  have cached : perform (.setTaskMeta task) s = (none, s.putMeta task.id (some task)) := by
    simp only [perform, World.setTaskMeta, up.attempt]
  have up₁ : (s.putMeta task.id (some task)).Up := ⟨up.reliable, up.live⟩
  have marked : perform (.setStatus task.id .pending) (s.putMeta task.id (some task)) =
      (none, opened task s) := by
    simp only [perform, World.setStatus, up₁.attempt]
    rfl
  have up₂ : (opened task s).Up := ⟨up.reliable, up.live⟩
  have up₃ := up₂.keep (.create task) (by simp) (by simp)
  simp only [Service.run, enqueue, ask, Prog.op_bind, Prog.run_call, cached, marked,
    (up₃.publish ..).1, Prog.run_pure]

/-- A submission sends its task to `tasks.pending`. -/
theorem enqueue_kafka (json : Json Raw) (task : Task) (up : s.Up) :
    (Service.run (enqueue json task) s).2.kafka =
      s.kafka ++ [⟨pendingMessage json task, .gateway⟩] := by
  have up₂ : (opened task s).Up := ⟨up.reliable, up.live⟩
  have up₃ : (perform (.create task) (opened task s)).2.Up := up₂.keep _ (by simp) (by simp)
  rw [enqueue_run json task up, (up₃.publish ..).2, perform_kafka (by simp)]
  rfl

/-- A submission opens the dossier of its task, with a row if the schema accepts it. -/
theorem enqueue_dossier (json : Json Raw) (up : s.Up) (unused : s.dossier task.id = .empty) :
    (Service.run (enqueue json task) s).2.dossier task.id =
      { live := some .pending, cached := some task,
        row := if s.db.accepts task then some { task with completedAt := none } else none,
        executions := [] } := by
  have up₂ : (opened task s).Up := ⟨up.reliable, up.live⟩
  obtain ⟨_, _, row, executions⟩ := Dossier.mk.inj unused
  have written : (opened task s).dossier task.id = ⟨some .pending, some task, none, []⟩ :=
    Dossier.ext (Function.update_self ..) (Function.update_self ..) row executions
  rw [enqueue_run json task up, perform_publish_dossier,
    up₂.stores.create_dossier (by rw [written]), written]
  show (if s.db.accepts task = true then _ else _) = _
  split <;> rfl

/-- What a submission that entered `tasks.pending` left behind. -/
structure Opens (s : World Raw) (task : Task) (s' : World Raw) : Prop where
  dossier : s'.dossier task.id =
    ⟨some .pending, some task, if s.db.accepts task then some task else none, []⟩
  pending : task.status = .pending
  attempts : task.attempts = 0

/-- An answer at most counts. -/
def Counts {β : Type} (answer : String → Time → Option Failure → Service Raw β) : Prop :=
  ∀ id now failed, Prog.All (fun op => ∃ m n, op = .count m n) (answer id now failed)

theorem restAnswer_counts (req : SubmitTaskRequest) :
    Counts (restAnswer req : String → Time → Option Failure → Service Raw _) := by
  intro id now failed
  cases failed with
  | none => exact ⟨⟨_, _, rfl⟩, fun _ => trivial⟩
  | some failure => trivial

theorem grpcAnswer_counts :
    Counts (grpcAnswer : String → Time → Option Failure → Service Raw _) := by
  intro id now failed
  cases failed <;> trivial

/-- Past the validation a submission is its enqueueing and the answer. -/
theorem submit_eq {β : Type} (answer : String → Time → Option Failure → Service Raw β)
    (json : Json Raw) (req : SubmitTaskRequest) (s : World Raw) :
    Service.run (submit json req answer) s =
      let enqueued := Service.run
        (enqueue json (newTask req (s.script.uuid 0) (s.script.clock 0))) s.draw.tick
      Service.run (answer (s.script.uuid 0) (s.script.clock 0) enqueued.1) enqueued.2 := by
  have named : Service.run (submit json req answer) s = Service.run
      (enqueue json (newTask req (s.script.uuid 0) (s.script.clock 0)) >>=
        answer (s.script.uuid 0) (s.script.clock 0)) s.draw.tick := rfl
  rw [named]
  exact Prog.run_bind ..

/-- An answer that counts leaves log and dossiers as the enqueueing left them. -/
theorem submit_run {β : Type} {answer : String → Time → Option Failure → Service Raw β}
    (counts : Counts answer) (json : Json Raw) (req : SubmitTaskRequest) (s : World Raw) :
    ∃ w', w' = (Service.run (enqueue json (newTask req (s.script.uuid 0) (s.script.clock 0)))
        s.draw.tick).2 ∧
      (Service.run (submit json req answer) s).2.kafka = w'.kafka ∧
      ∀ id, (Service.run (submit json req answer) s).2.dossier id = w'.dossier id := by
  refine ⟨_, rfl, ?_⟩
  rw [submit_eq]
  generalize Service.run (enqueue json (newTask req (s.script.uuid 0) (s.script.clock 0)))
    s.draw.tick = enqueued
  have quiet := counts (s.script.uuid 0) (s.script.clock 0) enqueued.1
  constructor
  · refine quiet.run_invariant (I := fun s' : World Raw => s'.kafka = enqueued.2.kafka) ?_ rfl
    rintro _ s' ⟨m, n, rfl⟩ same
    exact (perform_kafka (by simp)).trans same
  · intro id
    refine Service.run_dossier (quiet.mono ?_) enqueued.2
    rintro _ ⟨m, n, rfl⟩
    exact not_false

theorem submit_kafka {β : Type} {answer : String → Time → Option Failure → Service Raw β}
    (counts : Counts answer) (json : Json Raw) (req : SubmitTaskRequest) (up : s.Up) :
    (Service.run (submit json req answer) s).2.kafka = s.kafka ++
      [⟨pendingMessage json (newTask req (s.script.uuid 0) (s.script.clock 0)), .gateway⟩] := by
  have drawn : s.draw.tick.Up := ⟨up.reliable, up.live⟩
  obtain ⟨w', rfl, kafka, _⟩ := submit_run counts json req s
  rw [kafka, enqueue_kafka json _ drawn]
  rfl

/-- The part the two submissions share. -/
theorem submit_opens {β : Type} {origin : Origin} {req : SubmitTaskRequest}
    {answer : String → Time → Option Failure → Service Raw β} (counts : Counts answer)
    (up : s.Up) (unused : s.dossier task.id = .empty)
    (entered : (Service.run (submit json req answer) s).2.kafka =
      s.kafka ++ [⟨pendingMessage json task, origin⟩]) :
    Opens s task (Service.run (submit json req answer) s).2 := by
  have drawn : s.draw.tick.Up := ⟨up.reliable, up.live⟩
  -- The message determines the task.
  obtain rfl : newTask req (s.script.uuid 0) (s.script.clock 0) = task := by
    rw [submit_kafka counts json req up] at entered
    have same := List.singleton_inj.mp (List.append_cancel_left entered)
    exact json.marshal_injective (congrArg (fun r => r.message.value) same)
  obtain ⟨w', rfl, _, dossier⟩ := submit_run counts json req s
  refine ⟨?_, rfl, rfl⟩
  rw [dossier, enqueue_dossier json drawn unused]
  rfl

theorem restSubmitTask_opens {origin : Origin} {body : Option SubmitTaskRequest} (up : s.Up)
    (unused : s.dossier task.id = .empty)
    (entered : (Service.run (restSubmitTask json body) s).2.kafka =
      s.kafka ++ [⟨pendingMessage json task, origin⟩]) :
    Opens s task (Service.run (restSubmitTask json body) s).2 := by
  unfold restSubmitTask at entered ⊢
  cases body with
  | none => exact absurd entered (by simp [Service.run])
  | some req =>
      dsimp only at entered ⊢
      split at entered
      · exact absurd entered (by simp [Service.run])
      · split at entered
        · exact absurd entered (by simp [Service.run])
        · rename_i named filled
          rw [if_neg named, if_neg filled]
          exact submit_opens (restAnswer_counts req) up unused entered

theorem grpcSubmitTask_opens {origin : Origin} {req : GRPCRequest} (up : s.Up)
    (unused : s.dossier task.id = .empty)
    (entered : (Service.run (grpcSubmitTask json req) s).2.kafka =
      s.kafka ++ [⟨pendingMessage json task, origin⟩]) :
    Opens s task (Service.run (grpcSubmitTask json req) s).2 := by
  unfold grpcSubmitTask at entered ⊢
  split at entered
  · exact absurd entered (by simp [Service.run])
  · split at entered
    · exact absurd entered (by simp [Service.run])
    · rename_i named filled
      rw [if_neg named, if_neg filled]
      exact submit_opens grpcAnswer_counts up unused entered

end Gateway

/-- The scheduler writes to no dossier. -/
theorem Scheduler.runJob_dossier (cron : Cron) (json : Json Raw) (job : ScheduledJob)
    (s : World Raw) (id : String) :
    (Service.run (runJob cron json job) s).2.dossier id = s.dossier id := by
  have quiet : Prog.All (fun op => ¬ op.Writes id) (runJob cron json job) := by
    refine ⟨not_false, fun now => ⟨not_false, fun taskID => ⟨not_false, fun failed => ?_⟩⟩⟩
    dsimp only [afterPublish]
    cases failed with
    | some err => trivial
    | none =>
        dsimp only [reschedule]
        cases cron.parseStandard job.cronExpr with
        | error err => trivial
        | ok schedule => exact ⟨not_false, fun _ => trivial⟩
  exact Service.run_dossier quiet s

/-! ## The way of a task -/

/-- How a task enters `tasks.pending`. -/
inductive Source : Type
  | rest (body : Option SubmitTaskRequest)
  | grpc (req : Gateway.GRPCRequest)
  | scheduler (job : ScheduledJob)

/-- The call that brings the task in. -/
def Source.submit (cron : Cron) (json : Json Raw) : Source → Service Raw Unit
  | .rest body => do
      let _ ← Gateway.restSubmitTask json body
  | .grpc req => do
      let _ ← Gateway.grpcSubmitTask json req
  | .scheduler job => do
      let _ ← Scheduler.runJob cron json job

/-- The task comes from one of the two `SubmitTask`s. -/
def Source.viaGateway : Source → Bool
  | .scheduler _ => false
  | _ => true

/-- The message of a task on the topic of its worker. -/
def workerMessage (json : Json Raw) (task : Task) : Message Raw :=
  ⟨workerTopic task.type, task.id, json.marshal task⟩

/-- Whatever happened from `w` to `w'` did not concern the task, and nothing fails. -/
structure Elsewhere (id : String) (w w' : World Raw) : Prop where
  calm : w'.Calm
  same : w'.dossier id = w.dossier id

/-- A new task is brought in at `w₀`, taken up by the dispatcher at `w₁` and by the
worker at `w₂`. -/
structure Journey (cron : Cron) (json : Json Raw) (source : Source) (d : Dispatcher) (task : Task)
    (w₀ w₁ w₂ : World Raw) : Prop where
  calm : w₀.Calm
  unused : w₀.dossier task.id = .empty
  entered : ∃ origin, (Service.run (source.submit cron json) w₀).2.kafka =
    w₀.kafka ++ [⟨pendingMessage json task, origin⟩]
  submitted : Elsewhere task.id (Service.run (source.submit cron json) w₀).2 w₁
  routed : Elsewhere task.id (Service.run (d.route json (pendingMessage json task)) w₁).2 w₂

/-- The world when the worker has finished the task. -/
def Worker.finished (worker : Worker) (json : Json Raw) (task : Task) (w : World Raw) :
    World Raw :=
  (Service.run (worker.processMessage json (workerMessage json task)) w).2

variable {cron : Cron} {source : Source} {d : Dispatcher} {w₀ w₁ w₂ : World Raw}

theorem Source.submit_rest (body : Option SubmitTaskRequest) (s : World Raw) :
    (Service.run ((Source.rest body).submit cron json) s).2 =
      (Service.run (Gateway.restSubmitTask json body) s).2 := by
  simp only [Service.run, Source.submit, Prog.run_bind, Prog.run_pure]

theorem Source.submit_grpc (req : Gateway.GRPCRequest) (s : World Raw) :
    (Service.run ((Source.grpc req).submit cron json) s).2 =
      (Service.run (Gateway.grpcSubmitTask json req) s).2 := by
  simp only [Service.run, Source.submit, Prog.run_bind, Prog.run_pure]

theorem Source.submit_scheduler (job : ScheduledJob) (s : World Raw) :
    (Service.run ((Source.scheduler job).submit cron json) s).2 =
      (Service.run (Scheduler.runJob cron json job) s).2 := by
  simp only [Service.run, Source.submit, Prog.run_bind, Prog.run_pure]

theorem Source.submit_opens {origin : Origin} (gateway : source.viaGateway = true) (up : s.Up)
    (unused : s.dossier task.id = .empty)
    (entered : (Service.run (source.submit cron json) s).2.kafka =
      s.kafka ++ [⟨pendingMessage json task, origin⟩]) :
    Gateway.Opens s task (Service.run (source.submit cron json) s).2 := by
  cases source with
  | rest body =>
      rw [Source.submit_rest] at entered ⊢
      exact Gateway.restSubmitTask_opens up unused entered
  | grpc req =>
      rw [Source.submit_grpc] at entered ⊢
      exact Gateway.grpcSubmitTask_opens up unused entered
  | scheduler job => cases gateway

namespace Journey

/-- A task that is taken up at once. -/
theorem direct (d : Dispatcher) (calm : w₀.Calm) (unused : w₀.dossier task.id = .empty)
    (entered : ∃ origin, (Service.run (source.submit cron json) w₀).2.kafka =
      w₀.kafka ++ [⟨pendingMessage json task, origin⟩]) :
    Journey cron json source d task w₀ (Service.run (source.submit cron json) w₀).2
      (Service.run (d.route json (pendingMessage json task))
        (Service.run (source.submit cron json) w₀).2).2 where
  calm := calm
  unused := unused
  entered := entered
  submitted := ⟨Service.run_calm calm, rfl⟩
  routed := ⟨Service.run_calm (Service.run_calm calm), rfl⟩

/-- The dispatcher changes nothing but the live status. -/
theorem dispatched (journey : Journey cron json source d task w₀ w₁ w₂) {opening : Dossier}
    (submitted : (Service.run (source.submit cron json) w₀).2.dossier task.id = opening) :
    ∃ live, (live = opening.live ∨ live = some .queued) ∧
      w₂.dossier task.id = { opening with live := live } := by
  obtain ⟨live, which, queued⟩ := d.route_dossier json (pendingMessage json task) w₁ task.id
  rw [journey.submitted.same, submitted] at which queued
  exact ⟨live, which, journey.routed.same.trans queued⟩

/-- What the worker finds about a task of the gateway. -/
theorem arrives (journey : Journey cron json source d task w₀ w₁ w₂)
    (gateway : source.viaGateway = true) :
    task.status = .pending ∧ task.attempts = 0 ∧ ∃ live,
      (live = some .pending ∨ live = some .queued) ∧ w₂.dossier task.id =
        ⟨live, some task, if w₀.db.accepts task then some task else none, []⟩ := by
  obtain ⟨origin, entered⟩ := journey.entered
  have opens := Source.submit_opens gateway journey.calm.up journey.unused entered
  exact ⟨opens.pending, opens.attempts, journey.dispatched opens.dossier⟩

/-- What the worker finds about a task of the scheduler. -/
theorem arrives_scheduled (journey : Journey cron json source d task w₀ w₁ w₂)
    (scheduled : source.viaGateway = false) :
    ∃ live, (live = none ∨ live = some .queued) ∧ w₂.dossier task.id = ⟨live, none, none, []⟩ := by
  cases source with
  | rest body => cases scheduled
  | grpc req => cases scheduled
  | scheduler job =>
      have untouched : (Service.run ((Source.scheduler job).submit cron json) w₀).2.dossier
          task.id = .empty := by
        rw [Source.submit_scheduler, Scheduler.runJob_dossier]
        exact journey.unused
      exact journey.dispatched untouched

theorem unfinished (journey : Journey cron json source d task w₀ w₁ w₂) :
    w₂.terminal task.id = false := by
  have live : w₂.redis.state task.id = none ∨ w₂.redis.state task.id = some .pending ∨
      w₂.redis.state task.id = some .queued := by
    cases gateway : source.viaGateway with
    | true =>
        obtain ⟨_, _, live, which, dossier⟩ := journey.arrives gateway
        rw [show w₂.redis.state task.id = live from congrArg Dossier.live dossier]
        exact .inr which
    | false =>
        obtain ⟨live, which, dossier⟩ := journey.arrives_scheduled gateway
        rw [show w₂.redis.state task.id = live from congrArg Dossier.live dossier]
        exact which.imp id .inr
  unfold World.terminal
  rcases live with eq | eq | eq <;> rw [eq] <;> rfl

/-- A task with a handler is closed by the worker. -/
theorem closes {worker : Worker} {h : Handler}
    (journey : Journey cron json source d task w₀ w₁ w₂)
    (registered : worker.registry.get task.type = .ok h) :
    ∃ closed t exec, (closed : Task).status.isTerminal = true ∧ 1 ≤ closed.attempts ∧
      (worker.finished json task w₂).dossier task.id =
        (w₂.dossier task.id).close closed t exec := by
  have decodes : json.unmarshal (workerMessage json task).value = some task :=
    json.unmarshal_marshal task
  exact Worker.process_dossier decodes journey.routed.calm journey.unfinished registered

/-- A task without a handler is marked in the live status alone. -/
theorem rejected {worker : Worker} {err : Error}
    (journey : Journey cron json source d task w₀ w₁ w₂)
    (unregistered : worker.registry.get task.type = .error err) :
    (worker.finished json task w₂).dossier task.id =
      { w₂.dossier task.id with live := some .dead } := by
  have decodes : json.unmarshal (workerMessage json task).value = some task :=
    json.unmarshal_marshal task
  exact Worker.reject_dossier decodes journey.routed.calm.up journey.unfinished unregistered

end Journey

/-! ## A deployment -/

/-- An empty deployment whose next task is `task-1`. -/
def deployment : World Task :=
  { World.fresh { Script.calm with uuid := fun _ => "task-1" } with
    db.acceptsJSON := fun payload => payload == [123, 125] }

theorem deployment_calm : deployment.Calm := ⟨⟨rfl, fun _ => rfl, fun _ => rfl⟩, fun _ _ => rfl⟩

/-- The task `task-1` of a gRPC request. -/
def grpcTask (req : Gateway.GRPCRequest) : Task := Gateway.newTask req.fields "task-1" 0

/-- The deployment when the worker takes up the task of a source. -/
def arrival (source : Source) (task : Task) : World Task :=
  (Service.run (Dispatcher.route ⟨false⟩ plainJson (pendingMessage plainJson task))
    (Service.run (source.submit minuteCron plainJson) deployment).2).2

theorem grpc_journey (req : Gateway.GRPCRequest) (named : req.type ≠ "")
    (filled : req.payload ≠ []) :
    Journey minuteCron plainJson (.grpc req) ⟨false⟩ (grpcTask req) deployment
      (Service.run ((Source.grpc req).submit minuteCron plainJson) deployment).2
      (arrival (.grpc req) (grpcTask req)) := by
  refine Journey.direct ⟨false⟩ deployment_calm rfl ⟨.gateway, ?_⟩
  rw [Source.submit_grpc]
  unfold Gateway.grpcSubmitTask
  rw [if_neg named, if_neg filled]
  exact Gateway.submit_kafka Gateway.grpcAnswer_counts plainJson req.fields deployment_calm.up

end TaskFlow
