import TaskFlow.Leadership
import TaskFlow.Submission
import TaskFlow.WorkerTrace

/-!
# Deferred execution

`scheduled_at` travels with a task from the gateway to the handler, and no service looks
at it.  On one clock, a task is held back until it is due exactly when it is due already
at its submission (`deferred_iff`): time only moves forward, and a dispatcher and a
worker that are ready at once run the handler at the instant of the submission.
-/

namespace TaskFlow

open Effect

variable {Raw ι : Type} [DecidableEq ι] {json : Json Raw} {T : Time}

/-- Dispatchers and workers while time passes. -/
def clockedConsumers (ι : Type) (json : Json Raw) :
    System (Op Raw) Op.Ans (World Raw) ι (Consume Raw) (Option Error) :=
  { consumers json (fun _ _ _ => True) with Env := fun w w' => ∃ d, 0 ≤ d ∧ w' = w.elapse d }

/-- A call that reads the clock reads the time. -/
def OneClock (e : ConsumerStep Raw ι) : Prop :=
  ∀ i op, e.label = .act i op → op.readsClock = true →
    e.pre.world.script.clock 0 = e.pre.world.redis.time

/-- The step calls a handler on the task. -/
def RunsHandler (id : String) (e : ConsumerStep Raw ι) : Prop :=
  ∃ i h task, e.label = .act i (.handle h task) ∧ task.id = id

/-- The `scheduled_at` of a request that passes the validation. -/
def Submission.due (r : Submission) : Option Time := r.fields.bind SubmitTaskRequest.scheduledAt

/-- When the request is accepted at time `T`, no handler call for its task begins before
`due`, whatever the consumers do on that clock. -/
def Deferred (ι : Type) [DecidableEq ι] (json : Json Raw) (r : Submission) (T due : Time) : Prop :=
  ∀ w : World Raw, w.redis.time = T → w.script.clock 0 = T →
    (Service.run (r.submit json) w).1 = none →
    ∀ h t, Trace (clockedConsumers ι json).Step
        ⟨(Service.run (r.submit json) w).2, fun _ => none⟩ h t →
      (∀ e ∈ h, OneClock e) → ∀ e ∈ h, RunsHandler (w.script.uuid 0) e →
        due ≤ e.pre.world.redis.time

/-! ## Time moves forward -/

theorem Service.run_time {α : Type} (p : Service Raw α) (w : World Raw) :
    (Service.run p w).2.redis.time = w.redis.time := by
  induction p generalizing w with
  | pure value => rfl
  | call op next ih => exact (ih _ _).trans (perform_time op w)

theorem clocked_forward {s t : ConsumerPool Raw ι} {l : Label (Op Raw) ι (Consume Raw)}
    (step : (clockedConsumers ι json).Step s l t) (reached : T ≤ s.world.redis.time) :
    T ≤ t.world.redis.time := by
  refine step.world_invariant (I := fun w => T ≤ w.redis.time) (fun op w le => ?_) ?_ reached
  · exact (perform_time op w).symm ▸ le
  · rintro w _ ⟨d, forward, rfl⟩ le
    exact Int.le_trans le (Int.le_add_of_nonneg_right forward)

/-! ## A task that is taken up at once -/

/-- The clock stands at `T`. -/
def World.Stands (T : Time) (w : World Raw) : Prop :=
  w.redis.time = T ∧ ∀ n, w.script.clock n = T

theorem perform_stands (op : Op Raw) {w : World Raw} (stands : w.Stands T) :
    (perform op w).2.Stands T := by
  refine perform_keeps (fun w w' change stands => ?_) stands
  cases change with
  | clock => exact ⟨stands.1, fun n => stands.2 (n + 1)⟩
  | _ => exact stands

theorem Service.run_stands {α : Type} (p : Service Raw α) {w : World Raw} (stands : w.Stands T) :
    (Service.run p w).2.Stands T := by
  induction p generalizing w with
  | pure value => exact stands
  | call op next ih => exact ih _ (perform_stands op stands)

/-- Without a move of the surroundings the clock stands. -/
theorem clocked_stands {s t : ConsumerPool Raw ι} {l : Label (Op Raw) ι (Consume Raw)}
    (step : (clockedConsumers ι json).Step s l t) (inside : l ≠ .env)
    (stands : s.world.Stands T) : t.world.Stands T := by
  rcases step.world_cases with ⟨_, same⟩ | ⟨_, _, op, _, _, _, after⟩ | ⟨env, _⟩
  · rwa [same]
  · rw [after]
    exact perform_stands op stands
  · exact absurd env inside

/-- A dispatcher without a limiter sends a typed task on. -/
theorem Dispatcher.route_forwards {s : World Raw} {task : Task} (up : s.Up)
    (typed : task.type ≠ "") :
    (Service.run (Dispatcher.route ⟨false⟩ json (pendingMessage json task)) s).2.kafka =
      s.kafka ++ [⟨workerMessage json task, .dispatcher⟩] := by
  have decodes : json.unmarshal (pendingMessage json task).value = some task :=
    json.unmarshal_marshal task
  obtain ⟨sent, log⟩ := up.publish (workerTopic task.type) task.id
    (pendingMessage json task).value .dispatcher
  simp only [Service.run, route, decodes, if_neg typed, Bool.false_eq_true, if_false, forward, ask,
    Prog.op_bind, Prog.run_call, sent, Prog.run_pure]
  rw [perform_kafka (by simp), perform_kafka (by simp), log]
  rfl

/-- A worker with a handler for one type. -/
def Worker.forType (type : String) : Worker where
  registry := (Registry.mk fun _ => none).register ⟨type⟩
  workerID := "worker-1"
  workerType := type
  maxRetries := 3
  baseDelay := 1000000000

/-- An empty deployment at time `T`. -/
def World.standing (T : Time) : World Raw :=
  { World.fresh { Script.calm with clock := fun _ => T } with redis.time := T }

theorem standing_calm (T : Time) : (World.standing T : World Raw).Calm :=
  ⟨⟨rfl, fun _ => rfl, fun _ => rfl⟩, fun _ _ => rfl⟩

/-- What a request that passes leaves in an empty deployment. -/
theorem Submission.submitted (json : Json Raw) {r : Submission} {req : SubmitTaskRequest}
    (valid : r.fields = some req) (T : Time) :
    ∃ task : Task, task.id = (World.standing T : World Raw).script.uuid 0 ∧ task.type = req.type ∧
      (Service.run (r.submit json) (World.standing T)).1 = none ∧
      (Service.run (r.submit json) (World.standing T)).2.kafka =
        [⟨pendingMessage json task, .gateway⟩] ∧
      (Service.run (r.submit json) (World.standing T)).2.redis.state task.id = some .pending := by
  have up : (World.standing T : World Raw).Up := (standing_calm T).up
  have drawn : (World.standing T : World Raw).draw.tick.Up := ⟨up.reliable, up.live⟩
  obtain ⟨answer, counts, reports, eq⟩ := Submission.submit_eq json valid
  have log := Gateway.submit_kafka counts json req up
  have opens : Gateway.Opens _ (Gateway.newTask req _ _) _ :=
    Gateway.submit_opens counts up rfl log
  rw [eq]
  refine ⟨Gateway.newTask req _ _, rfl, rfl, ?_, log, congrArg Dossier.live opens.dossier⟩
  rw [Gateway.submit_eq, Gateway.enqueue_run json _ drawn]
  exact reports ..

/-- A worker runs the handler of a new task. -/
theorem Worker.processMessage_runs (json : Json Raw) {s : World Raw} {task : Task} (calm : s.Calm)
    (unfinished : s.terminal task.id = false) :
    ∃ h, .handle h task ∈ Service.calls
      ((Worker.forType task.type).processMessage json (workerMessage json task)) s := by
  have decodes : json.unmarshal (workerMessage json task).value = some task :=
    json.unmarshal_marshal task
  have unseen : alreadyTerminal (perform (.getStatus task.id) s).1 = false := by
    rw [alreadyTerminal_getStatus, unfinished, Bool.and_false]
  have found : (Worker.forType task.type).registry.get task.type = .ok ⟨task.type⟩ := by
    simp [Worker.forType, Registry.get, Registry.register]
  have read : (perform (.getStatus task.id) s).2.Calm := perform_calm calm
  have works : (perform (.getStatus task.id) s).2.fails .setStatus = false :=
    (read.reliable.fails _).trans read.live
  obtain ⟨_, k, executes⟩ := (Worker.forType task.type).execute_trace (workerMessage json task)
    task ⟨task.type⟩ works
  rw [processMessage_calls decodes unseen]
  simp only [processNew, found]
  have called : task ∈ (Service.calls ((Worker.forType task.type).execute (workerMessage json task)
      task ⟨task.type⟩) (perform (.getStatus task.id) s).2).filterMap Op.handled := by
    rw [executes.handled]
    exact List.mem_replicate.mpr ⟨Nat.ne_of_gt executes.pos, rfl⟩
  obtain ⟨op, listed, handled⟩ := List.mem_filterMap.mp called
  cases op with
  | handle h t =>
      cases handled
      exact ⟨h, List.mem_cons_of_mem _ listed⟩
  | _ => cases handled

/-- The handler may run at the instant of the submission. -/
theorem Submission.taken_at_once [Nonempty ι] (json : Json Raw) {r : Submission}
    {req : SubmitTaskRequest} (valid : r.fields = some req) (T : Time) :
    (Service.run (r.submit json) (World.standing T)).1 = none ∧
    ∃ h t, Trace (clockedConsumers ι json).Step
        ⟨(Service.run (r.submit json) (World.standing T)).2, fun _ => none⟩ h t ∧
      (∀ e ∈ h, OneClock e) ∧
      ∃ e ∈ h, RunsHandler ((World.standing T : World Raw).script.uuid 0) e ∧
        e.pre.world.redis.time = T := by
  obtain ⟨i⟩ := ‹Nonempty ι›
  obtain ⟨task, named, type, accepted, log, live⟩ := Submission.submitted json valid T
  have typed : task.type ≠ "" := type ▸ Submission.fields_typed valid
  generalize after : (Service.run (r.submit json) (World.standing T)).2 = w at log live ⊢
  have calm : w.Calm := after ▸ Service.run_calm (standing_calm T)
  have stands : w.Stands T := after ▸ Service.run_stands _ ⟨rfl, fun _ => rfl⟩
  -- The dispatcher routes the message.
  have here : (Consume.route ⟨false⟩ (pendingMessage json task)).Delivered w.kafka :=
    ⟨rfl, _, log ▸ List.mem_singleton_self _, rfl⟩
  obtain ⟨e₁, h₁, s₁, run₁, world₁, idle₁, start₁, serves₁, _⟩ := (clockedConsumers ι json).serve
    (s := ⟨w, fun _ => none⟩) i (.route ⟨false⟩ (pendingMessage json task)) rfl ⟨here, trivial⟩
  have log₁ : s₁.world.kafka = w.kafka ++ [⟨workerMessage json task, .dispatcher⟩] := by
    rw [world₁]
    exact Dispatcher.route_forwards calm.up typed
  have calm₁ : s₁.world.Calm := world₁ ▸ Service.run_calm calm
  have unfinished : s₁.world.terminal task.id = false := by
    obtain ⟨live₁, which, same⟩ :=
      Dispatcher.route_dossier ⟨false⟩ json (pendingMessage json task) w task.id
    rw [show (w.dossier task.id).live = some .pending from live] at which
    have now : (s₁.world.dossier task.id).live = live₁ := world₁ ▸ congrArg Dossier.live same
    rcases which with rfl | rfl
    · exact World.terminal_of_live now
    · exact World.terminal_of_live now
  -- The worker runs the handler.
  have there : (Consume.process (.forType task.type) (workerMessage json task)).Delivered
      s₁.world.kafka := ⟨rfl, _, log₁ ▸ List.mem_append_right _ (List.mem_singleton_self _), rfl⟩
  obtain ⟨hd, runs⟩ := Worker.processMessage_runs json calm₁ unfinished
  obtain ⟨e₂, h₂, s₂, run₂, _, _, start₂, serves₂, made⟩ := (clockedConsumers ι json).serve i
    (.process (.forType task.type) (workerMessage json task)) (by rw [idle₁]) ⟨there, trivial⟩
  obtain ⟨e, member, label⟩ := made _ runs
  have inside : ∀ e ∈ e₁ :: h₁ ++ e₂ :: h₂, e.label ≠ .env := fun e member =>
    (List.mem_append.mp member).elim (System.serve_inside start₁ serves₁ e)
      (System.serve_inside start₂ serves₂ e)
  have still : ∀ e ∈ e₁ :: h₁ ++ e₂ :: h₂, e.pre.world.Stands T :=
    (run₁.trans run₂).invariant_pre (I := fun s => s.world.Stands T) stands
      fun e member step => clocked_stands step (inside e member)
  have late : e ∈ e₁ :: h₁ ++ e₂ :: h₂ :=
    List.mem_append_right _ (List.mem_cons_of_mem _ member)
  refine ⟨accepted, _, s₂, run₁.trans run₂, fun e member i op _ _ => ?_, e, late,
    ⟨i, hd, task, label, named⟩, (still e late).1⟩
  exact ((still e member).2 0).trans (still e member).1.symm

/-- **Deferred execution.**  A request with a `scheduled_at` is held back until then in
every run exactly when it was due already at its submission. -/
theorem deferred_iff [Nonempty ι] (json : Json Raw) (r : Submission) (due T : Time)
    (scheduled : r.due = some due) : Deferred ι json r T due ↔ due ≤ T := by
  constructor
  · intro deferred
    obtain ⟨req, valid, _⟩ := Option.bind_eq_some_iff.mp scheduled
    obtain ⟨accepted, h, t, run, oneClock, e, member, runs, now⟩ :=
      Submission.taken_at_once (ι := ι) json valid T
    have held := deferred (World.standing T) rfl rfl accepted h t run oneClock e member runs
    rwa [now] at held
  · intro reached w time _ _ h t run _ e member _
    have start : T ≤ (Service.run (r.submit json) w).2.redis.time := by
      rw [Service.run_time, time]
    exact Int.le_trans reached (run.invariant_pre (I := fun s => T ≤ s.world.redis.time) start
      (fun e _ step => clocked_forward step) e member)

theorem deferred_past :
    Deferred Bool plainJson (.grpc ⟨"email", [123, 125], 1, 5⟩) (ofUnix 9) (ofUnix 5) :=
  (deferred_iff plainJson (.grpc ⟨"email", [123, 125], 1, 5⟩) (ofUnix 5) (ofUnix 9)
    (by decide)).mpr (by decide)

/-- A task submitted at the epoch for a thousand seconds later is handled at once. -/
theorem scheduled_runs_early :
    ¬ Deferred Bool plainJson (.grpc ⟨"email", [123, 125], 1, 1000⟩) (ofUnix 0)
      (ofUnix 1000) := by
  intro deferred
  obtain ⟨accepted, h, t, run, oneClock, e, member, runs, now⟩ :=
    Submission.taken_at_once (ι := Bool) plainJson
      (r := .grpc ⟨"email", [123, 125], 1, 1000⟩) rfl (ofUnix 0)
  have held := deferred _ rfl rfl accepted h t run oneClock e member runs
  rw [now] at held
  revert held
  decide

end TaskFlow
