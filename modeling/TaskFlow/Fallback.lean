import TaskFlow.Pipeline

/-!
# Status lookups with and without the cache

`GetTaskStatus` answers from the cached copy and the live status, or, once both keys
have expired, from the row of `tasks`.  The worker updates the two sides with
different functions and the answers never agree (`fallback_disagrees`): a finished
task with a handler has attempts in the cache and none in its row, and one without
a handler is `DEAD` in Redis and `PENDING` in its row.
-/

namespace TaskFlow

open Effect

variable {Raw : Type} {cron : Cron} {json : Json Raw} {source : Source} {d : Dispatcher}
  {worker : Worker} {task : Task} {w w₀ w₁ w₂ : World Raw} {id : String}

/-- The world when both keys of a task have expired. -/
def World.expire (w : World Raw) (id : String) : World Raw :=
  (w.putState id none).putMeta id none

theorem World.expire_dossier (w : World Raw) (id : String) :
    (w.expire id).dossier id = ⟨none, none, (w.dossier id).row, (w.dossier id).executions⟩ :=
  Dossier.ext (Function.update_self ..) (Function.update_self ..) rfl rfl

namespace Gateway

/-- The live status replaces the one of the record found. -/
def withLive (found : Task) (live : Option Status) : Task :=
  { found with status := live.getD found.status }

theorem getStatus_run (up : w.StoresUp) (id : String) :
    perform (.getStatus id) w = (match (w.dossier id).live with
      | none => .error (.taskNotFound id)
      | some status => .ok status, w) := by
  simp only [perform, World.getStatus, up.attempt .getStatus (by decide)]
  rfl

/-- The lookup when the record is cached. -/
theorem lookup_cached {found : Task} (up : w.StoresUp)
    (cached : (w.dossier id).cached = some found) :
    (Service.run (lookup id) w).1 = .ok (withLive found (w.dossier id).live) := by
  have first : perform (.getTaskMeta id) w = (.ok found, w) := by
    simp only [perform, World.getTaskMeta, up.attempt .getTaskMeta (by decide)]
    rw [show w.redis.metas id = some found from cached]
  simp only [Service.run, lookup, find, ask, Prog.op_bind, Prog.run_bind, Prog.run_call, first,
    Prog.run_pure, getStatus_run up]
  cases (w.dossier id).live <;> rfl

/-- What the lookup answers when the record is not cached. -/
def missed (w : World Raw) (id : String) : Except Failure Task :=
  if w.db.acceptsUUID id then
    (w.dossier id).row.elim (.error (.notFound "task not found"))
      fun row => .ok (withLive row (w.dossier id).live)
  else .error (.internal "failed to retrieve task")

theorem lookup_missed (up : w.StoresUp) (cached : (w.dossier id).cached = none) :
    (Service.run (lookup id) w).1 = missed w id := by
  have first : perform (.getTaskMeta id) w = (.error (.taskNotFound id), w) := by
    simp only [perform, World.getTaskMeta, up.attempt .getTaskMeta (by decide)]
    rw [show w.redis.metas id = none from cached]
  have third : perform (.getByID id) w = (if w.db.acceptsUUID id then
      (w.dossier id).row.elim (.error (.taskNotFound "unknown")) .ok
    else .error (.wrap "scan task" (.new "invalid input syntax for type uuid")), w) := by
    simp only [perform, World.getByID, up.attempt .getByID (by decide)]
    cases held : w.db.tasks id <;> simp only [World.dossier, held, Option.elim]
  simp only [Service.run, lookup, find, ask, Prog.op_bind, Prog.run_bind, Prog.run_call, first,
    Error.isNotFound, if_true, third, missed]
  cases w.db.acceptsUUID id with
  | false => rfl
  | true =>
      cases (w.dossier id).row with
      | none => rfl
      | some row =>
          simp only [if_true, Option.elim, Prog.run_pure, Prog.run_call, getStatus_run up]
          cases (w.dossier id).live <;> rfl

/-- The lookup when the record is not cached reports the row. -/
theorem lookup_uncached {found : Task} (up : w.StoresUp) (cached : (w.dossier id).cached = none)
    (ok : (Service.run (lookup id) w).1 = .ok found) :
    ∃ row, (w.dossier id).row = some row ∧ found = withLive row (w.dossier id).live := by
  rw [lookup_missed up cached, missed] at ok
  split at ok
  · cases held : (w.dossier id).row with
    | none =>
        rw [held] at ok
        cases ok
    | some row =>
        rw [held] at ok
        cases ok
        exact ⟨row, rfl, rfl⟩
  · cases ok

/-- The lookup when both keys are gone. -/
theorem lookup_expired {found : Task} (up : w.Up) (cached : (w.dossier id).cached = none)
    (live : (w.dossier id).live = none) (ok : (Service.run (lookup id) w).1 = .ok found) :
    (w.dossier id).row = some found := by
  obtain ⟨row, held, same⟩ := lookup_uncached up.stores cached ok
  rw [held, same, live]
  rfl

end Gateway

/-- Two responses agree on what the caller sees of the task. -/
def Gateway.TaskStatusResponse.Agrees (a b : Gateway.TaskStatusResponse) : Prop :=
  a.type = b.type ∧ a.status = b.status ∧ a.priority = b.priority ∧ a.attempts = b.attempts ∧
    a.createdAt = b.createdAt ∧ a.completedAt.isSome = b.completedAt.isSome

/-- A lookup with the keys and one after they expired both succeed and agree. -/
def World.FallbackAgrees (w : World Raw) (id : String) : Prop :=
  ∃ fast slow : Gateway.TaskStatusResponse,
    (Service.run (Gateway.restGetTaskStatus id) w).1 = .ok fast ∧
    (Service.run (Gateway.restGetTaskStatus id) (w.expire id)).1 = .ok slow ∧ fast.Agrees slow

theorem Gateway.restGetTaskStatus_ok {response : TaskStatusResponse}
    (ok : (Service.run (restGetTaskStatus id) w).1 = .ok response) :
    ∃ found, (Service.run (lookup id) w).1 = .ok found ∧ response = statusResponse found := by
  unfold restGetTaskStatus at ok
  split at ok
  · cases ok
  · simp only [Service.run, Prog.run_bind] at ok ⊢
    cases found : (Prog.run perform (lookup id) w).1 with
    | error failure =>
        rw [found] at ok
        cases ok
    | ok task =>
        rw [found] at ok
        cases ok
        exact ⟨task, rfl, rfl⟩

/-- When the two lookups agree, so do the cached copy and the row. -/
theorem World.FallbackAgrees.records {cached : Task} (agrees : w.FallbackAgrees id) (up : w.Up)
    (held : (w.dossier id).cached = some cached) :
    ∃ row, (w.dossier id).row = some row ∧ (w.dossier id).live.getD cached.status = row.status ∧
      cached.attempts = row.attempts := by
  obtain ⟨fast, slow, fastOk, slowOk, same⟩ := agrees
  obtain ⟨found, hit, rfl⟩ := Gateway.restGetTaskStatus_ok fastOk
  obtain ⟨row, miss, rfl⟩ := Gateway.restGetTaskStatus_ok slowOk
  rw [Gateway.lookup_cached up.stores held] at hit
  cases hit
  have expired : (w.expire id).Up := ⟨up.reliable, up.live⟩
  have stored := Gateway.lookup_expired expired (by rw [w.expire_dossier])
    (by rw [w.expire_dossier]) miss
  rw [w.expire_dossier] at stored
  exact ⟨row, stored, same.2.1, same.2.2.2.1⟩

/-- **Redis and Postgres after the end of a task.**  For no accepted task with a row
do the two lookups agree, whatever the registry and the outcomes of the handler. -/
theorem fallback_disagrees (journey : Journey cron json source d task w₀ w₁ w₂)
    (gateway : source.viaGateway = true) (created : w₀.db.accepts task = true) :
    ¬ (worker.finished json task w₂).FallbackAgrees task.id := by
  obtain ⟨pending, none, live, _, dossier⟩ := journey.arrives gateway
  rw [created, if_pos rfl] at dossier
  have up : (worker.finished json task w₂).Up := (Service.run_calm journey.routed.calm).up
  intro agrees
  cases found : worker.registry.get task.type with
  | ok h =>
      obtain ⟨closed, t, exec, _, attempted, closes⟩ := journey.closes found
      rw [dossier] at closes
      obtain ⟨row, stored, _, attempts⟩ := agrees.records up (by rw [closes]; rfl)
      rw [closes] at stored
      cases stored
      have zero : closed.attempts = 0 := attempts.trans none
      omega
  | error err =>
      have rejected := journey.rejected found
      rw [dossier] at rejected
      obtain ⟨row, stored, status, _⟩ := agrees.records up (by rw [rejected])
      rw [rejected] at stored status
      cases stored
      rw [pending] at status
      cases status

/-- The task of an email request. -/
def emailSubmitted : Task := grpcTask ⟨"email", [123, 125], 1, 0⟩

/-- The deployment when an email task is done. -/
def emailDone : World Task :=
  (emailWorker 3).finished plainJson emailSubmitted
    (arrival (.grpc ⟨"email", [123, 125], 1, 0⟩) emailSubmitted)

theorem fallback_disagrees_email : ¬ emailDone.FallbackAgrees "task-1" :=
  fallback_disagrees (grpc_journey ⟨"email", [123, 125], 1, 0⟩ (by decide) (by decide)) rfl
    (by decide)

/-- The cache says one attempt and the row says none. -/
theorem fallback_forgets_attempts :
    ¬ ∀ (source : Source) (worker : Worker) (task : Task) (w₀ w₁ w₂ : World Task),
      Journey minuteCron plainJson source ⟨false⟩ task w₀ w₁ w₂ → source.viaGateway = true →
      w₀.db.accepts task = true →
      (worker.finished plainJson task w₂).FallbackAgrees task.id := by
  intro agrees
  obtain ⟨fast, slow, hit, miss, _, _, _, attempts, _⟩ := agrees _ (emailWorker 3) _ _ _ _
    (grpc_journey ⟨"email", [123, 125], 1, 0⟩ (by decide) (by decide)) rfl (by decide)
  have one : fast.attempts = 1 := by
    cases hit
    decide
  have zero : slow.attempts = 0 := by
    cases miss
    decide
  rw [one, zero] at attempts
  cases attempts

end TaskFlow
