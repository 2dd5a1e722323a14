import TaskFlow.Fallback

/-!
# The two status lookups

`REST.GetTaskStatus` and `GRPC.GetTaskStatus` are the same three reads followed by two
renderings.  With both stores available, the reads tell a task that exists from one
that does not, except where Postgres is asked for an id that is no UUID: that query
fails, and both answer an internal error.  The renderings agree except for attempts
that do not fit into the 32 bits of the gRPC message.

`statusClassified_iff` puts these together: the two exceptions are the only ones.
-/

namespace TaskFlow

open Effect

variable {Raw : Type} {w : World Raw} {id : String}

namespace Gateway

/-- The record of a task: the cached copy, or else the row. -/
def record (w : World Raw) (id : String) : Option Task :=
  (w.redis.metas id).or (w.db.tasks id)

/-- The two responses say the same of a task. -/
structure SameStatus (rest : TaskStatusResponse) (grpc : GRPCStatusResponse) : Prop where
  type : rest.type = grpc.type
  status : rest.status = grpc.status
  attempts : rest.attempts = grpc.attempts
  createdAt : unix rest.createdAt = grpc.createdAt
  completedAt : rest.completedAt.elim 0 unix = grpc.completedAt
  durationMs : rest.durationMs = grpc.durationMs

/-- Both lookups find the task if it has a record, report the same of it, and the live
status if there is one; and both say that it is not found if it has none. -/
structure StatusClassified (w : World Raw) (id : String) : Prop where
  found : ∀ task, record w id = some task → ∃ rest grpc,
    (Service.run (restGetTaskStatus id) w).1 = .ok rest ∧
    (Service.run (grpcGetTaskStatus id) w).1 = .ok grpc ∧
    SameStatus rest grpc ∧ rest.status = (w.redis.state id).getD task.status
  missing : record w id = none →
    (Service.run (restGetTaskStatus id) w).1 = .error (.notFound "task not found") ∧
    (Service.run (grpcGetTaskStatus id) w).1 = .error (.notFound "task not found")

/-! ## Rendering a lookup -/

theorem restGetTaskStatus_run (named : id ≠ "") :
    (Service.run (restGetTaskStatus id) w).1 =
      (Service.run (lookup id) w).1.map statusResponse := by
  unfold restGetTaskStatus
  rw [if_neg named]
  simp only [Service.run, Prog.run_bind]
  cases (Prog.run perform (lookup id) w).1 <;> rfl

theorem grpcGetTaskStatus_run (named : id ≠ "") :
    (Service.run (grpcGetTaskStatus id) w).1 =
      (Service.run (lookup id) w).1.map grpcStatusResponse := by
  unfold grpcGetTaskStatus
  rw [if_neg named]
  simp only [Service.run, Prog.run_bind]
  cases (Prog.run perform (lookup id) w).1 <;> rfl

/-- The renderings of a task agree exactly when its attempts fit into 32 bits. -/
theorem sameStatus_iff (task : Task) :
    SameStatus (statusResponse task) (grpcStatusResponse task) ↔
      int32 task.attempts = task.attempts :=
  ⟨fun same => same.attempts.symm, fun fits => ⟨rfl, rfl, fits.symm, rfl, rfl, rfl⟩⟩

/-! ## The lookup -/

/-- The lookup of a record that Redis holds, or that Postgres can be asked for. -/
theorem lookup_record (up : w.StoresUp) (askable : w.redis.metas id ≠ none ∨
    w.db.acceptsUUID id = true) :
    (Service.run (lookup id) w).1 = (record w id).elim (.error (.notFound "task not found"))
      fun task => .ok (withLive task (w.redis.state id)) := by
  cases cached : w.redis.metas id with
  | some task =>
      rw [lookup_cached up cached, record, cached]
      rfl
  | none =>
      have valid : w.db.acceptsUUID id = true := askable.resolve_left (not_not_intro cached)
      rw [lookup_missed up cached, missed, if_pos valid, record, cached, Option.none_or]
      rfl

/-- Postgres rejects the query for an id that is no UUID. -/
theorem lookup_unaskable (up : w.StoresUp) (cached : w.redis.metas id = none)
    (invalid : w.db.acceptsUUID id = false) :
    (Service.run (lookup id) w).1 = .error (.internal "failed to retrieve task") := by
  rw [lookup_missed up cached, missed, invalid]
  rfl

/-- A lookup that is classified never asks Postgres for an id that is no UUID. -/
theorem StatusClassified.askable (classified : StatusClassified w id) (up : w.StoresUp)
    (named : id ≠ "") : w.redis.metas id ≠ none ∨ w.db.acceptsUUID id = true := by
  by_contra neither
  obtain ⟨cached, invalid⟩ := not_or.mp neither
  have failed : (Service.run (restGetTaskStatus id) w).1 =
      .error (.internal "failed to retrieve task") := by
    rw [restGetTaskStatus_run named,
      lookup_unaskable up (not_not.mp cached) (Bool.eq_false_iff.mpr invalid)]
    rfl
  cases held : record w id with
  | none =>
      rw [(classified.missing held).1] at failed
      cases failed
  | some task =>
      obtain ⟨rest, _, ok, _⟩ := classified.found task held
      rw [ok] at failed
      cases failed

/-- With both stores available, a lookup for an id that is not empty is classified
correctly and alike by both handlers exactly when Redis holds the record or the id is a
UUID, and the attempts of the record, if there is one, fit into 32 bits. -/
theorem statusClassified_iff (w : World Raw) (id : String) (up : w.StoresUp) (named : id ≠ "") :
    StatusClassified w id ↔
      (w.redis.metas id ≠ none ∨ w.db.acceptsUUID id = true) ∧
      ∀ task, record w id = some task → int32 task.attempts = task.attempts := by
  constructor
  · intro classified
    have askable := classified.askable up named
    refine ⟨askable, fun task held => ?_⟩
    obtain ⟨rest, grpc, restOk, grpcOk, same, _⟩ := classified.found task held
    have looked := lookup_record up askable
    rw [held] at looked
    rw [restGetTaskStatus_run named, looked] at restOk
    rw [grpcGetTaskStatus_run named, looked] at grpcOk
    cases restOk
    cases grpcOk
    exact (sameStatus_iff (withLive task (w.redis.state id))).mp same
  · rintro ⟨askable, fits⟩
    have looked := lookup_record up askable
    refine ⟨fun task held => ?_, fun none => ?_⟩
    · rw [held] at looked
      refine ⟨statusResponse (withLive task (w.redis.state id)),
        grpcStatusResponse (withLive task (w.redis.state id)), ?_, ?_, ?_, rfl⟩
      · rw [restGetTaskStatus_run named, looked]
        rfl
      · rw [grpcGetTaskStatus_run named, looked]
        rfl
      · exact (sameStatus_iff (withLive task (w.redis.state id))).mpr (fits task held)
    · rw [none] at looked
      rw [restGetTaskStatus_run named, grpcGetTaskStatus_run named, looked]
      exact ⟨rfl, rfl⟩

/-- An email task with a cached copy and a live status. -/
def emailCached : World Task :=
  ((World.fresh Script.calm).putMeta "task-1" (some emailTask)).putState "task-1" (some .running)

theorem statusClassified_email : StatusClassified emailCached "task-1" :=
  (statusClassified_iff emailCached "task-1" ⟨fun _ _ _ => rfl, rfl⟩ (by decide)).mpr
    ⟨.inr rfl, fun _ held => by
      cases held
      decide⟩

/-- A deployment with empty stores, whose Postgres takes no id for a UUID but one. -/
def oneUUID : World Task :=
  { World.fresh Script.calm with
    db.acceptsUUID := fun id => id == "00000000-0000-0000-0000-000000000000" }

/-- A task that exists nowhere, asked for under an id that is no UUID, is an internal
error to both. -/
theorem unknown_id_internal :
    record oneUUID "42" = none ∧
    (Service.run (restGetTaskStatus "42") oneUUID).1 =
      .error (.internal "failed to retrieve task") ∧
    (Service.run (grpcGetTaskStatus "42") oneUUID).1 =
      .error (.internal "failed to retrieve task") ∧
    ¬ StatusClassified oneUUID "42" := by
  refine ⟨rfl, by decide, by decide, fun classified => ?_⟩
  have missing := (classified.missing rfl).1
  exact absurd missing (by decide)

end Gateway

end TaskFlow
