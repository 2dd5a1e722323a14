import TaskFlow.Calls

/-!
# What the stores hold about one task

The dossier of a task is its live status, its cached copy, its row of `tasks` and
its rows of `task_executions`.  `perform_dossier`: only the calls that name a task
write to its dossier.  The other lemmas say what each of these calls writes when it
works.
-/

namespace TaskFlow

open Effect

variable {Raw α : Type} {w : World Raw} {op : Op Raw} {id : String}

/-- The records of one task. -/
@[ext] structure Dossier : Type where
  live : Option Status
  cached : Option Task
  row : Option Task
  executions : List TaskExecution

/-- Nothing is known about the task. -/
def Dossier.empty : Dossier := ⟨none, none, none, []⟩

/-- The dossier of a task. -/
def World.dossier (w : World Raw) (id : String) : Dossier where
  live := w.redis.state id
  cached := w.redis.metas id
  row := w.db.tasks id
  executions := w.db.executions.filter (·.taskID = id)

theorem World.terminal_of_live {status : Status} (live : (w.dossier id).live = some status) :
    w.terminal id = status.isTerminal := by
  unfold World.terminal
  rw [show w.redis.state id = some status from live]
  rfl

/-- The dossier when the task is finished: the live status, the cached copy and the
row, if there is one, are updated, and an execution is recorded for the row. -/
def Dossier.close (d : Dossier) (task : Task) (now : Time) (exec : TaskExecution) : Dossier where
  live := some task.status
  cached := some task
  row := d.row.map (·.withStatus task.status now)
  executions := if d.row.isSome then d.executions ++ [exec] else d.executions

/-- The calls that write to the dossier of a task. -/
def Op.Writes (id : String) : Op Raw → Prop
  | .setStatus other _ => other = id
  | .setTaskMeta task => task.id = id
  | .create task => task.id = id
  | .updateStatus other _ => other = id
  | .recordExecution exec => exec.taskID = id
  | _ => False

theorem Postgres.putTask_ne {db : Postgres} {other : String} {row : Option Task} (ne : other ≠ id) :
    (db.putTask other row).tasks id = db.tasks id :=
  Function.update_of_ne ne.symm ..

theorem Postgres.putTask_self {db : Postgres} {row : Option Task} :
    (db.putTask id row).tasks id = row :=
  Function.update_self ..

/-- A change that does not name the task leaves its dossier alone. -/
theorem Change.dossier {w' : World Raw} (change : Change op w w') (quiet : ¬ op.Writes id) :
    w'.dossier id = w.dossier id := by
  cases change with
  | state =>
      have ne : id ≠ _ := fun eq => quiet eq.symm
      exact Dossier.ext (Function.update_of_ne ne ..) rfl rfl rfl
  | metas =>
      have ne : id ≠ _ := fun eq => quiet eq.symm
      exact Dossier.ext rfl (Function.update_of_ne ne ..) rfl rfl
  | insert inserted =>
      unfold Postgres.insertTask at inserted
      split at inserted
      · cases inserted
      · cases inserted
        exact Dossier.ext rfl rfl (Postgres.putTask_ne quiet) rfl
  | update => exact Dossier.ext rfl rfl (Postgres.putTask_ne quiet) rfl
  | @record exec filled _ db same inserted =>
      unfold Postgres.insertExecution at inserted
      split at inserted
      · cases inserted
        have other : ¬ filled.taskID = id := fun eq => quiet (same.symm.trans eq)
        refine Dossier.ext rfl rfl rfl ?_
        simp only [World.dossier, List.filter_append, List.filter_cons, other, decide_false,
          Bool.false_eq_true, if_false, List.filter_nil, List.append_nil]
      · cases inserted
  | _ => rfl

theorem perform_dossier (quiet : ¬ op.Writes id) :
    (perform op w).2.dossier id = w.dossier id :=
  perform_frame (·.dossier id) fun _ _ change => change.dossier quiet

@[simp] theorem perform_now_dossier : (perform .now w).2.dossier id = w.dossier id := rfl

@[simp] theorem perform_count_dossier {metric : Metric} {delta : Int} :
    (perform (.count metric delta) w).2.dossier id = w.dossier id := rfl

@[simp] theorem perform_publish_dossier {topic key : String} {value : Raw} {origin : Origin} :
    (perform (.publish topic key value origin) w).2.dossier id = w.dossier id :=
  perform_dossier not_false

/-- A service that never names the task leaves its dossier alone. -/
theorem Service.run_dossier {p : Service Raw α}
    (quiet : Prog.All (fun op => ¬ op.Writes id) p) (w : World Raw) :
    (Service.run p w).2.dossier id = w.dossier id :=
  quiet.run_invariant (I := fun w' : World Raw => w'.dossier id = w.dossier id)
    (fun _ _ quiet same => (perform_dossier quiet).trans same) rfl

/-- A status write writes to the live status alone. -/
theorem perform_setStatus_dossier (id : String) (status : Status) (w : World Raw) :
    ∃ live, (live = (w.dossier id).live ∨ live = some status) ∧
      (perform (.setStatus id status) w).2.dossier id = { w.dossier id with live := live } := by
  cases down : w.fails .setStatus with
  | true =>
      simp only [perform, World.setStatus, World.attempt_of_fails down]
      exact ⟨(w.dossier id).live, .inl rfl, rfl⟩
  | false =>
      simp only [perform, World.setStatus, World.attempt_of_works down]
      exact ⟨some status, .inr rfl, Dossier.ext (Function.update_self ..) rfl rfl rfl⟩

/-! ## Writes that work -/

/-- The schema accepts the columns of a new task. -/
def Postgres.accepts (db : Postgres) (task : Task) : Bool :=
  db.acceptsJSON task.payload && decide (task.type.length ≤ 100)

theorem Postgres.insertTask_eq {db : Postgres} {task : Task} (new : db.tasks task.id = none) :
    db.insertTask task = if db.accepts task then
      some (db.putTask task.id (some { task with completedAt := none })) else none := by
  unfold Postgres.insertTask Postgres.accepts
  cases db.acceptsJSON task.payload <;> by_cases long : task.type.length ≤ 100 <;>
    simp [new, long]

namespace World.StoresUp

theorem setStatus_dossier (up : w.StoresUp) (id : String) (status : Status) :
    (perform (.setStatus id status) w).2.dossier id =
      { w.dossier id with live := some status } := by
  simp only [perform, World.setStatus, up.attempt .setStatus (by decide)]
  exact Dossier.ext (Function.update_self ..) rfl rfl rfl

theorem setTaskMeta_dossier (up : w.StoresUp) (task : Task) :
    (perform (.setTaskMeta task) w).2.dossier task.id =
      { w.dossier task.id with cached := some task } := by
  simp only [perform, World.setTaskMeta, up.attempt .setTaskMeta (by decide)]
  exact Dossier.ext rfl (Function.update_self ..) rfl rfl

theorem create_dossier (up : w.StoresUp) {task : Task} (new : (w.dossier task.id).row = none) :
    (perform (.create task) w).2.dossier task.id =
      if w.db.accepts task then
        { w.dossier task.id with row := some { task with completedAt := none } }
      else w.dossier task.id := by
  simp only [perform, World.create, up.attempt .create (by decide)]
  rw [Postgres.insertTask_eq new]
  by_cases accepted : w.db.accepts task = true
  · simp only [if_pos accepted]
    exact Dossier.ext rfl rfl Postgres.putTask_self rfl
  · simp only [if_neg accepted]

theorem updateStatus_dossier (up : w.StoresUp) (id : String) (status : Status) :
    (perform (.updateStatus id status) w).2.dossier id =
      { w.dossier id with
        row := (w.dossier id).row.map (·.withStatus status (w.script.clock 0)) } := by
  have ticked : w.tick.StoresUp := ⟨up.reliable, up.live⟩
  simp only [perform, World.updateStatus, ticked.attempt .updateStatus (by decide)]
  exact Dossier.ext rfl rfl Postgres.putTask_self rfl

theorem recordExecution_dossier (up : w.StoresUp) (exec : TaskExecution) :
    ∃ filled : TaskExecution, filled.taskID = exec.taskID ∧
      (perform (.recordExecution exec) w).2.dossier exec.taskID =
        if (w.dossier exec.taskID).row.isSome then
          { w.dossier exec.taskID with
            executions := (w.dossier exec.taskID).executions ++ [filled] }
        else w.dossier exec.taskID := by
  have filled : (w.fillExecution exec).1.taskID = exec.taskID ∧
      (w.fillExecution exec).2.StoresUp ∧ (w.fillExecution exec).2.db = w.db ∧
      (w.fillExecution exec).2.redis = w.redis := by
    unfold World.fillExecution
    by_cases unnamed : exec.id = ""
    · simp only [if_pos unnamed]
      split <;> exact ⟨rfl, ⟨up.reliable, up.live⟩, rfl, rfl⟩
    · simp only [if_neg unnamed]
      split <;> exact ⟨rfl, ⟨up.reliable, up.live⟩, rfl, rfl⟩
  obtain ⟨same, filledUp, db, redis⟩ := filled
  refine ⟨(w.fillExecution exec).1, same, ?_⟩
  simp only [perform, World.recordExecution, filledUp.attempt .recordExecution (by decide)]
  unfold Postgres.insertExecution World.dossier
  rw [db, same]
  by_cases held : (w.db.tasks exec.taskID).isSome = true
  · simp only [if_pos held, redis, List.filter_append]
    simp [same]
  · simp only [if_neg held, db, redis]

end World.StoresUp

end TaskFlow
