import TaskFlow.Calls

/-!
# The table of scheduled jobs

Reading and updating `next_run_at` by the primary key of `scheduled_jobs`.
-/

namespace TaskFlow

/-- The `next_run_at` of a job. -/
def JobTable.nextRunAt (table : JobTable) (jobID : String) : Option Time :=
  (table.rows.find? (·.id = jobID)).bind (·.nextRunAt)

theorem JobTable.find?_of_mem {table : JobTable} {job : ScheduledJob} (member : job ∈ table.rows) :
    table.rows.find? (·.id = job.id) = some job := by
  have key := table.primaryKey
  revert member key
  generalize table.rows = rows
  intro member key
  induction rows with
  | nil => cases member
  | cons first rows ih =>
      rw [List.map_cons, List.nodup_cons] at key
      rcases List.mem_cons.mp member with rfl | member
      · simp
      · have other : first.id ≠ job.id :=
          fun same => key.1 (same ▸ List.mem_map_of_mem member)
        rw [List.find?_cons_of_neg (by simpa using other)]
        exact ih member key.2

theorem JobTable.nextRunAt_of_mem {table : JobTable} {job : ScheduledJob}
    (member : job ∈ table.rows) : table.nextRunAt job.id = job.nextRunAt := by
  unfold JobTable.nextRunAt
  rw [JobTable.find?_of_mem member]
  rfl

theorem JobTable.mem_update {table : JobTable} {job : ScheduledJob} {id : String} {now next : Time}
    (member : job ∈ table.rows) :
    (if job.id = id then job.fired now next else job) ∈ (table.update id now next).rows :=
  List.mem_map_of_mem member

theorem JobTable.nextRunAt_update_self {table : JobTable} {job : ScheduledJob} {now next : Time}
    (member : job ∈ table.rows) : (table.update job.id now next).nextRunAt job.id = some next := by
  have updated : job.fired now next ∈ (table.update job.id now next).rows :=
    List.mem_map.mpr ⟨job, member, if_pos rfl⟩
  exact JobTable.nextRunAt_of_mem updated

theorem JobTable.nextRunAt_update_of_ne {table : JobTable} {id jobID : String} {now next : Time}
    (ne : id ≠ jobID) : (table.update jobID now next).nextRunAt id = table.nextRunAt id := by
  have ids : ((fun row : ScheduledJob => decide (row.id = id)) ∘ fun row =>
      if row.id = jobID then row.fired now next else row) = fun row => decide (row.id = id) := by
    funext row
    dsimp only [Function.comp]
    split <;> rfl
  unfold JobTable.nextRunAt JobTable.update
  rw [List.find?_map, ids]
  cases found : table.rows.find? fun row => decide (row.id = id) with
  | none => rfl
  | some row =>
      have rowID : row.id = id := by simpa using List.find?_some found
      simp only [Option.map_some, Option.bind_some, if_neg (rowID ▸ ne)]

theorem JobTable.nextRunAt_update {table : JobTable} {job : ScheduledJob} {now next : Time}
    (member : job ∈ table.rows) (id : String) :
    (table.update job.id now next).nextRunAt id =
      if id = job.id then some next else table.nextRunAt id := by
  split
  · rename_i same
    rw [same]
    exact JobTable.nextRunAt_update_self member
  · rename_i other
    exact JobTable.nextRunAt_update_of_ne other

/-- A row that has a value after its update has the new one. -/
theorem JobTable.nextRunAt_update_eq {table : JobTable} {id : String} {now next v : Time}
    (after : (table.update id now next).nextRunAt id = some v) : v = next := by
  obtain ⟨row, found, value⟩ := Option.bind_eq_some_iff.mp after
  obtain ⟨old, member, rfl⟩ := List.mem_map.mp (List.mem_of_find?_eq_some found)
  have same := List.find?_some found
  by_cases own : old.id = id
  · rw [if_pos own] at value
    exact (Option.some.inj value).symm
  · rw [if_neg own] at same
    exact absurd (of_decide_eq_true same) own

/-- The table has a row with this identifier and expression. -/
def JobTable.Holds (table : JobTable) (jobID expr : String) : Prop :=
  ∃ row ∈ table.rows, row.id = jobID ∧ row.cronExpr = expr

theorem JobTable.Holds.update {table : JobTable} {jobID expr : String}
    (holds : table.Holds jobID expr) (id : String) (now next : Time) :
    (table.update id now next).Holds jobID expr := by
  obtain ⟨row, member, rfl, rfl⟩ := holds
  refine ⟨_, JobTable.mem_update member, ?_⟩
  split
  · exact ⟨rfl, rfl⟩
  · exact ⟨rfl, rfl⟩

/-- A row with the identifier of another is that row. -/
theorem JobTable.eq_of_mem {table : JobTable} {row row' : ScheduledJob} (member : row ∈ table.rows)
    (member' : row' ∈ table.rows) (same : row.id = row'.id) : row = row' :=
  List.inj_on_of_nodup_map table.primaryKey member member' same

/-- The query returns rows of the table that are due. -/
theorem JobTable.mem_due {table : JobTable} {job : ScheduledJob} {now : Time} :
    job ∈ table.due now ↔ job ∈ table.rows ∧ job.isDue now = true := by
  unfold JobTable.due
  rw [List.mem_insertionSort, List.mem_filter]

/-- The query returns each job at most once. -/
theorem JobTable.due_nodup (table : JobTable) (now : Time) :
    ((table.due now).map ScheduledJob.id).Nodup := by
  have sorted := (List.perm_insertionSort ScheduledJob.before
    (table.rows.filter (·.isDue now))).map ScheduledJob.id
  refine sorted.nodup_iff.mpr (List.Nodup.sublist ?_ table.primaryKey)
  exact List.filter_sublist.map _

variable {Raw : Type} {w : World Raw}

theorem World.Up.updateJob (up : w.Up) (now next : Time) (id : String) :
    (perform (.updateJob now next id) w).2.db.jobs = w.db.jobs.update id now next := by
  simp only [TaskFlow.perform, World.updateJob, up.attempt]

theorem World.Up.loadDueJobs (up : w.Up) :
    (perform .loadDueJobs w).1 = .ok (w.db.jobs.due (w.script.clock 0)) := by
  have ticked : w.tick.Up := ⟨up.reliable, up.live⟩
  simp only [TaskFlow.perform, World.loadDueJobs, ticked.attempt]
  rfl

end TaskFlow
