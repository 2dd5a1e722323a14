import Mathlib.Logic.Relation
import TaskFlow.Perform

/-!
# What one call changes

A call fails, and then the stores stay as they are, or it has its effect.
`Change` lists the changes a call can make, whatever fails, and `perform_keeps`
derives from it what a call preserves: the frame lemmas below, and every
invariant of the services.

The second half gives the exact effect of a call when the infrastructure is
reliable.

* `World.Reliable`: no store, repository or producer call fails by itself; only a
  cancelled context still makes one fail.
* `World.Up`: reliable, and the context is not cancelled.
* `World.Uncancelled`: nothing cancels the context, now or later.
* `World.Calm`: reliable and uncancelled.
-/

namespace TaskFlow

open Effect

variable {Raw α : Type} {w w' : World Raw} {c : Call} {op : Op Raw}

/-- The kind under which a call can fail. -/
def Op.kind : Op Raw → Option Call
  | .getStatus _ => some .getStatus
  | .setStatus _ _ => some .setStatus
  | .setTaskMeta _ => some .setTaskMeta
  | .getTaskMeta _ => some .getTaskMeta
  | .create _ => some .create
  | .updateStatus _ _ => some .updateStatus
  | .recordExecution _ => some .recordExecution
  | .getByID _ => some .getByID
  | .publish _ _ _ _ => some .publish
  | .loadDueJobs => some .loadDueJobs
  | .updateJob _ _ _ => some .updateJob
  | _ => none

/-- The calls that read the clock. -/
def Op.readsClock : Op Raw → Bool
  | .updateStatus _ _ | .recordExecution _ | .now | .loadDueJobs => true
  | _ => false

/-- The commands on the leader key. -/
def Op.leads : Op Raw → Bool
  | .setNX _ | .renew _ => true
  | _ => false

/-- One change a call can make to the world. -/
inductive Change : Op Raw → World Raw → World Raw → Prop
  | spend {op : Op Raw} {c : Call} {w : World Raw} : op.kind = some c → Change op w (w.spend c)
  | clock {op : Op Raw} {w : World Raw} : op.readsClock = true → Change op w w.tick
  | name {exec : TaskExecution} {w : World Raw} : Change (.recordExecution exec) w w.draw
  | uuid {w : World Raw} : Change .newUUID w w.draw
  | state {id : String} {status : Status} {w : World Raw} :
    Change (.setStatus id status) w (w.putState id (some status))
  | metas {task : Task} {w : World Raw} :
    Change (.setTaskMeta task) w (w.putMeta task.id (some task))
  | insert {task : Task} {w : World Raw} {db : Postgres} :
    w.db.insertTask task = some db → Change (.create task) w { w with db := db }
  | update {id : String} {status : Status} {now : Time} {w : World Raw} :
    Change (.updateStatus id status) w { w with db := w.db.updateTask id status now }
  | record {exec filled : TaskExecution} {w : World Raw} {db : Postgres} :
    filled.taskID = exec.taskID → w.db.insertExecution filled = some db →
    Change (.recordExecution exec) w { w with db := db }
  | publish {topic key : String} {value : Raw} {origin : Origin} {w : World Raw} :
    Change (.publish topic key value origin) w
      { w with kafka := w.kafka ++ [⟨⟨topic, key, value⟩, origin⟩] }
  | allow {taskType : String} {w : World Raw} : Change (.allow taskType) w w.allow.2
  | handle {handler : Handler} {task : Task} {w : World Raw} :
    Change (.handle handler task) w (w.handle task).2
  | wait {delay : Int64} {w : World Raw} : Change (.wait delay) w w.wait.2
  | count {metric : Metric} {delta : Int} {w : World Raw} :
    Change (.count metric delta) w (w.count metric delta)
  | leader {op : Op Raw} {leader : Option (String × Time)} {w : World Raw} :
    op.leads = true →
    Change op w { w with redis.leader := leader, script.fault := rest w.script.fault }
  | updateJob {now next : Time} {id : String} {w : World Raw} :
    Change (.updateJob now next id) w { w with db.jobs := w.db.jobs.update id now next }

/-- A call makes some of its changes, one after another. -/
abbrev Changes (op : Op Raw) : World Raw → World Raw → Prop := Relation.ReflTransGen (Change op)

namespace World

theorem attempt_of_fails {failure : Error → α} {effect : World Raw → α × World Raw}
    (down : w.fails c = true) :
    w.attempt c failure effect = (failure w.unavailable, w.spend c) :=
  if_pos down

theorem attempt_of_works {failure : Error → α} {effect : World Raw → α × World Raw}
    (up : w.fails c = false) : w.attempt c failure effect = effect (w.spend c) :=
  if_neg (ne_true_of_eq_false up)

theorem attempt_changes {failure : Error → α} {effect : World Raw → α × World Raw}
    (kind : op.kind = some c) (effects : ∀ w, Changes op w (effect w).2) :
    Changes op w (w.attempt c failure effect).2 := by
  unfold attempt
  split
  · exact .single (.spend kind)
  · exact .head (.spend kind) (effects _)

theorem fillExecution_changes (exec : TaskExecution) :
    Changes (.recordExecution exec) w (w.fillExecution exec).2 ∧
      (w.fillExecution exec).1.taskID = exec.taskID := by
  unfold fillExecution
  by_cases unnamed : exec.id = ""
  · simp only [if_pos unnamed]
    split
    · exact ⟨.head .name (.single (.clock rfl)), rfl⟩
    · exact ⟨.single .name, rfl⟩
  · simp only [if_neg unnamed]
    split
    · exact ⟨.single (.clock rfl), rfl⟩
    · exact ⟨.refl, rfl⟩

end World

theorem Redis.setNX_leader (r : Redis) (instanceID : String) :
    ∃ leader, (r.setNX instanceID).2 = { r with leader } := by
  unfold Redis.setNX
  split
  · exact ⟨_, rfl⟩
  · exact ⟨r.leader, rfl⟩

theorem Redis.renew_leader (r : Redis) (instanceID : String) :
    ∃ leader, (r.renew instanceID).2 = { r with leader } := by
  unfold Redis.renew
  split
  · exact ⟨_, rfl⟩
  · exact ⟨r.leader, rfl⟩

theorem World.command_changes {command : Redis → α × Redis} (leads : op.leads = true)
    (leader : ∃ leader, (command w.redis).2 = { w.redis with leader }) :
    Changes op w (w.command command).2 := by
  obtain ⟨leader, eq⟩ := leader
  unfold World.command
  cases w.script.fault 0 with
  | none =>
      simp only [eq]
      exact .single (.leader leads)
  | lost => exact .single (.leader leads)
  | hidden =>
      simp only [eq]
      exact .single (.leader leads)

/-- Whatever a call does is made of the changes listed for it. -/
theorem perform_changes (op : Op Raw) (w : World Raw) : Changes op w (perform op w).2 := by
  cases op with
  | getStatus id => exact World.attempt_changes rfl fun _ => .refl
  | setStatus id status => exact World.attempt_changes rfl fun _ => .single .state
  | setTaskMeta task => exact World.attempt_changes rfl fun _ => .single .metas
  | getTaskMeta id => exact World.attempt_changes rfl fun _ => .refl
  | create task =>
      refine World.attempt_changes rfl fun w => ?_
      split
      · exact .refl
      · rename_i inserted
        exact .single (.insert inserted)
  | updateStatus id status =>
      exact .head (.clock rfl) (World.attempt_changes rfl fun _ => .single .update)
  | recordExecution exec =>
      obtain ⟨fill, same⟩ := w.fillExecution_changes exec
      refine fill.trans (World.attempt_changes rfl fun w => ?_)
      split
      · exact .refl
      · rename_i inserted
        exact .single (.record same inserted)
  | getByID id => exact World.attempt_changes rfl fun _ => .refl
  | publish topic key value origin => exact World.attempt_changes rfl fun _ => .single .publish
  | allow taskType => exact .single .allow
  | handle handler task => exact .single .handle
  | wait delay => exact .single .wait
  | now => exact .single (.clock rfl)
  | newUUID => exact .single .uuid
  | count metric delta => exact .single .count
  | setNX instanceID => exact World.command_changes rfl (w.redis.setNX_leader instanceID)
  | renew instanceID => exact World.command_changes rfl (w.redis.renew_leader instanceID)
  | loadDueJobs => exact .head (.clock rfl) (World.attempt_changes rfl fun _ => .refl)
  | updateJob now next id => exact World.attempt_changes rfl fun _ => .single .updateJob

/-- What no change of a call destroys, the call keeps. -/
theorem perform_keeps {I : World Raw → Prop} (change : ∀ w w', Change op w w' → I w → I w')
    (start : I w) : I (perform op w).2 := by
  have changes := perform_changes op w
  generalize (perform op w).2 = w' at changes ⊢
  induction changes with
  | refl => exact start
  | tail _ step ih => exact change _ _ step ih

/-! ## What a call leaves alone -/

/-- What every change of a call leaves alone, the call leaves alone. -/
theorem perform_frame {β : Type} (view : World Raw → β)
    (same : ∀ w w', Change op w w' → view w' = view w) : view (perform op w).2 = view w :=
  perform_keeps (I := fun w' => view w' = view w)
    (fun w₁ w₂ change before => (same w₁ w₂ change).trans before) rfl

theorem perform_kafka (quiet : ∀ topic key value origin, op ≠ .publish topic key value origin) :
    (perform op w).2.kafka = w.kafka := by
  refine perform_frame World.kafka fun _ _ change => ?_
  cases change with
  | publish => exact absurd rfl (quiet _ _ _ _)
  | _ => rfl

theorem perform_handled (quiet : ∀ handler task, op ≠ .handle handler task) :
    (perform op w).2.handled = w.handled := by
  refine perform_frame World.handled fun _ _ change => ?_
  cases change with
  | handle => exact absurd rfl (quiet _ _)
  | _ => rfl

theorem perform_metrics (quiet : ∀ metric delta, op ≠ .count metric delta) :
    (perform op w).2.metrics = w.metrics := by
  refine perform_frame World.metrics fun _ _ change => ?_
  cases change with
  | count => exact absurd rfl (quiet _ _)
  | _ => rfl

theorem perform_outcome (quiet : ∀ handler task, op ≠ .handle handler task) :
    (perform op w).2.script.outcome = w.script.outcome := by
  refine perform_frame (·.script.outcome) fun _ _ change => ?_
  cases change with
  | handle => exact absurd rfl (quiet _ _)
  | _ => rfl

theorem perform_cancelInHandle (quiet : ∀ handler task, op ≠ .handle handler task) :
    (perform op w).2.script.cancelInHandle = w.script.cancelInHandle := by
  refine perform_frame (·.script.cancelInHandle) fun _ _ change => ?_
  cases change with
  | handle => exact absurd rfl (quiet _ _)
  | _ => rfl

theorem perform_cancelInWait (quiet : ∀ delay, op ≠ .wait delay) :
    (perform op w).2.script.cancelInWait = w.script.cancelInWait := by
  refine perform_frame (·.script.cancelInWait) fun _ _ change => ?_
  cases change with
  | wait => exact absurd rfl (quiet _)
  | _ => rfl

theorem perform_time (op : Op Raw) (w : World Raw) :
    (perform op w).2.redis.time = w.redis.time :=
  perform_frame (·.redis.time) fun _ _ change => by cases change <;> rfl

/-- A call draws some identifiers, or none. -/
theorem perform_uuid (op : Op Raw) (w : World Raw) :
    ∃ n, ∀ m, (perform op w).2.script.uuid m = w.script.uuid (m + n) := by
  refine perform_keeps (I := fun w' : World Raw =>
      ∃ n, ∀ m, w'.script.uuid m = w.script.uuid (m + n))
    (fun w₁ w₂ change drawn => ?_) ⟨0, fun _ => rfl⟩
  obtain ⟨n, drawn⟩ := drawn
  cases change with
  | name => exact ⟨n + 1, fun m => (drawn (m + 1)).trans (congrArg _ (by omega))⟩
  | uuid => exact ⟨n + 1, fun m => (drawn (m + 1)).trans (congrArg _ (by omega))⟩
  | _ => exact ⟨n, drawn⟩

/-- Most calls draw no identifier. -/
theorem perform_uuid_same (draws : op ≠ .newUUID) (records : ∀ exec, op ≠ .recordExecution exec) :
    (perform op w).2.script.uuid = w.script.uuid := by
  refine perform_frame (·.script.uuid) fun _ _ change => ?_
  cases change with
  | name => exact absurd rfl (records _)
  | uuid => exact absurd rfl draws
  | _ => rfl

theorem Service.run_uuid (p : Service Raw α) (w : World Raw) :
    ∃ n, ∀ m, (Service.run p w).2.script.uuid m = w.script.uuid (m + n) := by
  induction p generalizing w with
  | pure value => exact ⟨0, fun _ => rfl⟩
  | call op next ih =>
      obtain ⟨k, drawn⟩ := perform_uuid op w
      obtain ⟨n, later⟩ := ih (perform op w).1 (perform op w).2
      exact ⟨n + k, fun m => (later m).trans ((drawn _).trans (by rw [Nat.add_assoc]))⟩

theorem perform_clock (quiet : op.readsClock = false) :
    (perform op w).2.script.clock = w.script.clock := by
  refine perform_frame (·.script.clock) fun _ _ change => ?_
  cases change with
  | clock reads =>
      rw [quiet] at reads
      cases reads
  | _ => rfl

/-- `RecordExecution` reads the clock for an execution without a time. -/
theorem perform_recordExecution_clock (exec : TaskExecution) (w : World Raw) :
    (perform (.recordExecution exec) w).2.script.clock =
      if exec.executedAt = zeroTime then rest w.script.clock else w.script.clock := by
  have after : (perform (.recordExecution exec) w).2.script.clock =
      (w.fillExecution exec).2.script.clock := by
    simp only [perform, World.recordExecution, World.attempt]
    split
    · rfl
    · split <;> rfl
  rw [after, World.fillExecution]
  by_cases unnamed : exec.id = ""
  · simp only [if_pos unnamed]
    split <;> rfl
  · simp only [if_neg unnamed]
    split <;> rfl

theorem perform_timerFirst (quiet : ∀ delay, op ≠ .wait delay) :
    (perform op w).2.script.timerFirst = w.script.timerFirst := by
  refine perform_frame (·.script.timerFirst) fun _ _ change => ?_
  cases change with
  | wait => exact absurd rfl (quiet _)
  | _ => rfl

theorem perform_state {id : String} (quiet : ∀ status, op ≠ .setStatus id status) :
    (perform op w).2.redis.state id = w.redis.state id := by
  refine perform_frame (·.redis.state id) fun _ _ change => ?_
  cases change with
  | @state other status =>
      have ne : id ≠ other := fun eq => quiet status (by rw [eq])
      exact Function.update_of_ne ne ..
  | _ => rfl

theorem perform_fails (other : op.kind ≠ some c) :
    (perform op w).2.script.fails c = w.script.fails c := by
  refine perform_frame (·.script.fails c) fun _ _ change => ?_
  cases change with
  | @spend _ c' _ kind =>
      have ne : c ≠ c' := fun eq => other (by rw [eq, kind])
      exact Function.update_of_ne ne ..
  | _ => rfl

/-- A call that does not publish leaves the publish faults as they are. -/
theorem perform_publishFaults
    (quiet : ∀ topic key value origin, op ≠ .publish topic key value origin) :
    (perform op w).2.script.fails .publish = w.script.fails .publish := by
  refine perform_fails ?_
  cases op with
  | publish topic key value origin => exact absurd rfl (quiet topic key value origin)
  | _ => simp [Op.kind]

/-- Only a handler or a wait can see the context cancelled. -/
theorem perform_cancelled (handles : ∀ handler task, op ≠ .handle handler task)
    (waits : ∀ delay, op ≠ .wait delay) : (perform op w).2.cancelled = w.cancelled := by
  refine perform_frame World.cancelled fun _ _ change => ?_
  cases change with
  | handle => exact absurd rfl (handles _ _)
  | wait => exact absurd rfl (waits _)
  | _ => rfl

theorem Postgres.insertTask_jobs {db db' : Postgres} {task : Task}
    (inserted : db.insertTask task = some db') : db'.jobs = db.jobs := by
  unfold Postgres.insertTask at inserted
  split at inserted
  · cases inserted
  · cases inserted
    rfl

theorem Postgres.insertExecution_jobs {db db' : Postgres} {exec : TaskExecution}
    (inserted : db.insertExecution exec = some db') : db'.jobs = db.jobs := by
  unfold Postgres.insertExecution at inserted
  split at inserted
  · cases inserted
    rfl
  · cases inserted

theorem perform_jobs (quiet : ∀ now next id, op ≠ .updateJob now next id) :
    (perform op w).2.db.jobs = w.db.jobs := by
  refine perform_frame (·.db.jobs) fun _ _ change => ?_
  cases change with
  | updateJob => exact absurd rfl (quiet _ _ _)
  | insert inserted => exact Postgres.insertTask_jobs inserted
  | record _ inserted => exact Postgres.insertExecution_jobs inserted
  | _ => rfl

/-- A status write takes effect or leaves the status as it was. -/
theorem perform_setStatus_state (id : String) (status : Status) (w : World Raw) :
    (perform (.setStatus id status) w).2.redis.state id =
      if w.fails .setStatus then w.redis.state id else some status := by
  cases down : w.fails .setStatus with
  | true => simp [perform, World.setStatus, World.attempt_of_fails down, World.spend]
  | false => simp [perform, World.setStatus, World.attempt_of_works down, World.putState]

/-- Only the write of a status brings it about. -/
theorem perform_wrote {id : String} {status : Status} (before : w.redis.state id ≠ some status)
    (after : (perform op w).2.redis.state id = some status) : op = .setStatus id status := by
  by_cases writes : ∃ other, op = .setStatus id other
  · obtain ⟨other, rfl⟩ := writes
    rw [perform_setStatus_state] at after
    split at after
    · exact absurd after before
    · rw [Option.some.inj after]
  · exact absurd ((perform_state fun other eq => writes ⟨other, eq⟩).symm.trans after) before

/-- Whether the live status of a task is terminal. -/
def World.terminal (w : World Raw) (id : String) : Bool :=
  (w.redis.state id).any Status.isTerminal

theorem perform_terminal {id : String} (quiet : ∀ status, op ≠ .setStatus id status) :
    (perform op w).2.terminal id = w.terminal id := by
  unfold World.terminal
  rw [perform_state quiet]

theorem perform_setStatus_ok {id : String} {status : Status} :
    (perform (.setStatus id status) w).1 = none ↔ w.fails .setStatus = false := by
  cases down : w.fails .setStatus with
  | true => simp [perform, World.setStatus, World.attempt_of_fails down]
  | false => simp [perform, World.setStatus, World.attempt_of_works down]

theorem perform_metas (quiet : ∀ task, op ≠ .setTaskMeta task) :
    (perform op w).2.redis.metas = w.redis.metas := by
  refine perform_frame (·.redis.metas) fun _ _ change => ?_
  cases change with
  | metas => exact absurd rfl (quiet _)
  | _ => rfl

theorem perform_setTaskMeta_metas (task : Task) (w : World Raw) :
    (perform (.setTaskMeta task) w).2.redis.metas =
      if w.fails .setTaskMeta then w.redis.metas
      else Function.update w.redis.metas task.id (some task) := by
  cases down : w.fails .setTaskMeta with
  | true => simp [perform, World.setTaskMeta, World.attempt_of_fails down, World.spend]
  | false =>
      simp [perform, World.setTaskMeta, World.attempt_of_works down, World.spend, World.putMeta]

theorem perform_setTaskMeta_ok {task : Task} :
    (perform (.setTaskMeta task) w).1 = none ↔ w.fails .setTaskMeta = false := by
  cases down : w.fails .setTaskMeta with
  | true => simp [perform, World.setTaskMeta, World.attempt_of_fails down]
  | false => simp [perform, World.setTaskMeta, World.attempt_of_works down]

/-- What a call does to the copy of a task: nothing, or it is the write of another. -/
theorem perform_copy (op : Op Raw) (w : World Raw) (id : String) :
    (perform op w).2.redis.metas id = w.redis.metas id ∨
    ∃ task, op = .setTaskMeta task ∧ task.id = id ∧
      (perform op w).2.redis.metas id = some task := by
  cases op with
  | setTaskMeta task =>
      rw [perform_setTaskMeta_metas]
      cases down : w.fails .setTaskMeta with
      | true => exact .inl rfl
      | false =>
          by_cases same : id = task.id
          · subst same
            exact .inr ⟨task, rfl, rfl, Function.update_self ..⟩
          · exact .inl (Function.update_of_ne same ..)
  | _ => exact .inl (congrFun (perform_metas (by simp)) id)

theorem perform_fails_now (handles : ∀ handler task, op ≠ .handle handler task)
    (waits : ∀ delay, op ≠ .wait delay) (other : op.kind ≠ some c) :
    (perform op w).2.fails c = w.fails c := by
  unfold World.fails
  rw [perform_cancelled handles waits, perform_fails other]

theorem perform_publish_kafka (topic key : String) (value : Raw) (origin : Origin) :
    (perform (.publish topic key value origin) w).2.kafka =
      w.kafka ++ if w.fails .publish then [] else [⟨⟨topic, key, value⟩, origin⟩] := by
  cases down : w.fails .publish with
  | true => simp [perform, World.publish, World.attempt_of_fails down, World.spend]
  | false => simp [perform, World.publish, World.attempt_of_works down, World.spend]

theorem perform_publish_state (topic key : String) (value : Raw) (origin : Origin)
    (w : World Raw) :
    (perform (.publish topic key value origin) w).2.redis.state = w.redis.state :=
  funext fun _ => perform_state (by simp)

theorem perform_publish_ok {topic key : String} {value : Raw} {origin : Origin} :
    (perform (.publish topic key value origin) w).1 = none ↔ w.fails .publish = false := by
  cases down : w.fails .publish with
  | true => simp [perform, World.publish, World.attempt_of_fails down]
  | false => simp [perform, World.publish, World.attempt_of_works down]

/-- A call that reports nothing exactly when its kind works fails with some error. -/
theorem answer_cases {answer : Option Error} {down : Bool} (ok : answer = none ↔ down = false) :
    (down = true ∧ ∃ err, answer = some err) ∨ (down = false ∧ answer = none) := by
  cases down with
  | false => exact .inr ⟨rfl, ok.mpr rfl⟩
  | true =>
      refine .inl ⟨rfl, Option.ne_none_iff_exists'.mp fun none => ?_⟩
      exact Bool.false_ne_true (ok.mp none).symm

/-- The log grows by the message of a publication, or not at all. -/
theorem perform_log (op : Op Raw) (w : World Raw) :
    (perform op w).2.kafka = w.kafka ∨ ∃ topic key value origin,
      op = .publish topic key value origin ∧ w.fails .publish = false ∧
        (perform op w).2.kafka = w.kafka ++ [⟨⟨topic, key, value⟩, origin⟩] := by
  cases op with
  | publish topic key value origin =>
      rw [perform_publish_kafka]
      cases down : w.fails .publish with
      | true => exact .inl (List.append_nil _)
      | false => exact .inr ⟨topic, key, value, origin, rfl, rfl, rfl⟩
  | _ => exact .inl (perform_kafka (by simp))

/-- A record of the log was there before the call, or the call published it. -/
theorem perform_record {r : Record Raw} (listed : r ∈ (perform op w).2.kafka) :
    r ∈ w.kafka ∨ op = .publish r.message.topic r.message.key r.message.value r.origin := by
  rcases perform_log op w with same | ⟨topic, key, value, origin, rfl, _, grown⟩
  · exact .inl (same ▸ listed)
  · rw [grown] at listed
    refine (List.mem_append.mp listed).imp_right fun last => ?_
    rw [List.mem_singleton.mp last]

theorem perform_logged {r : Record Raw} (op : Op Raw) (member : r ∈ w.kafka) :
    r ∈ (perform op w).2.kafka := by
  rcases perform_log op w with same | ⟨_, _, _, _, _, _, grown⟩
  · rwa [same]
  · rw [grown]
    exact List.mem_append_left _ member

theorem perform_log_length (op : Op Raw) (w : World Raw) :
    w.kafka.length ≤ (perform op w).2.kafka.length := by
  rcases perform_log op w with same | ⟨_, _, _, _, _, _, grown⟩
  · rw [same]
  · rw [grown, List.length_append]
    exact Nat.le_add_right _ _

theorem Postgres.insertExecution_tasks {db db' : Postgres} {exec : TaskExecution}
    (inserted : db.insertExecution exec = some db') : db'.tasks = db.tasks := by
  unfold Postgres.insertExecution at inserted
  split at inserted <;> cases inserted
  rfl

theorem perform_tasks (creates : ∀ task, op ≠ .create task)
    (updates : ∀ id status, op ≠ .updateStatus id status) :
    (perform op w).2.db.tasks = w.db.tasks := by
  refine perform_frame (·.db.tasks) fun _ _ change => ?_
  cases change with
  | insert => exact absurd rfl (creates _)
  | update => exact absurd rfl (updates _ _)
  | record _ inserted => exact Postgres.insertExecution_tasks inserted
  | _ => rfl

/-- An insertion adds a row under an identifier that has none, or nothing. -/
theorem Postgres.insertTask_row {db db' : Postgres} {task : Task}
    (inserted : db.insertTask task = some db') (id : String) :
    db'.tasks id = db.tasks id ∨
      db.tasks id = none ∧ db'.tasks id = some { task with completedAt := none } := by
  unfold Postgres.insertTask at inserted
  split at inserted
  · cases inserted
  · rename_i free
    cases inserted
    by_cases same : id = task.id
    · subst same
      refine .inr ⟨?_, Function.update_self ..⟩
      simp only [Bool.or_eq_true, not_or] at free
      exact Option.not_isSome_iff_eq_none.mp free.1.1
    · exact .inl (Function.update_of_ne same ..)

/-- What a call does to the row of a task: nothing, the insertion of a new row, or an
update of its status. -/
theorem perform_row (op : Op Raw) (w : World Raw) (id : String) :
    (perform op w).2.db.tasks id = w.db.tasks id ∨
    (∃ task, op = .create task ∧ w.db.tasks id = none ∧
      (perform op w).2.db.tasks id = some { task with completedAt := none }) ∨
    ∃ other status row now, op = .updateStatus other status ∧ w.db.tasks id = some row ∧
      (perform op w).2.db.tasks id = some (row.withStatus status now) := by
  cases op with
  | create task =>
      cases down : w.fails .create with
      | true =>
          left
          simp only [perform, World.create, World.attempt_of_fails down]
          rfl
      | false =>
          simp only [perform, World.create, World.attempt_of_works down]
          cases inserted : (w.spend .create).db.insertTask task with
          | none => exact .inl rfl
          | some db =>
              rcases Postgres.insertTask_row inserted id with same | ⟨free, row⟩
              · exact .inl same
              · exact .inr (.inl ⟨task, rfl, free, row⟩)
  | updateStatus other status =>
      cases down : w.tick.fails .updateStatus with
      | true =>
          left
          simp only [perform, World.updateStatus, World.attempt_of_fails down]
          rfl
      | false =>
          simp only [perform, World.updateStatus, World.attempt_of_works down]
          by_cases same : id = other
          · subst same
            cases held : w.db.tasks id with
            | none =>
                left
                simp [Postgres.updateTask, Postgres.putTask, World.spend, World.tick, held]
            | some row =>
                refine .inr (.inr ⟨id, status, row, w.script.clock 0, rfl, rfl, ?_⟩)
                simp [Postgres.updateTask, Postgres.putTask, World.spend, World.tick, held]
          · exact .inl (Function.update_of_ne same ..)
  | _ => exact .inl (congrFun (perform_tasks (by simp) (by simp)) id)

/-- A cancelled context stays cancelled. -/
theorem perform_of_cancelled (cancelled : w.cancelled = true) :
    (perform op w).2.cancelled = true := by
  refine perform_keeps (I := fun w' => w'.cancelled = true) (fun _ _ change same => ?_) cancelled
  cases change with
  | handle => exact Bool.or_eq_true_iff.mpr (.inl same)
  | wait => exact Bool.or_eq_true_iff.mpr (.inl same)
  | _ => exact same

/-- Once the context is cancelled no call reaches the live statuses. -/
theorem perform_state_of_cancelled (cancelled : w.cancelled = true) (id : String) :
    (perform op w).2.redis.state id = w.redis.state id := by
  by_cases writes : ∃ status, op = .setStatus id status
  · obtain ⟨status, rfl⟩ := writes
    have down : w.fails .setStatus = true := Bool.or_eq_true_iff.mpr (.inl cancelled)
    simp only [perform, World.setStatus, World.attempt_of_fails down]
    rfl
  · exact perform_state fun status eq => writes ⟨status, eq⟩

theorem Service.run_state_of_cancelled (p : Service Raw α) (cancelled : w.cancelled = true)
    (id : String) : (Service.run p w).2.redis.state id = w.redis.state id := by
  induction p generalizing w with
  | pure value => rfl
  | call op next ih =>
      exact (ih _ (perform_of_cancelled cancelled)).trans (perform_state_of_cancelled cancelled id)

/-- Calls that neither publish, run a handler nor wait. -/
def Op.Books : Op Raw → Prop
  | .publish _ _ _ _ => False
  | .handle _ _ => False
  | .wait _ => False
  | _ => True

/-- The same records, handler calls and cancellation, and the same publish faults
and handler outcomes to come. -/
structure World.SameLog (s s' : World Raw) : Prop where
  kafka : s'.kafka = s.kafka
  handled : s'.handled = s.handled
  cancelled : s'.cancelled = s.cancelled
  outcome : s'.script.outcome = s.script.outcome
  publish : s'.script.fails .publish = s.script.fails .publish

theorem World.SameLog.refl (s : World Raw) : World.SameLog s s := ⟨rfl, rfl, rfl, rfl, rfl⟩

theorem World.SameLog.trans {s s' s'' : World Raw} (first : World.SameLog s s')
    (second : World.SameLog s' s'') : World.SameLog s s'' :=
  ⟨second.kafka.trans first.kafka, second.handled.trans first.handled,
    second.cancelled.trans first.cancelled, second.outcome.trans first.outcome,
    second.publish.trans first.publish⟩

theorem World.SameLog.fails {s s' : World Raw} (same : World.SameLog s s') :
    s'.fails .publish = s.fails .publish := by
  unfold World.fails
  rw [same.cancelled, same.publish]

theorem World.SameLog.perform {s : World Raw} (same : World.SameLog s w) (op : Op Raw)
    (books : op.Books) : World.SameLog s (perform op w).2 := by
  have publishes : ∀ topic key value origin, op ≠ .publish topic key value origin := by
    rintro topic key value origin rfl
    exact books
  have handles : ∀ handler task, op ≠ .handle handler task := by
    rintro handler task rfl
    exact books
  have waits : ∀ delay, op ≠ .wait delay := by
    rintro delay rfl
    exact books
  exact ⟨(perform_kafka publishes).trans same.kafka, (perform_handled handles).trans same.handled,
    (perform_cancelled handles waits).trans same.cancelled,
    (perform_outcome handles).trans same.outcome,
    (perform_publishFaults publishes).trans same.publish⟩

theorem Service.run_sameLog {p : Service Raw α} (books : Prog.All Op.Books p) (s : World Raw) :
    World.SameLog s (Service.run p s).2 :=
  books.run_invariant (fun op _ books same => same.perform op books) (.refl s)

/-! ## Reliable infrastructure -/

namespace World

/-- No store, repository or producer call fails by itself. -/
def Reliable (w : World Raw) : Prop := ∀ c n, w.script.fails c n = false

/-- Every call made now works. -/
structure Up (w : World Raw) : Prop where
  reliable : w.Reliable
  live : w.cancelled = false

/-- The context is not cancelled, now or later. -/
structure Uncancelled (w : World Raw) : Prop where
  live : w.cancelled = false
  inHandle : ∀ n, w.script.cancelInHandle n = false
  inWait : ∀ n, w.script.cancelInWait n = false

/-- Every call made now or later works. -/
structure Calm (w : World Raw) : Prop extends w.Uncancelled where
  reliable : w.Reliable

theorem Calm.up (calm : w.Calm) : w.Up := ⟨calm.reliable, calm.live⟩

/-- No store or repository call fails by itself; the producer may. -/
def StoresReliable (w : World Raw) : Prop := ∀ c, c ≠ .publish → ∀ n, w.script.fails c n = false

/-- Every store or repository call made now works. -/
structure StoresUp (w : World Raw) : Prop where
  reliable : w.StoresReliable
  live : w.cancelled = false

/-- Every store or repository call made now or later works. -/
structure StoresCalm (w : World Raw) : Prop extends w.Uncancelled where
  reliable : w.StoresReliable

theorem Up.stores (up : w.Up) : w.StoresUp := ⟨fun c _ => up.reliable c, up.live⟩

theorem Calm.stores (calm : w.Calm) : w.StoresCalm :=
  ⟨calm.toUncancelled, fun c _ => calm.reliable c⟩

theorem StoresCalm.up (calm : w.StoresCalm) : w.StoresUp := ⟨calm.reliable, calm.live⟩

theorem spend_of_reliable (reliable : ∀ n, w.script.fails c n = false) : w.spend c = w := by
  have same : Function.update w.script.fails c (rest (w.script.fails c)) = w.script.fails := by
    rw [Function.update_eq_self_iff]
    funext n
    rw [rest_apply, reliable, reliable]
  unfold World.spend
  rw [same]

theorem Reliable.spend (reliable : w.Reliable) (c : Call) : w.spend c = w :=
  spend_of_reliable (reliable c)

theorem Reliable.fails (reliable : w.Reliable) (c : Call) : w.fails c = w.cancelled := by
  unfold World.fails
  rw [reliable, Bool.or_false]

theorem StoresUp.fails (up : w.StoresUp) (c : Call) (store : c ≠ .publish) : w.fails c = false := by
  unfold World.fails
  rw [up.reliable c store, up.live]
  rfl

theorem StoresUp.attempt (up : w.StoresUp) (c : Call) (store : c ≠ .publish)
    {failure : Error → α} {effect : World Raw → α × World Raw} :
    w.attempt c failure effect = effect w := by
  rw [attempt_of_works (up.fails c store), spend_of_reliable (up.reliable c store)]

theorem Up.attempt (up : w.Up) {failure : Error → α} {effect : World Raw → α × World Raw} :
    w.attempt c failure effect = effect w := by
  rw [attempt_of_works ((up.reliable.fails c).trans up.live), up.reliable.spend]

end World

theorem World.Up.setStatus_terminal (up : w.Up) (id : String) (status : Status) :
    (perform (.setStatus id status) w).2.terminal id = status.isTerminal := by
  unfold World.terminal
  rw [perform_setStatus_state, up.reliable.fails, up.live]
  rfl

theorem World.Up.publish (up : w.Up) (topic key : String) (value : Raw) (origin : Origin) :
    (perform (.publish topic key value origin) w).1 = none ∧
      (perform (.publish topic key value origin) w).2.kafka =
        w.kafka ++ [⟨⟨topic, key, value⟩, origin⟩] := by
  simp only [TaskFlow.perform, World.publish, up.attempt, and_self]

/-- A read of the live status leaves a world with reliable stores as it is. -/
theorem World.StoresReliable.perform_getStatus (reliable : w.StoresReliable) (id : String) :
    (perform (.getStatus id) w).2 = w := by
  have same : w.spend .getStatus = w := World.spend_of_reliable (reliable .getStatus nofun)
  cases down : w.fails .getStatus with
  | true =>
      simp only [TaskFlow.perform, World.getStatus, World.attempt_of_fails down]
      exact same
  | false =>
      simp only [TaskFlow.perform, World.getStatus, World.attempt_of_works down]
      exact same

theorem World.Reliable.perform_getStatus (reliable : w.Reliable) (id : String) :
    (perform (.getStatus id) w).2 = w :=
  World.StoresReliable.perform_getStatus (fun c _ => reliable c) id

theorem perform_reliable (reliable : w.Reliable) : (perform op w).2.Reliable := by
  refine perform_keeps (fun w' _ change reliable => ?_) reliable
  cases change with
  | @spend _ c _ _ => rwa [reliable.spend c]
  | _ => exact reliable

theorem perform_storesReliable (reliable : w.StoresReliable) :
    (perform op w).2.StoresReliable := by
  refine perform_keeps (fun w' _ change reliable => ?_) reliable
  cases change with
  | @spend _ c _ _ =>
      by_cases store : c = .publish
      · intro other ne n
        exact (congrFun (Function.update_of_ne (store ▸ ne) ..) n).trans (reliable other ne n)
      · rwa [World.spend_of_reliable (reliable c store)]
  | _ => exact reliable

theorem World.StoresUp.keep (up : w.StoresUp) (op : Op Raw)
    (handles : ∀ handler task, op ≠ .handle handler task) (waits : ∀ delay, op ≠ .wait delay) :
    (perform op w).2.StoresUp :=
  ⟨perform_storesReliable up.reliable, (perform_cancelled handles waits).trans up.live⟩

theorem World.Up.keep (up : w.Up) (op : Op Raw)
    (handles : ∀ handler task, op ≠ .handle handler task) (waits : ∀ delay, op ≠ .wait delay) :
    (perform op w).2.Up :=
  ⟨perform_reliable up.reliable, (perform_cancelled handles waits).trans up.live⟩

theorem perform_uncancelled (calm : w.Uncancelled) : (perform op w).2.Uncancelled := by
  refine perform_keeps (fun w' _ change calm => ?_) calm
  cases change with
  | handle =>
      refine ⟨?_, fun n => calm.inHandle (n + 1), calm.inWait⟩
      exact Bool.or_eq_false_iff.mpr ⟨calm.live, calm.inHandle 0⟩
  | wait =>
      refine ⟨?_, calm.inHandle, fun n => calm.inWait (n + 1)⟩
      exact Bool.or_eq_false_iff.mpr ⟨calm.live, calm.inWait 0⟩
  | _ => exact ⟨calm.live, calm.inHandle, calm.inWait⟩

theorem perform_calm (calm : w.Calm) : (perform op w).2.Calm :=
  ⟨perform_uncancelled calm.toUncancelled, perform_reliable calm.reliable⟩

theorem Service.run_reliable {p : Service Raw α} (reliable : w.Reliable) :
    (Service.run p w).2.Reliable := by
  induction p generalizing w with
  | pure value => exact reliable
  | call op next ih => exact ih _ (perform_reliable reliable)

theorem Service.run_uncancelled {p : Service Raw α} (calm : w.Uncancelled) :
    (Service.run p w).2.Uncancelled := by
  induction p generalizing w with
  | pure value => exact calm
  | call op next ih => exact ih _ (perform_uncancelled calm)

theorem perform_storesCalm (calm : w.StoresCalm) : (perform op w).2.StoresCalm :=
  ⟨perform_uncancelled calm.toUncancelled, perform_storesReliable calm.reliable⟩

theorem Service.run_storesCalm {p : Service Raw α} (calm : w.StoresCalm) :
    (Service.run p w).2.StoresCalm := by
  induction p generalizing w with
  | pure value => exact calm
  | call op next ih => exact ih _ (perform_storesCalm calm)

theorem Service.run_calm {p : Service Raw α} (calm : w.Calm) : (Service.run p w).2.Calm :=
  ⟨Service.run_uncancelled calm.toUncancelled, Service.run_reliable calm.reliable⟩

end TaskFlow
