import TaskFlow.SubmissionSteps

/-!
# What a failed submission leaves behind

A submission writes the cached copy, the live status, the row and the message, in
this order, and gives up at the first failure of the copy, the status or the message
without taking back what it has written.

* `Gateway.enqueue_cases`: the four ways in which the calls can end.
* `Submission.traceless_iff`: for a given request and pattern of failures, a failure
  leaves the stores and the log alone, whatever they hold, exactly when the request is
  invalid, the very first write fails, or nothing that matters fails.
-/

namespace TaskFlow

open Effect

variable {Raw : Type}

namespace Gateway

variable (json : Json Raw) (task : Task) (w : World Raw)

/-- After the cached copy. -/
def cached : World Raw := (perform (.setTaskMeta task) w).2

/-- After the live status. -/
def marked : World Raw := (perform (.setStatus task.id .pending) (cached task w)).2

/-- After the message. -/
def published : World Raw :=
  (perform (.publish topicPending task.id (json.marshal task) .gateway)
    (perform (.create task) (marked task w)).2).2

theorem marked_fails_publish :
    (perform (.create task) (marked task w)).2.fails .publish = w.fails .publish := by
  unfold marked cached
  rw [perform_fails_now (by simp) (by simp) (by simp [Op.kind]),
    perform_fails_now (by simp) (by simp) (by simp [Op.kind]),
    perform_fails_now (by simp) (by simp) (by simp [Op.kind])]

theorem cached_fails_setStatus : (cached task w).fails .setStatus = w.fails .setStatus :=
  perform_fails_now (by simp) (by simp) (by simp [Op.kind])

/-- The four ways in which the calls of a submission end. -/
theorem enqueue_cases :
    (w.fails .setTaskMeta = true ∧
      Service.run (enqueue json task) w =
        (some (.internal "failed to create task"), cached task w)) ∨
    (w.fails .setTaskMeta = false ∧ w.fails .setStatus = true ∧
      Service.run (enqueue json task) w =
        (some (.internal "failed to create task"), marked task w)) ∨
    (w.fails .setTaskMeta = false ∧ w.fails .setStatus = false ∧ w.fails .publish = true ∧
      Service.run (enqueue json task) w =
        (some (.internal "failed to enqueue task"), published json task w)) ∨
    (w.fails .setTaskMeta = false ∧ w.fails .setStatus = false ∧ w.fails .publish = false ∧
      Service.run (enqueue json task) w = (none, published json task w)) := by
  have metaOk : (perform (.setTaskMeta task) w).1 = none ↔ w.fails .setTaskMeta = false :=
    perform_setTaskMeta_ok
  have statusOk : (perform (.setStatus task.id .pending) (cached task w)).1 = none ↔
      w.fails .setStatus = false := by
    rw [← cached_fails_setStatus task w]
    exact perform_setStatus_ok
  have publishOk : (perform (.publish topicPending task.id (json.marshal task) .gateway)
      (perform (.create task) (marked task w)).2).1 = none ↔ w.fails .publish = false := by
    rw [← marked_fails_publish task w]
    exact perform_publish_ok
  have run : Service.run (enqueue json task) w =
      Service.run (afterCache json task (perform (.setTaskMeta task) w).1) (cached task w) := by
    rw [enqueue_eq]
    rfl
  have runMark : Service.run (afterCache json task none) (cached task w) =
      Service.run (afterMark json task (perform (.setStatus task.id .pending) (cached task w)).1)
        (marked task w) := rfl
  have runPublish : Service.run (afterMark json task none) (marked task w) =
      Service.run (afterPublish
        (perform (.publish topicPending task.id (json.marshal task) .gateway)
          (perform (.create task) (marked task w)).2).1) (published json task w) := rfl
  rcases answer_cases metaOk with ⟨down, err, answer⟩ | ⟨works, answer⟩
  · rw [run, answer]
    exact .inl ⟨down, rfl⟩
  rw [run, answer, runMark]
  rcases answer_cases statusOk with ⟨down, err, answer⟩ | ⟨statusWorks, answer⟩
  · rw [answer]
    exact .inr (.inl ⟨works, down, rfl⟩)
  rw [answer, runPublish]
  rcases answer_cases publishOk with ⟨down, err, answer⟩ | ⟨publishWorks, answer⟩
  · rw [answer]
    exact .inr (.inr (.inl ⟨works, statusWorks, down, rfl⟩))
  · rw [answer]
    exact .inr (.inr (.inr ⟨works, statusWorks, publishWorks, rfl⟩))

/-- A submission is accepted exactly when none of its three fatal calls fails. -/
theorem enqueue_ok_iff :
    (Service.run (enqueue json task) w).1 = none ↔
      w.fails .setTaskMeta = false ∧ w.fails .setStatus = false ∧ w.fails .publish = false := by
  rcases enqueue_cases json task w with ⟨down, run⟩ | ⟨_, down, run⟩ | ⟨_, _, down, run⟩ |
    ⟨first, second, third, run⟩
  · simp [run, down]
  · simp [run, down]
  · simp [run, down]
  · simp [run, first, second, third]

/-- Once the copy is cached, it stays cached. -/
theorem published_metas : (published json task w).redis.metas = (cached task w).redis.metas := by
  unfold published marked
  rw [perform_metas (by simp), perform_metas (by simp), perform_metas (by simp)]

theorem cached_metas (works : w.fails .setTaskMeta = false) :
    (cached task w).redis.metas task.id = some task := by
  unfold cached
  rw [perform_setTaskMeta_metas, works]
  exact Function.update_self ..

/-- Whatever happens after it, the copy of the first write is there. -/
theorem enqueue_metas (works : w.fails .setTaskMeta = false) :
    (Service.run (enqueue json task) w).2.redis.metas task.id = some task := by
  have markedMetas : (marked task w).redis.metas = (cached task w).redis.metas :=
    perform_metas (by simp)
  rcases enqueue_cases json task w with ⟨down, _⟩ | ⟨_, _, run⟩ | ⟨_, _, _, run⟩ | ⟨_, _, _, run⟩
  · rw [works] at down
    exact absurd down Bool.false_ne_true
  · rw [run, markedMetas, cached_metas task w works]
  · rw [run, published_metas, cached_metas task w works]
  · rw [run, published_metas, cached_metas task w works]

/-- A failure of the first write leaves nothing behind. -/
theorem cached_of_fails (down : w.fails .setTaskMeta = true) :
    cached task w = w.spend .setTaskMeta := by
  simp only [cached, perform, World.setTaskMeta, World.attempt_of_fails down]

end Gateway

namespace Submission

variable {json : Json Raw} {r : Submission} {w : World Raw}

/-- A submission that reports a failure has left the Redis keys, the tasks and the
log as they were. -/
def Traceless (json : Json Raw) (r : Submission) (w : World Raw) : Prop :=
  (Service.run (r.submit json) w).1 ≠ none →
    (Service.run (r.submit json) w).2.redis = w.redis ∧
    (Service.run (r.submit json) w).2.db.tasks = w.db.tasks ∧
    (Service.run (r.submit json) w).2.kafka = w.kafka

/-- The stores and the log agree. -/
def SameStores (w w' : World Raw) : Prop :=
  w'.redis = w.redis ∧ w'.db = w.db ∧ w'.kafka = w.kafka

/-- An answer that counts leaves the stores and the log alone. -/
theorem counts_sameStores {β : Type} {p : Service Raw β} (w : World Raw)
    (counts : Prog.All (fun op => ∃ m n, op = .count m n) p) :
    SameStores w (Service.run p w).2 := by
  refine counts.run_invariant (I := SameStores w) (fun op w' hyp same => ?_) ⟨rfl, rfl, rfl⟩
  obtain ⟨m, n, rfl⟩ := hyp
  exact same

/-- Past the validation, a submission ends as its calls do. -/
theorem submit_valid {req : SubmitTaskRequest} (json : Json Raw) (valid : r.fields = some req)
    (w : World Raw) :
    (Service.run (r.submit json) w).1 =
        (Service.run (Gateway.enqueue json
          (Gateway.newTask req (w.script.uuid 0) (w.script.clock 0))) w.draw.tick).1 ∧
      SameStores
        (Service.run (Gateway.enqueue json
          (Gateway.newTask req (w.script.uuid 0) (w.script.clock 0))) w.draw.tick).2
        (Service.run (r.submit json) w).2 := by
  obtain ⟨answer, counts, reports, eq⟩ := submit_eq json valid
  rw [eq, Gateway.submit_eq]
  exact ⟨reports .., counts_sameStores _ (counts ..)⟩

/-- A request that is invalid leaves no trace, nor does one whose first write fails or
whose fatal calls all work. -/
theorem traceless_of (w : World Raw)
    (condition : r.fields = none ∨ w.fails .setTaskMeta = true ∨
      (w.fails .setStatus = false ∧ w.fails .publish = false)) : Traceless json r w := by
  intro failed
  cases valid : r.fields with
  | none =>
      obtain ⟨failure, eq⟩ := submit_invalid json valid
      rw [eq]
      exact ⟨rfl, rfl, rfl⟩
  | some req =>
      obtain ⟨answer, redis, db, kafka⟩ := submit_valid json valid w
      rw [redis, db, kafka]
      rw [answer] at failed
      rcases Gateway.enqueue_cases json (Gateway.newTask req (w.script.uuid 0) (w.script.clock 0))
        w.draw.tick with ⟨down, run⟩ | ⟨works, down, _⟩ | ⟨works, _, down, _⟩ | ⟨_, _, _, run⟩
      · rw [run, Gateway.cached_of_fails _ _ down]
        exact ⟨rfl, rfl, rfl⟩
      · rcases condition with invalid | first | ⟨status, _⟩
        · exact absurd (valid.symm.trans invalid) (Option.some_ne_none req)
        · exact absurd (works.symm.trans first) Bool.false_ne_true
        · exact absurd (status.symm.trans down) Bool.false_ne_true
      · rcases condition with invalid | first | ⟨_, publish⟩
        · exact absurd (valid.symm.trans invalid) (Option.some_ne_none req)
        · exact absurd (works.symm.trans first) Bool.false_ne_true
        · exact absurd (publish.symm.trans down) Bool.false_ne_true
      · rw [run] at failed
        exact absurd rfl failed

/-- For a request and the failures of its calls, given by the surroundings `w`: its
failure leaves no trace, whatever the stores and the log hold, exactly when the request
is invalid, the write of the copy fails, or neither the status nor the message fails. -/
theorem traceless_iff (json : Json Raw) (r : Submission) (w : World Raw) :
    (∀ redis db kafka,
      Traceless json r { w with redis := redis, db := db, kafka := kafka }) ↔
    r.fields = none ∨ w.fails .setTaskMeta = true ∨
      (w.fails .setStatus = false ∧ w.fails .publish = false) := by
  refine ⟨fun traceless => ?_, fun condition redis db kafka => traceless_of _ condition⟩
  by_contra violated
  obtain ⟨valid, first, later⟩ := by simpa only [not_or] using violated
  obtain ⟨req, valid⟩ := Option.ne_none_iff_exists'.mp valid
  have works : w.fails .setTaskMeta = false := Bool.eq_false_iff.mpr first
  -- In a store without copies, the copy of this task is the trace.
  have same := traceless { w.redis with metas := fun _ => none } w.db w.kafka
  generalize bare : { w with
    redis := { w.redis with metas := fun _ => none }, db := w.db, kafka := w.kafka } = v at same
  have fails : ∀ c, v.draw.tick.fails c = w.fails c := by
    subst bare
    exact fun _ => rfl
  have none_cached : v.redis.metas (v.script.uuid 0) = none := by
    subst bare
    rfl
  obtain ⟨answer, stores⟩ := submit_valid json valid v
  have failed : (Service.run (r.submit json) v).1 ≠ none := by
    rw [answer, Ne, Gateway.enqueue_ok_iff, fails, fails, fails]
    exact fun all => later all.2
  have trace := Gateway.enqueue_metas json
    (Gateway.newTask req (v.script.uuid 0) (v.script.clock 0)) v.draw.tick
    ((fails .setTaskMeta).trans works)
  rw [← stores.1, (same failed).1] at trace
  exact absurd (none_cached.symm.trans trace).symm (Option.some_ne_none _)

/-- Surroundings in which only the broker fails. -/
def brokerDown : Script := { Script.calm with fails := fun c _ => c == .publish }

/-- With the broker down, the request is answered with an error, and the copy, the
status `PENDING` and the row stay, with no message to move them on. -/
theorem failed_submission_pending :
    (Service.run (submit plainJson (.grpc ⟨"email", [123, 125], 1, 0⟩))
        (World.fresh brokerDown)).1 = some (.internal "failed to enqueue task") ∧
      (Service.run (submit plainJson (.grpc ⟨"email", [123, 125], 1, 0⟩))
        (World.fresh brokerDown)).2.redis.state "0" = some .pending ∧
      ((Service.run (submit plainJson (.grpc ⟨"email", [123, 125], 1, 0⟩))
        (World.fresh brokerDown)).2.redis.metas "0").isSome = true ∧
      ((Service.run (submit plainJson (.grpc ⟨"email", [123, 125], 1, 0⟩))
        (World.fresh brokerDown)).2.db.tasks "0").isSome = true ∧
      (Service.run (submit plainJson (.grpc ⟨"email", [123, 125], 1, 0⟩))
        (World.fresh brokerDown)).2.kafka = [] ∧
      ¬ Traceless plainJson (.grpc ⟨"email", [123, 125], 1, 0⟩) (World.fresh brokerDown) := by
  refine ⟨rfl, rfl, rfl, rfl, rfl, fun traceless => ?_⟩
  obtain ⟨redis, _⟩ := traceless (by decide)
  have state := congrFun (congrArg Redis.state redis) "0"
  exact absurd state (by decide)

end Submission

end TaskFlow
