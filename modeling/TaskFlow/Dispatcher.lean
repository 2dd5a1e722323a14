import TaskFlow.Worker

/-!
# `services/dispatcher`

`Dispatcher.route` is the Kafka handler of the dispatcher: it sends a task to the
topic of its type, and malformed, untyped and rate-limited messages to the
dead-letter queue.
-/

namespace TaskFlow

open Effect

/-- `TopicPending`. -/
def topicPending : String := "tasks.pending"

/-- `workerTopic`. -/
def workerTopic (taskType : String) : String := "tasks.worker." ++ taskType

theorem workerTopic_injective : Function.Injective workerTopic := by
  intro a b same
  exact (String.append_right_inj _).mp same

/-- A type never makes the topic of a worker one of the other two. -/
theorem workerTopic_ne (taskType : String) :
    workerTopic taskType ≠ topicPending ∧ workerTopic taskType ≠ topicDLQ := by
  have seventh : (workerTopic taskType).toList.take 7 = "tasks.w".toList := by
    unfold workerTopic
    rw [String.toList_append, List.take_append_of_le_length (by decide)]
    decide
  refine ⟨fun same => ?_, fun same => ?_⟩
  · rw [same] at seventh
    exact absurd seventh (by decide)
  · rw [same] at seventh
    exact absurd seventh (by decide)

/-- `dispatcher.Dispatcher`: whether a limiter is configured. -/
structure Dispatcher : Type where
  limited : Bool

namespace Dispatcher

variable {Raw : Type}

/-- `Dispatcher.toDLQ`. -/
def toDLQ (payload : Raw) : Service Raw (Option Error) :=
  ask (.publish topicDLQ "" payload .dispatcher)

/-- `route` once the task is neither untyped nor over its limit: publish first,
then the best-effort status. -/
def forward (msg : Message Raw) (task : Task) : Service Raw (Option Error) := do
  match ← ask (.publish (workerTopic task.type) task.id msg.value .dispatcher) with
  | some err => pure (some (.wrap ("publish to " ++ workerTopic task.type) err))
  | none => do
      let _ ← ask (.setStatus task.id .queued)
      let _ ← ask (.count (.dispatcherTasksRouted task.type) 1)
      pure none

/-- `route` after the limiter answered: an error of the limiter lets the task
through. -/
def afterLimiter (msg : Message Raw) (task : Task) :
    Except Error Bool → Service Raw (Option Error)
  | .ok false => do
      let _ ← ask (.count .dispatcherRateLimitedTotal 1)
      let _ ← ask (.count .dispatcherDLQTotal 1)
      toDLQ msg.value
  | .ok true => forward msg task
  | .error _ => forward msg task

/-- `route` on a message that goes to the dead-letter queue. -/
def reject (msg : Message Raw) : Service Raw (Option Error) := do
  let _ ← ask (.count .dispatcherDLQTotal 1)
  toDLQ msg.value

/-- `Dispatcher.route`. -/
def route (d : Dispatcher) (json : Json Raw) (msg : Message Raw) : Service Raw (Option Error) :=
  match json.unmarshal msg.value with
  | none => reject msg
  | some task =>
      if task.type = "" then reject msg
      else if d.limited then do
        let allowed ← ask (.allow task.type)
        afterLimiter msg task allowed
      else forward msg task

end Dispatcher

/-! ## The calls of the dispatcher -/

/-- The calls the dispatcher makes. -/
def Op.Routes {Raw : Type} : Op Raw → Prop
  | .setStatus _ status => status = .queued
  | .publish _ _ _ _ => True
  | .allow _ => True
  | .count _ _ => True
  | _ => False

namespace Dispatcher

variable {Raw : Type}

theorem route_all (d : Dispatcher) (json : Json Raw) (msg : Message Raw) :
    Prog.All Op.Routes (d.route json msg) := by
  have forward : ∀ task, Prog.All Op.Routes (forward msg task) := by
    intro task
    refine ⟨trivial, fun answer => ?_⟩
    cases answer with
    | none => exact ⟨rfl, fun _ => ⟨trivial, fun _ => trivial⟩⟩
    | some err => trivial
  have reject : Prog.All Op.Routes (reject msg) :=
    ⟨trivial, fun _ => ⟨trivial, fun _ => trivial⟩⟩
  unfold route
  split
  · exact reject
  · rename_i task decoded
    split
    · exact reject
    · split
      · refine ⟨trivial, fun allowed => ?_⟩
        rcases allowed with err | (_ | _)
        · exact forward task
        · exact ⟨trivial, fun _ => ⟨trivial, fun _ => ⟨trivial, fun _ => trivial⟩⟩⟩
        · exact forward task
      · exact forward task

end Dispatcher

end TaskFlow
