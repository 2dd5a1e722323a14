import TaskFlow.ConsumerPool
import TaskFlow.Effect.Balance
import Mathlib.Algebra.BigOperators.Group.Finset.Basic

/-!
# The counters of the dead-letter queue

Every call of `route` or `processMessage` that sends a message to `tasks.dlq` counts it
once, before or after the publication and whether or not the broker took it: in the words
of `Effect.Books`, the counters and the queue move apart by the publications that failed,
and by nothing else (`dlq_drift`).  So after any number of calls, interleaved in any way,
the counters show the length of the queue exactly when none of its publications failed.
-/

namespace TaskFlow

open Effect

variable {Raw ι : Type}

namespace World

/-- The messages of `tasks.dlq`. -/
def deadLetters (w : World Raw) : List (Record Raw) :=
  w.kafka.filter fun r => r.message.topic = topicDLQ

/-- `DispatcherDLQTotal` plus `WorkerDLQTotal` summed over the worker types. -/
def dlqTotal (types : Finset String) (w : World Raw) : Int :=
  w.metrics .dispatcherDLQTotal + ∑ type ∈ types, w.metrics (.workerDLQTotal type)

/-- The counters show the length of the queue. -/
def DLQCounted (types : Finset String) (w : World Raw) : Prop :=
  w.dlqTotal types = w.deadLetters.length

instance (types : Finset String) (w : World Raw) : Decidable (w.DLQCounted types) :=
  inferInstanceAs (Decidable (_ = _))

/-- How far the counters are ahead of the queue. -/
def dlqDrift (types : Finset String) (w : World Raw) : Int :=
  w.dlqTotal types - w.deadLetters.length

theorem dlqCounted_iff_drift (types : Finset String) (w : World Raw) :
    w.DLQCounted types ↔ w.dlqDrift types = 0 :=
  Int.sub_eq_zero.symm

end World

/-- The worker of a call has one of these types. -/
def Consume.Within (types : Finset String) : Consume Raw → Prop
  | .route _ _ => True
  | .process w _ => w.workerType ∈ types

/-- Dispatchers and workers of these types on any messages, each any number of times.
The surroundings may change anything but the dead letters and their counters. -/
def anyConsumers (ι : Type) (json : Json Raw) (types : Finset String) :
    System (Op Raw) Op.Ans (World Raw) ι (Consume Raw) (Option Error) where
  perform := perform
  body _ := Consume.body json
  Admits _ _ request := request.Within types
  Env w w' := w'.dlqTotal types = w.dlqTotal types ∧ w'.deadLetters = w.deadLetters

/-! ## What one call does to the drift -/

namespace Op

/-- What a call is meant to add to the drift. -/
def dlqWeight (types : Finset String) : Op Raw → Int
  | .count .dispatcherDLQTotal delta => delta
  | .count (.workerDLQTotal type) delta => if type ∈ types then delta else 0
  | .publish topic _ _ _ => if topic = topicDLQ then -1 else 0
  | _ => 0

/-- The call is a publication to `tasks.dlq` that the broker does not take. -/
def drops (w : World Raw) : Op Raw → Bool
  | .publish topic _ _ _ => topic = topicDLQ && w.fails .publish
  | _ => false

end Op

variable {types : Finset String} {w : World Raw}

theorem count_dlqTotal (metric : Metric) (delta : Int) :
    (w.count metric delta).dlqTotal types =
      w.dlqTotal types + (Op.count metric delta : Op Raw).dlqWeight types := by
  cases metric with
  | workerDLQTotal type =>
      have moved : ∀ other, (w.count (.workerDLQTotal type) delta).metrics (.workerDLQTotal other) =
          w.metrics (.workerDLQTotal other) + if type = other then delta else 0 := by
        intro other
        by_cases same : type = other
        · subst same
          simp [World.count]
        · simp [World.count, same, Ne.symm same]
      have own : (w.count (.workerDLQTotal type) delta).metrics .dispatcherDLQTotal =
          w.metrics .dispatcherDLQTotal := by simp [World.count]
      simp only [World.dlqTotal, Op.dlqWeight, own, moved, Finset.sum_add_distrib,
        Finset.sum_ite_eq, add_assoc]
  | dispatcherDLQTotal => simp [World.dlqTotal, World.count, Op.dlqWeight, add_right_comm]
  | _ => simp [World.dlqTotal, World.count, Op.dlqWeight]

theorem publish_deadLetters (types : Finset String) (topic key : String) (value : Raw)
    (origin : Origin) :
    ((perform (.publish topic key value origin) w).2.deadLetters.length : Int) =
      w.deadLetters.length - (Op.publish topic key value origin : Op Raw).dlqWeight types -
        if (Op.publish topic key value origin : Op Raw).drops w then 1 else 0 := by
  unfold World.deadLetters
  rw [perform_publish_kafka]
  by_cases letter : topic = topicDLQ
  · cases down : w.fails .publish <;>
      simp [List.filter_append, Op.dlqWeight, Op.drops, letter, down]
  · cases down : w.fails .publish <;>
      simp [List.filter_append, Op.dlqWeight, Op.drops, letter, down]

/-- A call moves the drift by its weight, and a publication that fails by one more. -/
theorem perform_dlqDrift (op : Op Raw) (w : World Raw) :
    (perform op w).2.dlqDrift types =
      w.dlqDrift types + op.dlqWeight types + if op.drops w then 1 else 0 := by
  cases op with
  | count metric delta =>
      have log : (w.count metric delta).deadLetters = w.deadLetters := rfl
      have still : (Op.count metric delta : Op Raw).drops w = false := rfl
      simp only [perform, World.dlqDrift, count_dlqTotal, log, still, Bool.false_eq_true,
        if_false]
      omega
  | publish topic key value origin =>
      have counters : (perform (.publish topic key value origin) w).2.dlqTotal types =
          w.dlqTotal types := by rw [World.dlqTotal, perform_metrics (by simp)]; rfl
      rw [World.dlqDrift, World.dlqDrift, counters, publish_deadLetters types]
      omega
  | _ =>
      rw [World.dlqDrift, World.dlqTotal, World.deadLetters, perform_metrics (by simp),
        perform_kafka (by simp)]
      exact (add_zero _).symm.trans (add_zero _).symm

/-! ## What a whole call owes -/

namespace Dispatcher

theorem reject_owes (msg : Message Raw) : Prog.Owes (Op.dlqWeight types) 0 (reject msg) := by
  intro _ _
  rfl

theorem forward_owes (msg : Message Raw) (task : Task) :
    Prog.Owes (Op.dlqWeight types) 0 (forward msg task) := by
  have elsewhere : Op.dlqWeight types
      (.publish (workerTopic task.type) task.id msg.value .dispatcher) = 0 := by
    simp [Op.dlqWeight, (workerTopic_ne task.type).2]
  refine .of_silent ⟨elsewhere, fun answer => ?_⟩
  cases answer with
  | none => exact ⟨rfl, fun _ => ⟨rfl, fun _ => trivial⟩⟩
  | some err => trivial

theorem route_owes (d : Dispatcher) (json : Json Raw) (msg : Message Raw) :
    Prog.Owes (Op.dlqWeight types) 0 (d.route json msg) := by
  unfold route
  split
  · exact reject_owes msg
  · rename_i task decoded
    split
    · exact reject_owes msg
    · split
      · intro allowed
        rcases allowed with err | (_ | _)
        · exact forward_owes msg task
        · exact fun _ => reject_owes msg
        · exact forward_owes msg task
      · exact forward_owes msg task

end Dispatcher

namespace Worker

variable {w : Worker} (msg : Message Raw) (task : Task)

theorem record_weightless (durationMs : Int) (error : String) (now : Time) :
    Prog.All (fun op => Op.dlqWeight types op = 0)
      (w.record task durationMs error now : Service Raw Unit) := by
  simp [record, Op.dlqWeight]

/-- The publication of a dead letter and its count weigh nothing together. -/
theorem letter_weight (known : w.workerType ∈ types) (key : String) (raw : Raw) :
    0 - Op.dlqWeight types (.publish topicDLQ key raw .worker) -
      Op.dlqWeight types (.count (.workerDLQTotal w.workerType) 1 : Op Raw) = 0 := by
  simp [Op.dlqWeight, known]

theorem settle_owes (known : w.workerType ∈ types) (raw : Raw) (durationMs : Int)
    (execErr : Option Error) :
    Prog.Owes (Op.dlqWeight types) 0 (w.settle raw task durationMs execErr) := by
  cases execErr with
  | none =>
      rw [settle, finishSuccess_eq]
      intro now
      exact .bind_silent (record_weightless _ _ _ now) fun _ _ => rfl
  | some err =>
      rw [settle, finishFailure_eq]
      intro now
      refine .bind_silent (record_weightless _ _ _ now) fun _ _ _ _ => ?_
      exact letter_weight known task.id raw

theorem noHandler_owes (known : w.workerType ∈ types) :
    Prog.Owes (Op.dlqWeight types) 0 (w.noHandler msg task) := by
  intro _ _ _
  exact letter_weight known task.id msg.value

theorem finish_owes (known : w.workerType ∈ types) (start : Time) (result : Option Error × Nat) :
    Prog.Owes (Op.dlqWeight types) 0 (w.finish msg task start result) := by
  obtain ⟨execErr, attempts⟩ := result
  rw [finish_eq]
  intro stop
  refine Prog.Owes.bind (m := (0 : Int)) (n := (0 : Int)) ?_ fun _ => ?_
  · exact settle_owes _ known _ _ _
  · exact fun _ => rfl

theorem execute_owes (known : w.workerType ∈ types) (h : Handler) :
    Prog.Owes (Op.dlqWeight types) 0 (w.execute msg task h) := by
  rw [execute_eq]
  intro answer
  cases answer with
  | some err => rfl
  | none =>
      rw [afterRunning_none]
      intro _ start
      refine .bind_silent (attemptsFrom_calls rfl rfl rfl fun _ => rfl) fun result => ?_
      exact finish_owes msg task known start result

theorem processMessage_owes (known : w.workerType ∈ types) (json : Json Raw) :
    Prog.Owes (Op.dlqWeight types) 0 (w.processMessage json msg) := by
  unfold processMessage
  split
  · rfl
  · rename_i task decoded
    rw [processTask_eq]
    intro status
    dsimp only
    split
    · rfl
    · unfold processNew
      split
      · exact noHandler_owes msg task known
      · exact execute_owes msg task known _

end Worker

/-! ## Runs -/

variable {json : Json Raw}

/-- The drift is a measure that whole calls move by their failed publications alone. -/
theorem dlqBooks : Books (anyConsumers ι json types) (Op.dlqWeight types)
    (fun op w => if op.drops w then 1 else 0) (World.dlqDrift types) where
  body := by
    intro s i request within
    cases request with
    | route d msg => exact d.route_owes json msg
    | process w msg => exact Worker.processMessage_owes msg within json
  call := perform_dlqDrift
  env := fun w w' ⟨counters, letters⟩ => by
    rw [World.dlqDrift, World.dlqDrift, counters, letters]

/-- The step is a publication to `tasks.dlq` that fails. -/
def dropped (e : ConsumerStep Raw ι) : Bool :=
  match e.label with
  | .act _ op => op.drops e.pre.world
  | _ => false

theorem sum_gained_dropped (h : List (ConsumerStep Raw ι)) :
    (h.map (gained fun op w => if Op.drops w op then (1 : Int) else 0)).sum = h.countP dropped := by
  induction h with
  | nil => rfl
  | cons e h ih =>
      have one : gained (fun op w => if Op.drops w op then (1 : Int) else 0) e =
          if dropped e then 1 else 0 := by
        obtain ⟨pre, label, post⟩ := e
        cases label <;> rfl
      rw [List.map_cons, List.sum_cons, one, ih, List.countP_cons]
      split <;> simp [add_comm]

variable [DecidableEq ι] {s t : ConsumerPool Raw ι} {h : List (ConsumerStep Raw ι)}

/-- Between two moments without a call under way, the drift grows by the number of
publications to `tasks.dlq` that failed. -/
theorem dlq_drift (run : Trace (anyConsumers ι json types).Orderly s h t) (start : s.AtRest)
    (rest : t.AtRest) : t.world.dlqDrift types = s.world.dlqDrift types + h.countP dropped := by
  rw [dlqBooks.balance run start rest, sum_gained_dropped]

/-- After calls that started with counters that show the queue, they show it exactly when
every publication to `tasks.dlq` found a broker that takes it. -/
theorem dlqCounted_iff (run : Trace (anyConsumers ι json types).Orderly s h t)
    (start : s.AtRest) (rest : t.AtRest) (counted : s.world.DLQCounted types) :
    t.world.DLQCounted types ↔ ∀ e ∈ h, dropped e = false := by
  rw [World.dlqCounted_iff_drift] at counted ⊢
  rw [dlq_drift run start rest, counted, zero_add, Int.natCast_eq_zero, List.countP_eq_zero]
  simp

/-- A whole call on a pool at rest. -/
theorem anyConsumers_call (types : Finset String) (json : Json Raw) (i : ι) (request : Consume Raw)
    (within : request.Within types) (w : World Raw) :
    ∃ h, Trace (anyConsumers ι json types).Orderly ⟨w, fun _ => none⟩ h
      ⟨(Service.run (request.body json) w).2, fun _ => none⟩ :=
  System.Orderly.serve i request rfl within

/-- A message of a type that the email worker has no handler for. -/
def smsMessage : Message Task := ⟨"tasks.worker.email", "task-1", { emailTask with type := "sms" }⟩

theorem dlqCounted_iff_sms :
    ∃ h t, Trace (anyConsumers Unit plainJson {"email"}).Orderly
        ⟨World.fresh .calm, fun _ => none⟩ h t ∧
      t.world.deadLetters.length = 1 ∧ t.world.DLQCounted {"email"} ∧
      ∀ e ∈ h, dropped e = false := by
  obtain ⟨h, run⟩ := anyConsumers_call {"email"} plainJson ()
    (.process (emailWorker 3) smsMessage) (Finset.mem_singleton_self _) (World.fresh .calm)
  have counted := (dlqCounted_iff run (fun _ => rfl) (fun _ => rfl) (by decide)).mp (by decide)
  exact ⟨h, _, run, by decide, by decide, counted⟩

/-- A message without a type. -/
def untypedMessage : Message Task := ⟨topicPending, "task-1", { emailTask with type := "" }⟩

/-- A broker that misses one publication. -/
def brokerBack : Script :=
  { Script.calm with fails := fun c n => c == .publish && n == 0 }

/-- A message without a type is delivered, the publication to `tasks.dlq` fails, and it is
delivered once more: it is counted twice and lies in the queue once. -/
theorem redelivery_counted_twice :
    ∃ h t, Trace (anyConsumers Unit plainJson {"email"}).Orderly
        ⟨World.fresh brokerBack, fun _ => none⟩ h t ∧ t.AtRest ∧
      (Service.run (Dispatcher.route ⟨false⟩ plainJson untypedMessage)
        (World.fresh brokerBack)).1.isSome = true ∧
      (World.fresh brokerBack : World Task).DLQCounted {"email"} ∧
      t.world.dlqTotal {"email"} = 2 ∧ t.world.deadLetters.length = 1 := by
  have call := anyConsumers_call {"email"} plainJson () (.route ⟨false⟩ untypedMessage) trivial
  obtain ⟨h, first⟩ := call (World.fresh brokerBack)
  obtain ⟨h', second⟩ := call _
  exact ⟨h ++ h', _, first.trans second, fun _ => rfl, by decide, by decide, by decide, by decide⟩

end TaskFlow
