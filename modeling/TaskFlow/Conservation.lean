import TaskFlow.Calls
import TaskFlow.Dispatcher
import TaskFlow.Effect.Machine

/-!
# The dispatcher conserves messages

A delivery to `Dispatcher.route` that returns nil has appended exactly one message,
with the value it was given; one that returns an error has appended none and set no
status.  `Settles` says so of a program and a world: it holds of the two ways in
which `route` can end, sending on or rejecting, and survives the calls of the
limiter and the counters in front of them.

From that, over any sequence of deliveries: what is on the topic of a type decodes
to a task of that type, and a status is set to `QUEUED` only after the message of
its task went to a worker topic.
-/

namespace TaskFlow

open Effect

variable {Raw : Type}

namespace Dispatcher

/-! ## Where a delivery belongs -/

/-- The task of a message that has a type and that the limiter does not deny. -/
def admitted (d : Dispatcher) (json : Json Raw) (msg : Message Raw) (w : World Raw) :
    Option Task :=
  match json.unmarshal msg.value with
  | none => none
  | some task =>
      if task.type = "" ∨ (d.limited = true ∧ w.allow.1 = .ok false) then none else some task

/-- The message of an admitted task, or a dead letter. -/
def outgoing (msg : Message Raw) : Option Task → Record Raw
  | some task => ⟨⟨workerTopic task.type, task.id, msg.value⟩, .dispatcher⟩
  | none => ⟨⟨topicDLQ, "", msg.value⟩, .dispatcher⟩

/-- What a delivery does, when `task` is the admitted task or none: on success one
message is appended; on an error nothing is, and no status changes.  Only the status
of the admitted task can change, to `QUEUED`, and it is written after the message
was published. -/
structure Settles (msg : Message Raw) (task : Option Task) (p : Service Raw (Option Error))
    (w : World Raw) : Prop where
  kept : (Service.run p w).1 = none →
    (Service.run p w).2.kafka = w.kafka ++ [outgoing msg task]
  failed : (Service.run p w).1 ≠ none →
    (Service.run p w).2.kafka = w.kafka ∧ (Service.run p w).2.redis.state = w.redis.state
  queued : ∀ id, (Service.run p w).2.redis.state id ≠ w.redis.state id →
    (Service.run p w).2.redis.state id = some .queued ∧
      ∃ admitted, task = some admitted ∧ admitted.id = id
  marked : ∀ before id status answer after,
    p.transcript perform w = before ++ ⟨.setStatus id status, answer⟩ :: after →
    status = .queued ∧ ∃ admitted, task = some admitted ∧ admitted.id = id ∧
      ⟨.publish (workerTopic admitted.type) id msg.value .dispatcher, none⟩ ∈ before

variable {msg : Message Raw} {task : Option Task} {w : World Raw}

/-- A call in front that touches neither the log nor a status. -/
theorem Settles.call {op : Op Raw} {next : op.Ans → Service Raw (Option Error)}
    (log : (perform op w).2.kafka = w.kafka)
    (state : (perform op w).2.redis.state = w.redis.state)
    (quiet : ∀ id status, op ≠ .setStatus id status)
    (rest : Settles msg task (next (perform op w).1) (perform op w).2) :
    Settles msg task (.call op next) w where
  kept := fun ok => (rest.kept ok).trans (congrArg (· ++ _) log)
  failed := fun err => (rest.failed err).imp (·.trans log) (·.trans state)
  queued := fun id changed => rest.queued id fun same => changed (by rw [← state]; exact same)
  marked := by
    intro before id status answer after eq
    rcases before with _ | ⟨first, before⟩
    · exact absurd (congrArg Sigma.fst (List.cons.inj eq).1) (quiet id status)
    · obtain ⟨queued, admitted, some, same, member⟩ :=
        rest.marked before id status answer after (List.cons.inj eq).2
      exact ⟨queued, admitted, some, same, List.mem_cons_of_mem first member⟩

/-- A program that writes no status and ends with one publication. -/
theorem Settles.publish {p : Service Raw (Option Error)}
    (answer : (Service.run p w).1 = none ↔ w.fails .publish = false)
    (log : (Service.run p w).2.kafka = w.kafka ++
      if w.fails .publish then [] else [outgoing msg task])
    (state : (Service.run p w).2.redis.state = w.redis.state)
    (quiet : ∀ id status answer, ⟨.setStatus id status, answer⟩ ∉ p.transcript perform w) :
    Settles msg task p w where
  kept := fun ok => by rw [log, answer.mp ok]; rfl
  failed := fun err => by
    have down : w.fails .publish = true :=
      Bool.eq_true_of_not_eq_false fun up => err (answer.mpr up)
    exact ⟨by rw [log, down]; exact List.append_nil _, state⟩
  queued := fun id changed => absurd (congrFun state id) changed
  marked := fun before id status answer after eq =>
    absurd (eq ▸ List.mem_append_right before List.mem_cons_self) (quiet id status answer)

theorem toDLQ_settles (w : World Raw) : Settles msg none (toDLQ msg.value) w :=
  .publish perform_publish_ok (perform_publish_kafka ..) (perform_publish_state ..)
    (by simp [toDLQ, ask, Prog.op])

theorem reject_settles (w : World Raw) : Settles msg none (reject msg) w :=
  .call rfl rfl (by simp) (toDLQ_settles _)

/-- What is left of `forward` once the message is published. -/
def mark (task : Task) : Service Raw (Option Error) :=
  .call (.setStatus task.id .queued) fun _ =>
    .call (.count (.dispatcherTasksRouted task.type) 1) fun _ => .pure none

theorem mark_log (task : Task) (w : World Raw) :
    (Service.run (mark task) w).2.kafka = w.kafka := by
  have written : (Service.run (mark task) w).2.kafka =
      (perform (.setStatus task.id .queued) w).2.kafka := rfl
  rw [written, perform_kafka (by simp)]

theorem mark_state {task : Task} {id : String}
    (changed : (Service.run (mark task) w).2.redis.state id ≠ w.redis.state id) :
    (Service.run (mark task) w).2.redis.state id = some .queued ∧ task.id = id := by
  have written : (Service.run (mark task) w).2.redis.state =
      (perform (.setStatus task.id .queued) w).2.redis.state := rfl
  rw [written] at changed ⊢
  by_cases own : task.id = id
  · subst own
    rw [perform_setStatus_state] at changed ⊢
    cases down : w.fails .setStatus with
    | true => simp [down] at changed
    | false => exact ⟨rfl, rfl⟩
  · refine absurd (perform_state fun status same => ?_) changed
    exact own (Op.setStatus.inj same).1

/-- Sending on when the broker takes the message: the log has it before the status
is written. -/
theorem forward_settles_works {task : Task} (works : w.fails .publish = false) :
    Settles msg (some task) (forward msg task) w := by
  have answer : (perform (.publish (workerTopic task.type) task.id msg.value .dispatcher) w).1 =
      none := perform_publish_ok.mpr works
  have log := perform_publish_kafka (w := w) (workerTopic task.type) task.id msg.value .dispatcher
  have state := perform_publish_state (workerTopic task.type) task.id msg.value .dispatcher w
  rw [works] at log
  have run : Service.run (forward msg task) w = Service.run (mark task)
      (perform (.publish (workerTopic task.type) task.id msg.value .dispatcher) w).2 := by
    simp only [forward, Service.run, ask, Prog.op_bind, Prog.run_call, answer]
    rfl
  have transcript : (forward msg task).transcript perform w =
      ⟨.publish (workerTopic task.type) task.id msg.value .dispatcher, none⟩ ::
        (mark task).transcript perform
          (perform (.publish (workerTopic task.type) task.id msg.value .dispatcher) w).2 := by
    simp only [forward, ask, Prog.op_bind, Prog.transcript_call, answer]
    rfl
  refine ⟨fun _ => ?_, fun err => ?_, fun id changed => ?_, ?_⟩
  · rw [run, mark_log, log]
    rfl
  · rw [run] at err
    exact absurd rfl err
  · rw [run, ← state] at changed
    obtain ⟨queued, own⟩ := mark_state changed
    exact ⟨by rw [run]; exact queued, task, rfl, own⟩
  · intro before id status answer after eq
    rw [transcript] at eq
    -- The only status among the three calls is the second one.
    rcases before with _ | ⟨first, _ | ⟨second, _ | ⟨third, before⟩⟩⟩
    · simp at eq
    · simp only [mark, Prog.transcript_call, List.cons_append, List.nil_append,
        List.cons.injEq, Sigma.mk.injEq, Op.setStatus.injEq] at eq
      obtain ⟨rfl, ⟨⟨rfl, rfl⟩, -⟩, -⟩ := eq
      exact ⟨rfl, task, rfl, rfl, List.mem_singleton_self _⟩
    · simp [mark] at eq
    · simp [mark] at eq

theorem forward_settles (task : Task) (w : World Raw) :
    Settles msg (some task) (forward msg task) w := by
  have ok : (perform (.publish (workerTopic task.type) task.id msg.value .dispatcher) w).1 = none ↔
      w.fails .publish = false := perform_publish_ok
  rcases answer_cases ok with ⟨down, err, answer⟩ | ⟨works, _⟩
  · have run : Service.run (forward msg task) w =
        (some (.wrap ("publish to " ++ workerTopic task.type) err),
          (perform (.publish (workerTopic task.type) task.id msg.value .dispatcher) w).2) := by
      simp only [forward, Service.run, ask, Prog.op_bind, Prog.run_call, answer]
      rfl
    have transcript : (forward msg task).transcript perform w =
        [⟨.publish (workerTopic task.type) task.id msg.value .dispatcher, some err⟩] := by
      simp only [forward, ask, Prog.op_bind, Prog.transcript_call, answer]
      rfl
    apply Settles.publish
    · simp [run, down]
    · rw [run]
      exact perform_publish_kafka ..
    · rw [run]
      exact perform_publish_state ..
    · simp [transcript]
  · exact forward_settles_works works

/-- `route` sends an admitted task on and makes a dead letter of everything else. -/
theorem route_settles (d : Dispatcher) (json : Json Raw) (msg : Message Raw) (w : World Raw) :
    Settles msg (d.admitted json msg w) (d.route json msg) w := by
  unfold route admitted
  cases json.unmarshal msg.value with
  | none => exact reject_settles w
  | some task =>
      dsimp only
      by_cases untyped : task.type = ""
      · rw [if_pos untyped, if_pos (Or.inl untyped)]
        exact reject_settles w
      · rw [if_neg untyped]
        cases limited : d.limited with
        | false =>
            rw [if_neg (by simp [untyped]), if_neg (by simp)]
            exact forward_settles task w
        | true =>
            rw [if_pos rfl]
            have asked : (perform (.allow task.type) w).1 = w.allow.1 := rfl
            refine Settles.call rfl rfl (by simp) ?_
            rw [asked]
            generalize w.allow.1 = allowed
            rcases allowed with err | (_ | _)
            · rw [if_neg (by simp [untyped])]
              exact forward_settles task _
            · rw [if_pos (by simp)]
              exact .call rfl rfl (by simp) (.call rfl rfl (by simp) (toDLQ_settles _))
            · rw [if_neg (by simp [untyped])]
              exact forward_settles task _

theorem admitted_eq_some {d : Dispatcher} {json : Json Raw} {task : Task}
    (eq : d.admitted json msg w = some task) :
    json.unmarshal msg.value = some task ∧ task.type ≠ "" := by
  unfold admitted at eq
  split at eq
  · exact absurd eq.symm (Option.some_ne_none task)
  · rename_i decoded decodes
    split at eq
    · exact absurd eq.symm (Option.some_ne_none task)
    · rename_i admits
      cases eq
      exact ⟨decodes, fun untyped => admits (Or.inl untyped)⟩

/-! ## Sequences of deliveries -/

/-- One delivery: a dispatcher and the message it gets. -/
def deliver (json : Json Raw) (delivery : Dispatcher × Message Raw) (w : World Raw) :
    Option Error × World Raw :=
  Service.run (delivery.1.route json delivery.2) w

/-- From `w` to `w'` the log grew by `appended`: dead letters, and messages of tasks
on the topics of their types.  A status that changed is `QUEUED` and belongs to one of
those tasks. -/
structure Appended (json : Json Raw) (w w' : World Raw) (appended : List (Record Raw)) :
    Prop where
  log : w'.kafka = w.kafka ++ appended
  placed : ∀ r ∈ appended, r.message.topic = topicDLQ ∨
    ∃ task, json.unmarshal r.message.value = some task ∧ r.message.topic = workerTopic task.type
  queued : ∀ id, w'.redis.state id ≠ w.redis.state id → w'.redis.state id = some .queued ∧
    ∃ r ∈ appended, ∃ task, json.unmarshal r.message.value = some task ∧ task.id = id ∧
      r.message.topic = workerTopic task.type

variable {json : Json Raw} {w' w'' : World Raw}

theorem Appended.trans {first second : List (Record Raw)} (before : Appended json w w' first)
    (after : Appended json w' w'' second) : Appended json w w'' (first ++ second) where
  log := by rw [after.log, before.log, List.append_assoc]
  placed := fun r member =>
    (List.mem_append.mp member).elim (before.placed r) (after.placed r)
  queued := by
    intro id changed
    by_cases later : w''.redis.state id = w'.redis.state id
    · rw [later] at changed ⊢
      obtain ⟨queued, r, member, rest⟩ := before.queued id changed
      exact ⟨queued, r, List.mem_append_left _ member, rest⟩
    · obtain ⟨queued, r, member, rest⟩ := after.queued id later
      exact ⟨queued, r, List.mem_append_right _ member, rest⟩

/-- One delivery appends its outgoing message or nothing. -/
theorem deliver_appended (json : Json Raw) (delivery : Dispatcher × Message Raw) (w : World Raw) :
    ∃ appended, Appended json w (deliver json delivery w).2 appended := by
  obtain ⟨d, msg⟩ := delivery
  have settles := d.route_settles json msg w
  by_cases ok : (deliver json (d, msg) w).1 = none
  · have placed : (outgoing msg (d.admitted json msg w)).message.topic = topicDLQ ∨
        ∃ task, json.unmarshal (outgoing msg (d.admitted json msg w)).message.value = some task ∧
          (outgoing msg (d.admitted json msg w)).message.topic = workerTopic task.type := by
      cases admits : d.admitted json msg w with
      | none => exact Or.inl rfl
      | some task => exact Or.inr ⟨task, (admitted_eq_some admits).1, rfl⟩
    refine ⟨[outgoing msg (d.admitted json msg w)], settles.kept ok, ?_, ?_⟩
    · intro r member
      rw [List.mem_singleton.mp member]
      exact placed
    · intro id changed
      obtain ⟨queued, task, admits, own⟩ := settles.queued id changed
      refine ⟨queued, _, List.mem_singleton_self _, task, ?_, own, ?_⟩
      · rw [admits]
        exact (admitted_eq_some admits).1
      · rw [admits]
        rfl
  · obtain ⟨log, state⟩ := settles.failed ok
    refine ⟨[], log.trans (List.append_nil _).symm, by simp, ?_⟩
    intro id changed
    exact absurd (congrFun state id) changed

theorem deliverAll_appended (json : Json Raw) (deliveries : List (Dispatcher × Message Raw))
    (w : World Raw) :
    ∃ appended, Appended json w (serveAll (deliver json) deliveries w).2 appended := by
  induction deliveries generalizing w with
  | nil => exact ⟨[], (List.append_nil _).symm, by simp, fun _ changed => absurd rfl changed⟩
  | cons delivery deliveries ih =>
      obtain ⟨first, one⟩ := deliver_appended json delivery w
      obtain ⟨second, rest⟩ := ih (deliver json delivery w).2
      exact ⟨first ++ second, one.trans rest⟩

/-- Over every sequence of deliveries, from any state and under any answers of the
limiter, the broker and the store: each delivery settles its message, and of what the
sequence appended, a message on the topic of a type decodes to a task of that type,
none is on the pending topic, no type leads to the pending or the dead-letter topic,
and a status that changed is `QUEUED`, of a task whose message is on its worker topic. -/
theorem route_conserves (json : Json Raw) (deliveries : List (Dispatcher × Message Raw))
    (w : World Raw) :
    (∀ before d msg after, deliveries = before ++ (d, msg) :: after →
      Settles msg (d.admitted json msg (serveAll (deliver json) before w).2) (d.route json msg)
        (serveAll (deliver json) before w).2) ∧
    (∀ taskType, workerTopic taskType ≠ topicPending ∧ workerTopic taskType ≠ topicDLQ) ∧
    ∃ appended, (serveAll (deliver json) deliveries w).2.kafka = w.kafka ++ appended ∧
      (∀ r ∈ appended, ∀ taskType, r.message.topic = workerTopic taskType →
        ∃ task, json.unmarshal r.message.value = some task ∧ task.type = taskType) ∧
      (∀ r ∈ appended, r.message.topic ≠ topicPending) ∧
      ∀ id, (serveAll (deliver json) deliveries w).2.redis.state id ≠ w.redis.state id →
        (serveAll (deliver json) deliveries w).2.redis.state id = some .queued ∧
        ∃ r ∈ appended, ∃ task, json.unmarshal r.message.value = some task ∧ task.id = id ∧
          r.message.topic = workerTopic task.type := by
  obtain ⟨appended, run⟩ := deliverAll_appended json deliveries w
  refine ⟨fun before d msg after _ => d.route_settles json msg _, workerTopic_ne, appended,
    run.log, ?_, ?_, run.queued⟩
  · intro r member taskType topic
    rcases run.placed r member with dead | ⟨task, decodes, worker⟩
    · exact absurd (topic.symm.trans dead) (workerTopic_ne taskType).2
    · exact ⟨task, decodes, workerTopic_injective (worker.symm.trans topic)⟩
  · intro r member pending
    rcases run.placed r member with dead | ⟨task, _, worker⟩
    · exact absurd (pending.symm.trans dead) (by decide)
    · exact (workerTopic_ne task.type).1 (worker.symm.trans pending)

end Dispatcher

end TaskFlow
