import TaskFlow.DurableCopies
import TaskFlow.PipelineCalls

/-!
# What is in which topic

The topics carry bytes, and each service trusts what it finds: a dispatcher is prepared
for messages that do not decode or have no type, a worker for those that do not decode
or have no handler.  In the pipeline none of that comes from inside.  Every record of the
log is in one of four lanes (`Lane`), and all but those of the gateway carry, byte for
byte, the value of an earlier record of `tasks.pending`.  So a worker is handed tasks of
its own type only, and runs the handler registered for that type (`log_in_lanes`).

The records of the log say this by their position: the original of a copy stands before
it.
-/

namespace TaskFlow

open Effect

variable {Raw ι : Type} {json : Json Raw}

/-- A record of this topic and value stands in the log. -/
def Precedes (topic : String) (value : Raw) (log : List (Record Raw)) : Prop :=
  ∃ r ∈ log, r.message.topic = topic ∧ r.message.value = value

/-- Where a record of the log comes from, given the records before it. -/
inductive Lane (json : Json Raw) (earlier : List (Record Raw)) : Record Raw → Prop
  | submitted {task : Task} : Submission.New task →
    Lane json earlier ⟨⟨topicPending, task.id, json.marshal task⟩, .gateway⟩
  | routed {task : Task} {value : Raw} : Precedes topicPending value earlier →
    json.unmarshal value = some task → task.type ≠ "" →
    Lane json earlier ⟨⟨workerTopic task.type, task.id, value⟩, .dispatcher⟩
  | rejected {value : Raw} : Precedes topicPending value earlier →
    Lane json earlier ⟨⟨topicDLQ, "", value⟩, .dispatcher⟩
  | buried {task : Task} {value : Raw} : Precedes (workerTopic task.type) value earlier →
    json.unmarshal value = some task →
    Lane json earlier ⟨⟨topicDLQ, task.id, value⟩, .worker⟩

/-- Every record of the log is in a lane. -/
def InLanes (json : Json Raw) (log : List (Record Raw)) : Prop :=
  ∀ x r y, log = x ++ r :: y → Lane json x r

theorem inLanes_nil : InLanes json ([] : List (Record Raw)) := by
  intro x r y eq
  cases x <;> cases eq

theorem InLanes.snoc {log : List (Record Raw)} {r : Record Raw} (inLanes : InLanes json log)
    (last : Lane json log r) : InLanes json (log ++ [r]) := by
  intro x r' y eq
  rcases List.eq_nil_or_concat y with rfl | ⟨front, end', rfl⟩
  · obtain ⟨rfl, same⟩ := List.append_inj' eq rfl
    obtain rfl := List.singleton_inj.mp same
    exact last
  · rw [List.concat_eq_append, ← List.cons_append, ← List.append_assoc] at eq
    obtain ⟨same, _⟩ := List.append_inj' eq rfl
    exact inLanes x r' front same

variable {log : List (Record Raw)} {msg : Message Raw}

/-- A message of `tasks.pending` decodes, to a task with a type. -/
theorem InLanes.pending (inLanes : InLanes json log) (listed : ∃ r ∈ log, r.message = msg)
    (topic : msg.topic = topicPending) :
    ∃ task, json.unmarshal msg.value = some task ∧ task.type ≠ "" := by
  have apart : topicDLQ ≠ topicPending := by decide
  obtain ⟨r, member, rfl⟩ := listed
  obtain ⟨x, y, split⟩ := List.append_of_mem member
  cases inLanes x r y split with
  | @submitted task new => exact ⟨task, json.unmarshal_marshal task, new.typed⟩
  | @routed task value earlier decodes typed => exact absurd topic (workerTopic_ne task.type).1
  | rejected earlier => exact absurd topic apart
  | buried earlier decodes => exact absurd topic apart

/-- A message of a worker's topic decodes, to a task of that type. -/
theorem InLanes.worker {taskType : String} (inLanes : InLanes json log)
    (listed : ∃ r ∈ log, r.message = msg) (topic : msg.topic = workerTopic taskType) :
    ∃ task, json.unmarshal msg.value = some task ∧ task.type = taskType := by
  obtain ⟨r, member, rfl⟩ := listed
  obtain ⟨x, y, split⟩ := List.append_of_mem member
  cases inLanes x r y split with
  | submitted new => exact absurd topic.symm (workerTopic_ne taskType).1
  | @routed task value earlier decodes typed =>
      exact ⟨task, decodes, workerTopic_injective topic⟩
  | rejected earlier => exact absurd topic.symm (workerTopic_ne taskType).2
  | buried earlier decodes => exact absurd topic.symm (workerTopic_ne taskType).2

/-! ## The pipeline keeps to the lanes -/

section Runs

variable [DecidableEq ι] {w : World Raw} {s t : PipelinePool Raw ι}
  {l : Label (Op Raw) ι (Job Raw)} {h : List (PipelineStep Raw ι)}

/-- What the steps of the pipeline keep. -/
structure Sorted (json : Json Raw) (s : PipelinePool Raw ι) : Prop where
  shaped : WellShaped json s
  served : Served s
  faithful : ∀ i thread, s.threads i = some thread → thread.request.Faithful json thread.rest
  inLanes : InLanes json s.world.kafka

/-- What a submission sends is in a lane. -/
theorem Submission.Advance.lane {before after : Submission.Progress} {topic key : String}
    {value : Raw} {origin : Origin} {answer : Option Error}
    (advance : Submission.Advance json before (.publish topic key value origin) answer after) :
    Lane json log ⟨⟨topic, key, value⟩, origin⟩ := by
  cases advance with
  | publish answer new => exact .submitted new

/-- What a consumer sends is in a lane. -/
theorem Consume.Calls.lane {c : Consume Raw} {topic key : String} {value : Raw} {origin : Origin}
    (calls : c.Calls json (.publish topic key value origin)) (inLanes : InLanes json log)
    (listed : ∃ r ∈ log, r.message = c.message) (served : c.message.topic = c.topic) :
    Lane json log ⟨⟨topic, key, value⟩, origin⟩ := by
  have earlier : Precedes c.topic c.message.value log := by
    obtain ⟨r, member, same⟩ := listed
    exact ⟨r, member, by rw [same, served], by rw [same]⟩
  cases c with
  | route d msg =>
      obtain ⟨rfl, rfl, ⟨rfl, rfl⟩ | ⟨task, decodes, typed, rfl, rfl⟩⟩ := calls
      · exact .rejected earlier
      · exact .routed earlier decodes typed
  | process w msg =>
      obtain ⟨task, decodes, rfl, rfl, rfl, rfl⟩ := calls
      obtain ⟨own, decodes', typed⟩ := inLanes.worker listed served
      cases Option.some.inj (decodes'.symm.trans decodes)
      refine .buried ?_ decodes
      rw [typed]
      exact earlier

theorem Sorted.records (sorted : Sorted json s) (happens : Happens json s l t) :
    InLanes json t.world.kafka := by
  cases happens with
  | start idle delivered => exact sorted.inLanes
  | stop running => exact sorted.inLanes
  | drifts moved => exact moved.kafka ▸ sorted.inLanes
  | @submits i r op next here advance =>
      rcases perform_log op s.world with same | ⟨topic, key, value, origin, rfl, _, grown⟩
      · exact same ▸ sorted.inLanes
      · exact grown ▸ sorted.inLanes.snoc advance.lane
  | @consumes i n c op next here consumes =>
      rcases perform_log op s.world with same | ⟨topic, key, value, origin, rfl, _, grown⟩
      · exact same ▸ sorted.inLanes
      · obtain ⟨served, listed⟩ := sorted.served i n c _ here
        have calls : c.Calls json (.publish topic key value origin) :=
          (sorted.faithful i _ here).1
        exact grown ▸ sorted.inLanes.snoc (calls.lane sorted.inLanes listed served)

theorem Sorted.step (step : (pipeline ι json).Step s l t) (sorted : Sorted json s) :
    Sorted json t where
  shaped := sorted.shaped.step step
  served := sorted.served.step step
  faithful := step.thread_invariant (T := fun _ job rest => Job.Faithful json rest job)
    (fun _ => Job.faithful_body) (fun _ _ _ _ faithful => faithful.answer _) sorted.faithful
  inLanes := sorted.records (pipeline_step step sorted.shaped)

theorem sorted_run (empty : w.Empty)
    (run : Trace (pipeline ι json).Step ⟨w, fun _ => none⟩ h t) : Sorted json t := by
  refine run.invariant (I := Sorted json) ?_ fun e _ => Sorted.step
  refine ⟨wellShaped_idle, fun _ _ _ _ => nofun, fun _ _ => nofun, ?_⟩
  rw [empty.kafka]
  exact inLanes_nil

/-- A dispatcher is handed a task with a type, and without a limiter forwards it. -/
def Routable (json : Json Raw) (d : Dispatcher) (msg : Message Raw) : Prop :=
  ∃ task, json.unmarshal msg.value = some task ∧ task.type ≠ "" ∧
    (d.limited = false → d.route json msg = Dispatcher.forward msg task)

/-- A worker is handed a task of its type, and with a handler for that type executes it
unless it is finished. -/
def Executable (json : Json Raw) (w : Worker) (msg : Message Raw) : Prop :=
  ∃ task, json.unmarshal msg.value = some task ∧ task.type = w.workerType ∧
    ∀ handler, w.registry.get w.workerType = .ok handler →
      w.processMessage json msg = .call (.getStatus task.id) fun status =>
        if Worker.alreadyTerminal status then .pure none else w.execute msg task handler

/-- What the lanes mean for a run through `h` to `t`. -/
structure WellRouted (json : Json Raw) (h : List (PipelineStep Raw ι)) (t : PipelinePool Raw ι) :
    Prop where
  log : InLanes json t.world.kafka
  routes : ∀ e ∈ h, ∀ i n d msg, e.label = .start i (.consume n (.route d msg)) →
    Routable json d msg
  executes : ∀ e ∈ h, ∀ i n w msg, e.label = .start i (.consume n (.process w msg)) →
    Executable json w msg
  handles : ∀ e ∈ h, ∀ i handler task, e.label = .act i (.handle handler task) →
    ∃ n w msg rest, e.pre.threads i = some ⟨.consume n (.process w msg), rest⟩ ∧
      task.type = w.workerType ∧ w.registry.get w.workerType = .ok handler

omit [DecidableEq ι] in
theorem Sorted.routable {d : Dispatcher} (sorted : Sorted json s)
    (listed : ∃ r ∈ s.world.kafka, r.message = msg) (topic : msg.topic = topicPending) :
    Routable json d msg := by
  obtain ⟨task, decodes, typed⟩ := sorted.inLanes.pending listed topic
  refine ⟨task, decodes, typed, fun unlimited => ?_⟩
  unfold Dispatcher.route
  rw [decodes, unlimited]
  dsimp only
  rw [if_neg typed, if_neg Bool.false_ne_true]

omit [DecidableEq ι] in
theorem Sorted.executable {worker : Worker} (sorted : Sorted json s)
    (listed : ∃ r ∈ s.world.kafka, r.message = msg)
    (topic : msg.topic = workerTopic worker.workerType) : Executable json worker msg := by
  obtain ⟨task, decodes, typed⟩ := sorted.inLanes.worker listed topic
  refine ⟨task, decodes, typed, fun handler found => ?_⟩
  unfold Worker.processMessage
  rw [decodes]
  dsimp only
  rw [Worker.processTask_eq]
  unfold Worker.processNew
  rw [typed, found]

/-- The handler a slot runs is the one its worker has for the type of its topic. -/
theorem Sorted.handles {i : ι} {handler : Handler} {task : Task} (sorted : Sorted json s)
    (step : (pipeline ι json).Step s (.act i (.handle handler task)) t) :
    ∃ n w msg rest, s.threads i = some ⟨.consume n (.process w msg), rest⟩ ∧
      task.type = w.workerType ∧ w.registry.get w.workerType = .ok handler := by
  have happens := pipeline_step step sorted.shaped
  cases happens with
  | submits here advance => cases advance
  | @consumes _ n c _ next here consumes =>
      have calls : c.Calls json (.handle handler task) := (sorted.faithful i _ here).1
      obtain ⟨served, listed⟩ := sorted.served i n c _ here
      cases c with
      | route d msg => exact calls.elim
      | process worker msg =>
          obtain ⟨own, decodes, found, rfl⟩ := calls
          obtain ⟨own', decodes', typed⟩ := sorted.inLanes.worker listed served
          cases Option.some.inj (decodes'.symm.trans decodes)
          rw [typed] at found
          exact ⟨n, worker, msg, _, here, typed, found⟩

theorem wellRouted_run (empty : w.Empty)
    (run : Trace (pipeline ι json).Step ⟨w, fun _ => none⟩ h t) : WellRouted json h t := by
  have before : ∀ e ∈ h, Sorted json e.pre ∧ (pipeline ι json).Step e.pre e.label e.post := by
    intro e member
    obtain ⟨x, y, rfl⟩ := List.append_of_mem member
    exact ⟨sorted_run empty run.split_cons.1, run.split_cons.2.1⟩
  have delivered : ∀ e ∈ h, ∀ i n c, e.label = .start i (.consume n c) →
      (∃ r ∈ e.pre.world.kafka, r.message = c.message) ∧ c.message.topic = c.topic := by
    intro e member i n c label
    have step := (before e member).2
    rw [label] at step
    generalize e.post = after at step
    cases step with
    | start idle admitted =>
        obtain ⟨found, topic⟩ : Job.Delivered e.pre.world.kafka (.consume n c) := admitted
        obtain ⟨r, at', same⟩ := Option.map_eq_some_iff.mp found
        exact ⟨⟨r, List.mem_of_getElem? at', same⟩, topic⟩
  refine ⟨(sorted_run empty run).inLanes, ?_, ?_, ?_⟩
  · intro e member i n d msg label
    obtain ⟨listed, topic⟩ := delivered e member i n _ label
    exact (before e member).1.routable listed topic
  · intro e member i n worker msg label
    obtain ⟨listed, topic⟩ := delivered e member i n _ label
    exact (before e member).1.executable listed topic
  · intro e member i handler task label
    obtain ⟨sorted, step⟩ := before e member
    rw [label] at step
    exact sorted.handles step

/-- **Every record is in its lane.**  In every run of the pipeline from an empty log,
under any faults, crashes and redeliveries, a record is the task of a submission in
`tasks.pending`, or it carries the value of an earlier record of `tasks.pending` to the
topic of its task's type, or a value a consumer was handed to the dead letters.  So the
dispatchers never meet a message that does not decode or has no type, and a worker that
has a handler for its own type executes every message it is handed, with that handler. -/
theorem log_in_lanes (json : Json Raw) (w : World Raw) (empty : w.Empty)
    (run : Trace (pipeline ι json).Step ⟨w, fun _ => none⟩ h t) : WellRouted json h t :=
  wellRouted_run empty run

end Runs

theorem log_in_lanes_email :
    ((pipeline Bool plainJson).final (undeployed .calm) emailTwice).world.handled.length = 1 ∧
      WellRouted plainJson ((pipeline Bool plainJson).play (undeployed .calm) emailTwice)
        ((pipeline Bool plainJson).final (undeployed .calm) emailTwice) := by
  have admitted : ∀ e ∈ (pipeline Bool plainJson).play (undeployed .calm) emailTwice,
      (pipeline Bool plainJson).Admitted e := by decide
  have run := System.play_trace admitted (by simp [emailTwice, takeEmail, submitAndRoute])
  exact ⟨by decide, log_in_lanes plainJson _ (undeployed_empty .calm) run⟩

end TaskFlow
