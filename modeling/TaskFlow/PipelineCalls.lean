import TaskFlow.PipelinePool

/-!
# The calls of the pipeline, with their arguments

`Dispatcher.Calls` and `Worker.Calls` say of every call that `route` and `processMessage`
can make on a message what its arguments are, whatever the answers to the earlier calls
were, and `Submission.Writes` says it of the writes of a submission.  They hold of what
is left to run of every slot of the pipeline (`Job.Faithful`), so facts about the
arguments follow without another walk through the three functions.
-/

namespace TaskFlow

open Effect

variable {Raw ι β : Type} {json : Json Raw} {op : Op Raw}

/-! ## Consumers -/

/-- The calls of `route` on a message: it sends the message on, to the topic of its task
or to the dead letters, asks the limiter about the type, and writes `QUEUED`. -/
def Dispatcher.Calls (d : Dispatcher) (json : Json Raw) (msg : Message Raw) : Op Raw → Prop
  | .publish topic key value origin => value = msg.value ∧ origin = .dispatcher ∧
      (topic = topicDLQ ∧ key = "" ∨ ∃ task, json.unmarshal msg.value = some task ∧
        task.type ≠ "" ∧ topic = workerTopic task.type ∧ key = task.id)
  | .setStatus id status => status = .queued ∧
      ∃ task, json.unmarshal msg.value = some task ∧ task.type ≠ "" ∧ task.id = id
  | .allow taskType => d.limited = true ∧
      ∃ task, json.unmarshal msg.value = some task ∧ task.type = taskType
  | .count _ _ => True
  | _ => False

theorem Dispatcher.route_makes (d : Dispatcher) (json : Json Raw) (msg : Message Raw) :
    Prog.All (d.Calls json msg) (d.route json msg) := by
  have toDLQ : Prog.All (d.Calls json msg) (toDLQ msg.value) :=
    ⟨⟨rfl, rfl, .inl ⟨rfl, rfl⟩⟩, fun _ => trivial⟩
  have reject : Prog.All (d.Calls json msg) (reject msg) := ⟨trivial, fun _ => toDLQ⟩
  unfold route
  cases decodes : json.unmarshal msg.value with
  | none => exact reject
  | some task =>
      dsimp only
      split
      · exact reject
      · rename_i typed
        have forward : Prog.All (d.Calls json msg) (forward msg task) := by
          refine ⟨⟨rfl, rfl, .inr ⟨task, decodes, typed, rfl, rfl⟩⟩, fun answer => ?_⟩
          cases answer with
          | some err => trivial
          | none => exact ⟨⟨rfl, task, decodes, typed, rfl⟩, fun _ => ⟨trivial, fun _ => trivial⟩⟩
        split
        · rename_i limited
          refine ⟨⟨limited, task, decodes, rfl⟩, fun allowed => ?_⟩
          rcases allowed with err | (_ | _)
          · exact forward
          · exact ⟨trivial, fun _ => ⟨trivial, fun _ => toDLQ⟩⟩
          · exact forward
        · exact forward

namespace Worker

/-- The task as the end of a call writes it: closed, with the attempts made. -/
def Closed (task copy : Task) : Prop :=
  ∃ (status : Status) (attempts : Int) (updatedAt : Time) (completedAt : Option Time),
    status.isTerminal = true ∧ copy = { task with status, attempts, updatedAt, completedAt }

/-- The calls of `processMessage` on a message of a task. -/
def Calls (w : Worker) (msg : Message Raw) (task : Task) : Op Raw → Prop
  | .getStatus id => id = task.id
  | .setStatus id _ => id = task.id
  | .handle h copy => w.registry.get task.type = .ok h ∧ copy = task
  | .setTaskMeta copy => Closed task copy
  | .recordExecution exec => exec.taskID = task.id ∧ exec.workerID = w.workerID ∧
      exec.status.isTerminal = true
  | .updateStatus id status => id = task.id ∧ status.isTerminal = true
  | .publish topic key value origin => topic = topicDLQ ∧ key = task.id ∧ value = msg.value ∧
      origin = .worker
  | .count _ _ => True
  | .wait _ => True
  | .now => True
  | _ => False

theorem record_makes (w : Worker) (msg : Message Raw) {task copy : Task} (durationMs : Int)
    (error : String) (now : Time) (closed : Closed task copy) :
    Prog.All (w.Calls msg task) (w.record copy durationMs error now) := by
  have cached : (w.Calls msg task) (.setTaskMeta copy) := closed
  obtain ⟨status, attempts, updatedAt, completedAt, terminal, rfl⟩ := closed
  rw [record_eq]
  exact ⟨rfl, fun _ => ⟨cached, fun _ => ⟨⟨rfl, rfl, terminal⟩, fun _ => ⟨⟨rfl, terminal⟩,
    fun _ => trivial⟩⟩⟩⟩

theorem settle_makes (w : Worker) (msg : Message Raw) (task : Task) (attempts durationMs : Int)
    (execErr : Option Error) :
    Prog.All (w.Calls msg task) (w.settle msg.value { task with attempts } durationMs execErr) := by
  cases execErr with
  | none =>
      rw [settle, finishSuccess_eq]
      refine ⟨trivial, fun now => Prog.All.bind (w.record_makes msg _ _ _ ?_) fun _ =>
        ⟨trivial, fun _ => trivial⟩⟩
      exact ⟨.done, attempts, now, some now, rfl, rfl⟩
  | some err =>
      rw [settle, finishFailure_eq]
      refine ⟨trivial, fun now => Prog.All.bind (w.record_makes msg _ _ _ ?_) fun _ =>
        ⟨⟨rfl, rfl, rfl, rfl⟩, fun _ => ⟨trivial, fun _ => ⟨trivial, fun _ => trivial⟩⟩⟩⟩
      exact ⟨.dead, attempts, now, task.completedAt, rfl, rfl⟩

theorem processMessage_makes (w : Worker) {msg : Message Raw} {task : Task}
    (decodes : json.unmarshal msg.value = some task) :
    Prog.All (w.Calls msg task) (w.processMessage json msg) := by
  unfold processMessage
  rw [decodes]
  dsimp only
  rw [processTask_eq]
  refine ⟨rfl, fun status => ?_⟩
  dsimp only
  split
  · trivial
  · unfold processNew
    cases found : w.registry.get task.type with
    | error err =>
        exact ⟨rfl, fun _ => ⟨⟨rfl, rfl, rfl, rfl⟩, fun _ => ⟨trivial, fun _ => trivial⟩⟩⟩
    | ok h =>
        dsimp only
        rw [execute_eq]
        refine ⟨rfl, fun answer => ?_⟩
        cases answer with
        | some err => trivial
        | none =>
            rw [afterRunning_none]
            refine ⟨trivial, fun _ => ⟨trivial, fun start => ?_⟩⟩
            refine Prog.All.bind (attemptsFrom_calls ⟨found, rfl⟩ trivial rfl fun _ => trivial)
              fun result => ?_
            obtain ⟨execErr, attempts⟩ := result
            rw [finish_eq]
            exact ⟨trivial, fun stop => Prog.All.bind (w.settle_makes msg task attempts _ execErr)
              fun _ => ⟨trivial, fun _ => trivial⟩⟩

end Worker

/-- The calls of a consumer; a worker makes none on a message that does not decode. -/
def Consume.Calls (json : Json Raw) (op : Op Raw) : Consume Raw → Prop
  | .route d msg => d.Calls json msg op
  | .process w msg => ∃ task, json.unmarshal msg.value = some task ∧ w.Calls msg task op

theorem Consume.body_makes (json : Json Raw) (c : Consume Raw) :
    Prog.All (fun op => c.Calls json op) (c.body json) := by
  cases c with
  | route d msg => exact d.route_makes json msg
  | process w msg =>
      cases decodes : json.unmarshal msg.value with
      | none =>
          dsimp only [body]
          unfold Worker.processMessage
          rw [decodes]
          trivial
      | some task =>
          exact (w.processMessage_makes decodes).mono fun op calls => ⟨task, decodes, calls⟩

/-! ## Submissions -/

namespace Submission

/-- The request passes the validation, and the task is the one created for it. -/
def Asks (r : Submission) (task : Task) : Prop :=
  ∃ req now, r.fields = some req ∧ task = Gateway.newTask req task.id now

/-- The calls of a submission write the task of its request. -/
def Writes (json : Json Raw) (r : Submission) : Op Raw → Prop
  | .setTaskMeta task => r.Asks task
  | .create task => r.Asks task
  | .publish _ _ value _ => ∃ task, value = json.marshal task ∧ r.Asks task
  | _ => True

/-- A property of the calls that create the task of a request, and of those that neither
write nor send, is one of all calls of a submission. -/
theorem submit_calls {P : Op Raw → Prop} (json : Json Raw) (r : Submission) (value : β)
    (draws : P .newUUID) (reads : P .now) (counts : ∀ metric delta, P (.count metric delta))
    (enqueues : ∀ task, r.Asks task → P (.setTaskMeta task) ∧ P (.setStatus task.id .pending) ∧
      P (.create task) ∧ P (.publish topicPending task.id (json.marshal task) .gateway)) :
    Prog.All P (r.submit json >>= fun _ => pure value) := by
  cases valid : r.fields with
  | none =>
      obtain ⟨failed, eq⟩ := submit_invalid json valid
      rw [eq]
      trivial
  | some req =>
      obtain ⟨answer, counted, _, eq⟩ := submit_eq json valid
      rw [eq]
      have writes : ∀ id now, Prog.All P
          (Gateway.enqueue json (Gateway.newTask req id now) >>= answer id now) := by
        intro id now
        obtain ⟨cache, mark, insert, send⟩ :=
          enqueues (Gateway.newTask req id now) ⟨req, now, valid, rfl⟩
        refine Prog.All.bind (Gateway.enqueue_calls cache mark insert send) fun failed =>
          (counted id now failed).mono fun op count => ?_
        obtain ⟨m, n, rfl⟩ := count
        exact counts m n
      exact Prog.All.bind ⟨draws, fun id => ⟨reads, fun now => writes id now⟩⟩ fun _ => trivial

theorem submit_writes (json : Json Raw) (r : Submission) (value : β) :
    Prog.All (r.Writes json) (r.submit json >>= fun _ => pure value) :=
  r.submit_calls json value trivial trivial (fun _ _ => trivial)
    fun task asks => ⟨asks, trivial, asks, ⟨task, rfl, asks⟩⟩

end Submission

/-! ## Slots -/

/-- What is left to run of a call writes what its request or its message says. -/
def Job.Faithful (json : Json Raw) (rest : Service Raw (Option Error)) : Job Raw → Prop
  | .submit r => Prog.All (r.Writes json) rest
  | .consume _ c => Prog.All (fun op => c.Calls json op) rest

theorem Job.faithful_body (job : Job Raw) : job.Faithful json (job.body json) := by
  cases job with
  | submit r => exact Submission.submit_writes json r none
  | consume n c => exact c.body_makes json

theorem Job.Faithful.answer {job : Job Raw} {next : op.Ans → Service Raw (Option Error)}
    (faithful : job.Faithful json (.call op next)) (a : op.Ans) :
    job.Faithful json (next a) := by
  cases job with
  | submit r => exact faithful.2 a
  | consume n c => exact faithful.2 a

/-- Every consumer works on a record of its topic. -/
def Served (s : PipelinePool Raw ι) : Prop :=
  ∀ i n c rest, s.threads i = some ⟨.consume n c, rest⟩ →
    c.message.topic = c.topic ∧ ∃ r ∈ s.world.kafka, r.message = c.message

theorem Served.step [DecidableEq ι] {s t : PipelinePool Raw ι} {l : Label (Op Raw) ι (Job Raw)}
    (step : (pipeline ι json).Step s l t) (served : Served s) : Served t := by
  have taken : Taken t := Taken.step step fun i n c rest running => (served i n c rest running).2
  intro i n c rest running
  refine ⟨?_, taken i n c rest running⟩
  rcases step.threads_cases running with ⟨before, _⟩ | ⟨job, _, _, delivered, started⟩ |
    ⟨op, next, _, before, _, _⟩
  · exact (served i n c rest before).1
  · cases started
    exact delivered.2
  · exact (served i n c _ before).1

end TaskFlow
