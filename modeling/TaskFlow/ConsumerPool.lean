import TaskFlow.WorkerRun
import TaskFlow.Dispatcher
import TaskFlow.Effect.Pool

/-!
# Dispatchers and workers at the same time

Dispatchers and workers handle messages concurrently, one call at a time, and
write the same live status without coordination.

A worker call reads the status once, may then write non-terminal statuses and call
the handler, and is silent from its terminal write on (`processNew_once`).
`Consume.Shape` says this of what is left to run of a call, and `terminal_step` what
a step of the pool does to the status of one task.
-/

namespace TaskFlow

open Effect

variable {Raw ι : Type}

/-! ## What the calls of a consumer do to the status -/

/-- The call writes a terminal status of this task. -/
def Op.Closes (id : String) : Op Raw → Prop
  | .setStatus id' status => id' = id ∧ status.isTerminal = true
  | _ => False

/-- The call neither runs a handler nor writes a non-terminal status. -/
def Op.Silent : Op Raw → Prop
  | .setStatus _ status => status.isTerminal = true
  | .handle _ _ => False
  | _ => True

/-- Handler calls and status writes are about this task. -/
def Op.Of (id : String) : Op Raw → Prop
  | .setStatus id' _ => id' = id
  | .handle _ task => task.id = id
  | _ => True

namespace Worker

variable (w : Worker) (msg : Message Raw) (task : Task)

theorem record_silent {id : String} (durationMs : Int) (error : String) (now : Time)
    (same : task.id = id) (terminal : task.status.isTerminal = true) :
    Prog.All (fun op => op.Silent ∧ op.Of id)
      (w.record task durationMs error now : Service Raw Unit) := by
  simp [record, Op.Silent, Op.Of, terminal, same]

theorem settle_silent {id : String} (durationMs : Int) (execErr : Option Error)
    (same : task.id = id) :
    Prog.All (fun op => op.Silent ∧ op.Of id) (w.settle msg.value task durationMs execErr) := by
  cases execErr with
  | none =>
      rw [settle, finishSuccess_eq]
      refine ⟨⟨trivial, trivial⟩, fun now => Prog.All.bind ?_ fun _ => ?_⟩
      · exact w.record_silent _ _ _ now same rfl
      · exact ⟨⟨trivial, trivial⟩, fun _ => trivial⟩
  | some err =>
      rw [settle, finishFailure_eq]
      refine ⟨⟨trivial, trivial⟩, fun now => Prog.All.bind ?_ fun _ => ?_⟩
      · exact w.record_silent _ _ _ now same rfl
      · exact ⟨⟨trivial, trivial⟩, fun _ => ⟨⟨trivial, trivial⟩, fun _ =>
          ⟨⟨trivial, trivial⟩, fun _ => trivial⟩⟩⟩

theorem finish_silent (start : Time) (result : Option Error × Nat) :
    Prog.All (fun op => op.Silent ∧ op.Of task.id) (w.finish msg task start result) := by
  obtain ⟨execErr, attempts⟩ := result
  rw [finish_eq]
  refine ⟨⟨trivial, trivial⟩, fun stop => Prog.All.bind ?_ fun _ => ?_⟩
  · exact w.settle_silent msg _ _ execErr rfl
  · exact ⟨⟨trivial, trivial⟩, fun _ => trivial⟩

theorem noHandler_silent :
    Prog.All (fun op => op.Silent ∧ op.Of task.id) (w.noHandler msg task) :=
  ⟨⟨rfl, rfl⟩, fun _ => ⟨⟨trivial, trivial⟩, fun _ => ⟨⟨trivial, trivial⟩, fun _ => trivial⟩⟩⟩

theorem AttemptOp.of {op : Op Raw} (attempt : AttemptOp task op) : op.Of task.id := by
  cases op with
  | setStatus id status => exact attempt.1
  | handle h t => exact congrArg Task.id attempt
  | _ => trivial

theorem AttemptOp.not_closes {op : Op Raw} (attempt : AttemptOp task op) :
    ¬ op.Closes task.id := by
  cases op with
  | setStatus id status =>
      rintro ⟨_, terminal⟩
      rw [attempt.2] at terminal
      cases terminal
  | _ => exact id

/-- Past its check a worker call is silent from its terminal write on. -/
theorem processNew_once : Prog.Once (Op.Closes task.id) Op.Silent (w.processNew msg task) := by
  unfold processNew
  split
  · exact .of_all ((w.noHandler_silent msg task).mono fun _ both => both.1)
  · rename_i h found
    rw [execute_eq]
    refine ⟨fun closes => absurd closes.2 (by decide), fun answer => ?_⟩
    cases answer with
    | some err => trivial
    | none =>
        rw [afterRunning_none]
        refine ⟨fun closes => closes.elim, fun _ => ⟨fun closes => closes.elim, fun start => ?_⟩⟩
        refine Prog.Once.bind_of_none
          ((attemptsFrom_all).mono fun _ => AttemptOp.not_closes task) fun result => ?_
        exact .of_all ((w.finish_silent msg task start result).mono fun _ both => both.1)

/-- A worker call only runs handlers and writes statuses for its task. -/
theorem processNew_of : Prog.All (Op.Of task.id) (w.processNew msg task) := by
  unfold processNew
  split
  · exact (w.noHandler_silent msg task).mono fun _ both => both.2
  · rename_i h found
    rw [execute_eq]
    refine ⟨rfl, fun answer => ?_⟩
    cases answer with
    | some err => trivial
    | none =>
        rw [afterRunning_none]
        refine ⟨trivial, fun _ => ⟨trivial, fun start => ?_⟩⟩
        refine Prog.All.bind (attemptsFrom_all.mono fun _ => AttemptOp.of task) fun result => ?_
        exact (w.finish_silent msg task start result).mono fun _ both => both.2

end Worker

/-! ## Consumers and their slots -/

/-- What a consumer does with a message it was handed. -/
inductive Consume (Raw : Type) : Type
  | route (d : Dispatcher) (msg : Message Raw)
  | process (w : Worker) (msg : Message Raw)

namespace Consume

def body (json : Json Raw) : Consume Raw → Service Raw (Option Error)
  | .route d msg => d.route json msg
  | .process w msg => w.processMessage json msg

/-- The task a worker call is about. -/
def task (json : Json Raw) : Consume Raw → Option Task
  | .route _ _ => none
  | .process _ msg => json.unmarshal msg.value

/-- The message is in the log, in the topic of the consumer. -/
def Delivered (log : List (Record Raw)) : Consume Raw → Prop
  | .route _ msg => msg.topic = topicPending ∧ ∃ r ∈ log, r.message = msg
  | .process w msg => msg.topic = workerTopic w.workerType ∧ ∃ r ∈ log, r.message = msg

instance [DecidableEq Raw] (log : List (Record Raw)) :
    (request : Consume Raw) → Decidable (request.Delivered log)
  | .route _ _ => inferInstanceAs (Decidable (_ ∧ _))
  | .process _ _ => inferInstanceAs (Decidable (_ ∧ _))

/-- A call of a dispatcher. -/
def routes : Consume Raw → Bool
  | .route _ _ => true
  | .process _ _ => false

/-- What is left to run of a call: a worker call on a task is before its check, or
past it; a call of a dispatcher only queues; any other call makes no calls. -/
def Shape (json : Json Raw) (request : Consume Raw) (rest : Service Raw (Option Error)) : Prop :=
  match request.task json with
  | none => Prog.All (fun op => request.routes = true ∧ op.Routes) rest
  | some task =>
      rest = request.body json ∨
        (Prog.Once (Op.Closes task.id) Op.Silent rest ∧ Prog.All (Op.Of task.id) rest)

variable {json : Json Raw} {request : Consume Raw} {t : Task}

theorem body_eq (decoded : request.task json = some t) :
    ∃ w msg, request.body json = .call (.getStatus t.id) fun status =>
      if Worker.alreadyTerminal status then .pure none else Worker.processNew w msg t := by
  cases request with
  | route d msg => cases decoded
  | process w msg =>
      refine ⟨w, msg, ?_⟩
      simp only [body, Worker.processMessage, show json.unmarshal msg.value = some t from decoded]
      exact w.processTask_eq msg t

theorem shape_body (request : Consume Raw) : request.Shape json (request.body json) := by
  unfold Shape
  split
  · rename_i none
    cases request with
    | route d msg => exact (d.route_all json msg).mono fun _ routes => ⟨rfl, routes⟩
    | process w msg =>
        simp only [body, Worker.processMessage, show json.unmarshal msg.value = .none from none]
        trivial
  · exact .inl rfl

theorem Shape.answer {op : Op Raw} {next : op.Ans → Service Raw (Option Error)}
    (shape : request.Shape json (.call op next)) (a : op.Ans) : request.Shape json (next a) := by
  unfold Shape at shape ⊢
  split at shape
  · exact shape.2 a
  · rename_i t decoded
    right
    rcases shape with unchecked | ⟨once, own⟩
    · obtain ⟨w, msg, eq⟩ := body_eq decoded
      rw [eq] at unchecked
      cases unchecked
      dsimp only
      split
      · exact ⟨trivial, trivial⟩
      · exact ⟨w.processNew_once msg t, w.processNew_of msg t⟩
    · exact ⟨once.2 a, own.2 a⟩

/-- The check of a worker call ends it when it finds a terminal status. -/
theorem check_run {s : World Raw} (up : s.Up) {op : Op Raw}
    {next : op.Ans → Service Raw (Option Error)} (decoded : request.task json = some t)
    (unchecked : Prog.call op next = request.body json) :
    op = .getStatus t.id ∧
      (s.terminal t.id = true → next (perform op s).1 = .pure none) := by
  obtain ⟨w, msg, eq⟩ := body_eq decoded
  rw [eq] at unchecked
  cases unchecked
  refine ⟨rfl, fun terminal => ?_⟩
  have seen := Worker.alreadyTerminal_getStatus s t.id
  rw [up.reliable.fails, up.live, terminal] at seen
  exact if_pos seen

/-- Who writes a status: a dispatcher writes `QUEUED`, a worker call past its check
writes for its own task. -/
theorem Shape.writes {id : String} {status : Status}
    {next : (Op.setStatus id status : Op Raw).Ans → Service Raw (Option Error)}
    (shape : request.Shape json (.call (.setStatus id status) next)) :
    (request.routes = true ∧ status = .queued) ∨ ∃ t, request.task json = some t ∧ t.id = id := by
  unfold Shape at shape
  split at shape
  · exact .inl shape.1
  · rename_i t decoded
    right
    rcases shape with unchecked | ⟨_, own⟩
    · obtain ⟨w, msg, eq⟩ := body_eq decoded
      rw [eq] at unchecked
      cases unchecked
    · exact ⟨t, decoded, own.1.symm⟩

/-- A call past its check that has not closed its task leaves it open or closes it
and is silent then. -/
theorem Shape.act {s : World Raw} (up : s.Up) {op : Op Raw}
    {next : op.Ans → Service Raw (Option Error)} (shape : request.Shape json (.call op next))
    (decoded : request.task json = some t) (opened : s.terminal t.id = false) :
    Prog.All Op.Silent (next (perform op s).1) ∨ (perform op s).2.terminal t.id = false := by
  unfold Shape at shape
  rw [decoded] at shape
  by_cases writes : ∃ status, op = .setStatus t.id status
  · obtain ⟨status, rfl⟩ := writes
    rcases shape with unchecked | ⟨once, _⟩
    · cases (check_run up decoded unchecked).1
    · cases terminal : status.isTerminal with
      | true => exact .inl (once.1 ⟨rfl, terminal⟩ _)
      | false => exact .inr ((up.setStatus_terminal t.id status).trans terminal)
  · exact .inr ((perform_terminal fun status eq => writes ⟨status, eq⟩).trans opened)

end Consume

/-- The pool of the consumers. -/
abbrev ConsumerPool (Raw ι : Type) : Type :=
  Pool (Op Raw) Op.Ans (World Raw) ι (Consume Raw) (Option Error)

/-- A step of the consumers. -/
abbrev ConsumerStep (Raw ι : Type) : Type :=
  Transition (ConsumerPool Raw ι) (Label (Op Raw) ι (Consume Raw))

/-- Slot `i` runs a worker call on this task. -/
def Busy (json : Json Raw) (s : ConsumerPool Raw ι) (i : ι) (id : String) : Prop :=
  ∃ thread task, s.threads i = some thread ∧ thread.request.task json = some task ∧ task.id = id

instance (json : Json Raw) (s : ConsumerPool Raw ι) (i : ι) (id : String) :
    Decidable (Busy json s i id) :=
  decidable_of_iff
    ((s.threads i).any fun thread => (thread.request.task json).any (·.id = id))
    (by simp only [Option.any_eq_true, Busy, decide_eq_true_eq, exists_and_left])

/-- Dispatchers and workers on messages of the log, each any number of times. -/
def consumers (json : Json Raw) (Admits : ConsumerPool Raw ι → ι → Consume Raw → Prop) :
    System (Op Raw) Op.Ans (World Raw) ι (Consume Raw) (Option Error) where
  perform := perform
  body _ := Consume.body json
  Admits s i request := request.Delivered s.world.kafka ∧ Admits s i request
  Env _ _ := False

/-- The task a step writes `QUEUED` for. -/
def queues : Label (Op Raw) ι (Consume Raw) → Option String
  | .act _ (.setStatus id .queued) => some id
  | _ => none

theorem mem_queues {l : Label (Op Raw) ι (Consume Raw)} {id : String} (queued : id ∈ queues l) :
    ∃ i, l = .act i (.setStatus id .queued) := by
  unfold queues at queued
  split at queued
  · rename_i i id'
    cases queued
    exact ⟨i, rfl⟩
  · cases queued

section Pool

variable [DecidableEq ι] {json : Json Raw} {s t : ConsumerPool Raw ι}
  {Admits : ConsumerPool Raw ι → ι → Consume Raw → Prop} {l : Label (Op Raw) ι (Consume Raw)}

/-- Every slot has the shape of its call. -/
def Shaped (json : Json Raw) (s : ConsumerPool Raw ι) : Prop :=
  ∀ i thread, s.threads i = some thread → thread.request.Shape json thread.rest

theorem Shaped.step (step : (consumers json Admits).Step s l t) (shaped : Shaped json s) :
    Shaped json t :=
  step.thread_invariant (T := fun _ request rest => Consume.Shape json request rest)
    (fun _ => Consume.shape_body) (fun _ _ _ _ shape => shape.answer _) shaped

/-- The world moves by the calls of the slots only. -/
theorem consumers_world (step : (consumers json Admits).Step s l t) :
    ((∀ i op, l ≠ .act i op) ∧ t.world = s.world) ∨
      ∃ i request op next, l = .act i op ∧ s.threads i = some ⟨request, .call op next⟩ ∧
        t.world = (perform op s.world).2 := by
  rcases step.world_cases with same | acted | ⟨_, moved⟩
  · exact .inl same
  · exact .inr acted
  · exact moved.elim

theorem consumers_calm (step : (consumers json Admits).Step s l t) (calm : s.world.Calm) :
    t.world.Calm :=
  step.world_invariant (I := World.Calm) (fun _ _ => perform_calm)
    (fun _ _ moved => False.elim moved) calm

/-- A slot becomes busy with a task by a start only. -/
theorem Busy.before (step : (consumers json Admits).Step s l t) {i : ι} {id : String}
    (busy : Busy json t i id) :
    Busy json s i id ∨ ∃ request task, l = .start i request ∧
      request.task json = some task ∧ task.id = id ∧ Admits s i request := by
  obtain ⟨thread, task, running, decoded, same⟩ := busy
  rcases step.threads_cases running with ⟨before, _⟩ | ⟨request, started, _, admitted, rfl⟩ |
    ⟨op, next, _, before, _⟩
  · exact .inl ⟨thread, task, before, decoded, same⟩
  · exact .inr ⟨request, task, started, decoded, same, admitted.2⟩
  · exact .inl ⟨_, task, before, decoded, same⟩

/-- What a step does to the status of a task: nothing, or it is a status write of a
slot. -/
theorem terminal_step (step : (consumers json Admits).Step s l t) (up : s.world.Up) (id : String) :
    ((∀ i status, l ≠ .act i (.setStatus id status)) ∧ t.world.terminal id = s.world.terminal id) ∨
      ∃ i request status next, l = .act i (.setStatus id status) ∧
        s.threads i = some ⟨request, .call (.setStatus id status) next⟩ ∧
        t.world.terminal id = status.isTerminal := by
  rcases consumers_world step with ⟨other, same⟩ | ⟨i, request, op, next, rfl, acting, after⟩
  · exact .inl ⟨fun i status => other i _, by rw [same]⟩
  · rw [after]
    by_cases writes : ∃ status, op = .setStatus id status
    · obtain ⟨status, rfl⟩ := writes
      exact .inr ⟨i, request, status, next, rfl, acting, up.setStatus_terminal id status⟩
    · refine .inl ⟨fun j status eq => ?_, perform_terminal fun status eq => writes ⟨status, eq⟩⟩
      cases eq
      exact writes ⟨status, rfl⟩

end Pool

/-! ## Computed runs -/

instance [DecidableEq Raw] {json : Json Raw}
    {Admits : ConsumerPool Raw ι → ι → Consume Raw → Prop}
    [∀ s i request, Decidable (Admits s i request)] (s : ConsumerPool Raw ι) (i : ι)
    (request : Consume Raw) : Decidable ((consumers json Admits).Admits s i request) :=
  inferInstanceAs (Decidable (_ ∧ _))

theorem consumers_play {json : Json Task}
    {Admits : ConsumerPool Task Bool → Bool → Consume Task → Prop} {s : ConsumerPool Task Bool}
    (moves : List (Move (World Task) Bool (Consume Task)))
    (admitted : ∀ e ∈ (consumers json Admits).play s moves, (consumers json Admits).Admitted e)
    (closed : ∀ change, .env change ∉ moves) :
    Trace (consumers json Admits).Step s ((consumers json Admits).play s moves)
      ((consumers json Admits).final s moves) :=
  System.play_trace admitted fun change member => absurd member (closed change)

end TaskFlow
