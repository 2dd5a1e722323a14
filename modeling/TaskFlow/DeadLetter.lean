import TaskFlow.Tickets

/-!
# Dead letters

A worker writes `DEAD` before it sends a message to `tasks.dlq`, a dispatcher that is
over the limit sends it there and leaves the status alone.  In a run in which no call
fails and each message is delivered once, a task whose message is a dead letter has a
terminal status as long as the limiter did not refuse it and no `QUEUED` was written over
its `DEAD` (`dead_letters_dead`).  The ticket of a task is gone once `DEAD` is written,
so nobody else can write its status.
-/

namespace TaskFlow

open Effect

variable {Raw ι : Type} {json : Json Raw}

/-! ## What consumers do before they send a dead letter -/

/-- The call sends a dead letter. -/
def Op.DeadLetter : Op Raw → Prop
  | .publish topic _ _ _ => topic = topicDLQ
  | _ => False

/-- The call writes `DEAD`. -/
def Op.Kills (id : String) (op : Op Raw) : Prop := op = .setStatus id .dead

namespace Worker

variable (w : Worker) (msg : Message Raw)

theorem settle_awaits {task : Task} {id : String} (durationMs : Int) (execErr : Option Error)
    (same : task.id = id) :
    Prog.Awaits (Op.Kills id) Op.DeadLetter (w.settle msg.value task durationMs execErr) := by
  cases execErr with
  | none =>
      rw [settle, finishSuccess_eq]
      refine .of_none ⟨False.elim, fun now => Prog.All.bind ?_ fun _ => ?_⟩
      · exact ⟨False.elim, fun _ => ⟨False.elim, fun _ => ⟨False.elim, fun _ =>
          ⟨False.elim, fun _ => trivial⟩⟩⟩⟩
      · exact ⟨False.elim, fun _ => trivial⟩
  | some err =>
      rw [settle, finishFailure_eq]
      exact ⟨False.elim, .inr fun now => ⟨False.elim, .inl (by rw [Op.Kills, same])⟩⟩

/-- A worker writes `DEAD` before it sends a dead letter. -/
theorem processMessage_awaits {task : Task} (decodes : json.unmarshal msg.value = some task) :
    Prog.Awaits (Op.Kills task.id) Op.DeadLetter (w.processMessage json msg) := by
  unfold processMessage
  rw [decodes]
  dsimp only
  rw [processTask_eq]
  refine ⟨id, .inr fun status => ?_⟩
  dsimp only
  split
  · trivial
  · unfold processNew
    split
    · exact ⟨id, .inl rfl⟩
    · rename_i h found
      rw [execute_eq]
      refine ⟨id, .inr fun answer => ?_⟩
      cases answer with
      | some err => trivial
      | none =>
          rw [afterRunning_none]
          refine ⟨id, .inr fun _ => ⟨id, .inr fun start => ?_⟩⟩
          refine Prog.Awaits.bind (.of_none (attemptsFrom_all.mono fun op attempt letter => ?_))
            fun result => ?_
          · cases op with
            | publish _ _ _ _ => exact attempt
            | _ => exact letter
          · obtain ⟨execErr, attempts⟩ := result
            rw [finish_eq]
            refine ⟨id, .inr fun stop => Prog.Awaits.bind ?_ fun _ => ⟨id, .inr fun _ => trivial⟩⟩
            exact w.settle_awaits msg _ execErr rfl

end Worker

namespace Dispatcher

/-- A dispatcher that passed the limiter sends no dead letter. -/
theorem forward_sends (msg : Message Raw) (task : Task) :
    Prog.All (fun op => ¬ op.DeadLetter) (forward msg task) := by
  refine ⟨(workerTopic_ne task.type).2, fun answer => ?_⟩
  cases answer with
  | some err => trivial
  | none => exact ⟨id, fun _ => ⟨id, fun _ => trivial⟩⟩

/-- What is left of a `route` call that was not refused: it is before the answer of the
limiter, or sends no dead letter. -/
def Unrefused (msg : Message Raw) (rest : Service Raw (Option Error)) : Prop :=
  Prog.All (fun op => ¬ op.DeadLetter) rest ∨
    ∃ task, rest = .call (.allow task.type) (afterLimiter msg task)

theorem route_unrefused (d : Dispatcher) {msg : Message Raw} {task : Task}
    (decodes : json.unmarshal msg.value = some task) (typed : task.type ≠ "") :
    Unrefused msg (d.route json msg) := by
  unfold route
  rw [decodes]
  dsimp only
  rw [if_neg typed]
  split
  · exact .inr ⟨task, rfl⟩
  · exact .inl (forward_sends msg task)

theorem Unrefused.answer {msg : Message Raw} {op : Op Raw}
    {next : op.Ans → Service Raw (Option Error)} {w : World Raw}
    (unrefused : Unrefused msg (.call op next))
    (allowed : ∀ taskType, op = .allow taskType → w.allow.1 ≠ .ok false) :
    Unrefused msg (next (perform op w).1) := by
  rcases unrefused with quiet | ⟨task, eq⟩
  · exact .inl (quiet.2 _)
  · cases eq
    left
    have passed : (perform (.allow task.type) w).1 ≠ .ok false := allowed task.type rfl
    generalize (perform (.allow task.type) w).1 = answer at passed ⊢
    rcases answer with err | (_ | _)
    · exact forward_sends msg task
    · exact absurd rfl passed
    · exact forward_sends msg task

end Dispatcher

/-! ## A task that is dead stays dead -/

section Runs

variable [DecidableEq ι] {s t : PipelinePool Raw ι} {h x : List (PipelineStep Raw ι)}
  {e : PipelineStep Raw ι} {l : Label (Op Raw) ι (Job Raw)} {out : List Nat} {id : String}

omit [DecidableEq ι] in
/-- A worker that writes a status holds the ticket of its task. -/
theorem ticket_of_writes {i : ι} {n : Nat} {c : Consume Raw} {status : Status}
    {next : Option Error → Service Raw (Option Error)}
    (here : s.threads i = some ⟨.consume n c, .call (.setStatus id status) next⟩)
    (consumes : (Op.setStatus id status).Consumes json c) (works : c.routes = false) :
    (tickets json out s).held (.inl i) = some id := by
  obtain ⟨_, task, decodes, same⟩ := consumes
  have needs : c.Needs (.setStatus id status) := works
  calc (tickets json out s).held (.inl i)
      = (Job.consume n c).ticket json (.call (.setStatus id status) next) := tickets_slot here
    _ = (json.unmarshal c.message.value).map Task.id := Job.ticket_needs needs
    _ = some id := by rw [decodes, Option.map_some, same]

/-- Nobody writes the status of a dead task but a dispatcher. -/
theorem dead_stays (happens : Happens json s l t) (inside : l ≠ .env)
    (spent : (tickets json out s).Spent id) (dead : s.world.redis.state id = some .dead)
    (unqueued : ∀ i, l ≠ .act i (.setStatus id .queued)) :
    t.world.redis.state id = some .dead := by
  cases happens with
  | start idle delivered => exact dead
  | stop running => exact dead
  | drifts moved => exact absurd rfl inside
  | @submits i r op next here advance =>
      refine (perform_state ?_).trans dead
      rintro status rfl
      refine spent.free (.inl i) ((tickets_slot here).trans ?_)
      exact congrArg Submission.Progress.id advance.marks.1
  | @consumes i n c op next here consumes =>
      refine (perform_state ?_).trans dead
      rintro status rfl
      cases routes : c.routes with
      | true => exact unqueued i (by rw [consumes.1 routes])
      | false => exact spent.free (.inl i) (ticket_of_writes here consumes routes)

/-- Who writes `DEAD` gives up the ticket of the task. -/
theorem spent_of_dead (ordered : Ordered json out s) (happens : Happens json s l t)
    (inside : l ≠ .env) (alive : s.world.redis.state id ≠ some .dead)
    (dead : t.world.redis.state id = some .dead) :
    (tickets json (out ++ (hands ⟨s, l, t⟩).toList) t).Spent id := by
  cases happens with
  | start idle delivered => exact absurd dead alive
  | stop running => exact absurd dead alive
  | drifts moved => exact absurd rfl inside
  | submits here advance =>
      cases perform_wrote alive dead
      cases advance.marks.2
  | @consumes i n c op next here consumes =>
      cases perform_wrote alive dead
      have works : c.routes = false := by
        cases routes : c.routes with
        | true => cases consumes.1 routes
        | false => rfl
      have held : (tickets json out s).held (.inl i) = some id :=
        ticket_of_writes here consumes works
      obtain ⟨⟨k, drawn⟩, kept⟩ := tickets_quiet here (perform_kafka (by simp))
        fun id (held : (Job.consume n c).ticket json _ = some id) => Job.ticket_answer held
      simp only [hands, Option.toList_none, List.append_nil]
      refine .of_lost ordered.sound held drawn kept ?_
      rw [tickets_slot Pool.act_self]
      exact ne_of_eq_of_ne (Job.ticket_last (ordered.once i n c _ here) ⟨works, rfl⟩)
        (Option.some_ne_none id).symm

/-! ## Dead letters of dead tasks -/

/-- How a consumer stands to the dead letters of its task: a dispatcher was not refused, a
worker has yet to write `DEAD`, or has written it and will write no other status. -/
def Phase (id : String) (s : World Raw) (rest : Service Raw (Option Error)) :
    Consume Raw → Prop
  | .route _ msg => Dispatcher.Unrefused msg rest
  | .process w msg => Prog.Awaits (Op.Kills id) Op.DeadLetter rest ∨
      (Prog.All (fun op => ¬ (Consume.process w msg).Needs op) rest ∧
        s.redis.state id = some .dead)

/-- The slot sends a dead letter of the task. -/
def SendsDeadLetter (json : Json Raw) (id : String) (i : ι) (e : PipelineStep Raw ι) : Prop :=
  ∃ key value origin task, e.label = .act i (.publish topicDLQ key value origin) ∧
    json.unmarshal value = some task ∧ task.id = id

/-- The call in the slot returns. -/
def Returns (i : ι) (e : PipelineStep Raw ι) : Prop :=
  e.label = .stop i ∧ ∃ job result, e.pre.threads i = some ⟨job, .pure result⟩

/-- The task of a consumer. -/
def Job.about (json : Json Raw) : Job Raw → Option String
  | .submit _ => none
  | .consume _ c => (json.unmarshal c.message.value).map Task.id

/-- The task the limiter refuses in this step. -/
def refused (json : Json Raw) (e : PipelineStep Raw ι) : Option String :=
  match e.label, e.pre.world.allow.1 with
  | .act i (.allow _), .ok false => (e.pre.threads i).bind fun thread => thread.request.about json
  | _, _ => none

/-- The task this step writes `QUEUED` for when it is `DEAD`. -/
def requeued (e : PipelineStep Raw ι) : Option String :=
  match e.label with
  | .act _ (.setStatus id .queued) =>
      if e.pre.world.redis.state id = some .dead then some id else none
  | _ => none

/-- No call of the step fails. -/
def Works (e : PipelineStep Raw ι) : Prop :=
  ∀ i op c, e.label = .act i op → op.kind = some c → e.pre.world.fails c = false

/-- The dead letters of the task so far were sent when it was dead, and it still is. -/
structure Tracked (json : Json Raw) (id : String) (x : List (PipelineStep Raw ι))
    (s : PipelinePool Raw ι) : Prop where
  ordered : Ordered json (handedOut x) s
  spent : s.world.redis.state id = some .dead → (tickets json (handedOut x) s).Spent id
  phase : ∀ i n c rest, s.threads i = some ⟨.consume n c, rest⟩ →
    ∀ task, json.unmarshal c.message.value = some task → task.id = id →
      Phase id s.world rest c
  buried : ∀ e ∈ x, ∀ i, SendsDeadLetter json id i e → s.world.redis.state id = some .dead

theorem Tracked.stays (tracked : Tracked json id x e.pre)
    (step : (pipeline ι json).Step e.pre e.label e.post) (inside : e.label ≠ .env)
    (unqueued : requeued e ≠ some id) (dead : e.pre.world.redis.state id = some .dead) :
    e.post.world.redis.state id = some .dead :=
  dead_stays (pipeline_step step tracked.ordered.shaped) inside (tracked.spent dead) dead
    fun i label => unqueued (by simp only [requeued, label, if_pos dead])

/-- The phase of a consumer after one of its calls. -/
theorem Phase.answer {i : ι} {n : Nat} {c : Consume Raw} {op : Op Raw} {task : Task}
    {next : op.Ans → Service Raw (Option Error)} (tracked : Tracked json id x e.pre)
    (step : (pipeline ι json).Step e.pre e.label e.post) (inside : e.label ≠ .env)
    (works : Works e) (unrefused : refused json e ≠ some id) (unqueued : requeued e ≠ some id)
    (label : e.label = .act i op) (world : e.post.world = (perform op e.pre.world).2)
    (here : e.pre.threads i = some ⟨.consume n c, .call op next⟩)
    (decodes : json.unmarshal c.message.value = some task) (same : task.id = id) :
    Phase id e.post.world (next (perform op e.pre.world).1) c := by
  have before := tracked.phase i n c _ here task decodes same
  cases c with
  | route d msg =>
      refine Dispatcher.Unrefused.answer before fun taskType allows answer => unrefused ?_
      subst allows
      simp only [refused, label, answer, here, Option.bind_some, Job.about, decodes,
        Option.map_some, same]
  | process w msg =>
      rcases before with ⟨_, kills | awaits⟩ | ⟨quiet, dead⟩
      · cases kills
        have up : e.pre.world.fails .setStatus = false := works i _ _ label rfl
        refine .inr ⟨(tracked.ordered.once i n _ _ here).1 ⟨rfl, rfl⟩ _, ?_⟩
        rw [world, perform_setStatus_state, up]
        rfl
      · exact .inl (awaits _)
      · exact .inr ⟨quiet.2 _, tracked.stays step inside unqueued dead⟩

/-- A dead letter is sent by a worker that has written `DEAD`. -/
theorem Tracked.dead_of_letter {i : ι} {key : String} {value : Raw} {origin : Origin}
    {task : Task} (tracked : Tracked json id x s)
    (happens : Happens json s (.act i (.publish topicDLQ key value origin)) t)
    (decodes : json.unmarshal value = some task) (same : task.id = id) :
    s.world.redis.state id = some .dead := by
  cases happens with
  | submits here advance =>
      obtain ⟨_, _, pending, _⟩ := advance.publishes
      exact absurd pending (by decide)
  | @consumes _ n c _ next here consumes =>
      rw [show value = c.message.value from consumes.1] at decodes
      have phase := tracked.phase i n c _ here task decodes same
      cases c with
      | route d msg =>
          rcases phase with quiet | ⟨_, eq⟩
          · exact absurd rfl quiet.1
          · cases eq
      | process w msg =>
          rcases phase with awaits | closed
          · exact absurd rfl awaits.1
          · exact closed.2

theorem Tracked.step (tracked : Tracked json id x e.pre)
    (step : (pipeline ι json).Step e.pre e.label e.post) (inside : e.label ≠ .env)
    (works : Works e) (fresh : ∀ n ∈ hands e, n ∉ handedOut x)
    (unrefused : refused json e ≠ some id) (unqueued : requeued e ≠ some id) :
    Tracked json id (x ++ [e]) e.post := by
  have happens := pipeline_step step tracked.ordered.shaped
  have ordered := tracked.ordered.step step fresh
  have stays := tracked.stays step inside unqueued
  refine ⟨handedOut_concat ▸ ordered, ?_, ?_, ?_⟩
  · intro dead
    rw [handedOut_concat]
    by_cases before : e.pre.world.redis.state id = some .dead
    · exact (tracked.spent before).step
        (tickets_step happens tracked.ordered.handed fresh tracked.ordered.once)
    · exact spent_of_dead tracked.ordered happens inside before dead
  · intro i n c rest running task decodes same
    rcases step.threads_cases running with ⟨before, _⟩ | ⟨job, _, _, delivered, started⟩ |
      ⟨op, next, label, before, left, world⟩
    · have phase := tracked.phase i n c rest before task decodes same
      cases c with
      | route d msg => exact phase
      | process w msg => exact phase.imp_right fun closed => ⟨closed.1, stays closed.2⟩
    · cases started
      cases c with
      | route d msg =>
          obtain ⟨r, member, same⟩ := ordered.taken i n _ _ running
          exact d.route_unrefused decodes (ordered.typed r member task (by rw [same, ← decodes]))
      | process w msg => exact .inl (same ▸ w.processMessage_awaits msg decodes)
    · dsimp only at left
      rw [left]
      exact Phase.answer tracked step inside works unrefused unqueued label world before decodes
        same
  · intro e' member i letter
    rcases List.mem_append.mp member with before | last
    · exact stays (tracked.buried e' before i letter)
    · cases List.mem_singleton.mp last
      obtain ⟨key, value, origin, task, label, decodes, same⟩ := letter
      rw [label] at happens
      exact stays (tracked.dead_of_letter happens decodes same)

/-- A run from an empty deployment in which no call fails, no key expires and each record
is delivered once. -/
structure SmoothRun (json : Json Raw) (w : World Raw) (h : List (PipelineStep Raw ι))
    (t : PipelinePool Raw ι) : Prop where
  empty : w.Empty
  distinct : Function.Injective w.script.uuid
  run : Trace (pipeline ι json).Step ⟨w, fun _ => none⟩ h t
  inside : ∀ e ∈ h, e.label ≠ .env
  works : ∀ e ∈ h, Works e
  once : (handedOut h).Nodup

/-- A call has sent a dead letter of the task and returned. -/
def DeadLettered (json : Json Raw) (h : List (PipelineStep Raw ι)) (id : String) : Prop :=
  ∃ (n m : Nat) (i : ι) (e e' : PipelineStep Raw ι), n < m ∧ h[n]? = some e ∧ h[m]? = some e' ∧
    SendsDeadLetter json id i e ∧ Returns i e' ∧
    ∀ k between, n < k → k < m → h[k]? = some between → between.label ≠ .stop i

variable {w : World Raw}

theorem SmoothRun.tracked (smooth : SmoothRun json w h t)
    (unrefused : ∀ e ∈ h, refused json e ≠ some id) (unqueued : ∀ e ∈ h, requeued e ≠ some id) :
    Tracked json id h t := by
  refine smooth.run.history (I := Tracked json id) ?_ fun x e y split step tracked => ?_
  · refine ⟨ordered_idle smooth.empty smooth.distinct, fun dead => ?_, fun _ _ _ _ => nofun,
      fun _ => nofun⟩
    rw [smooth.empty.state id] at dead
    cases dead
  · have member : e ∈ h := split ▸ List.mem_append_right _ List.mem_cons_self
    have fresh : ∀ n ∈ hands e, n ∉ [] ++ handedOut x := handedOut_fresh (split ▸ smooth.once)
    exact tracked.step step (smooth.inside e member) (smooth.works e member) fresh
      (unrefused e member) (unqueued e member)

/-- A calm world makes the calls of a run work. -/
theorem works_of_calm (calm : w.Calm)
    (run : Trace (pipeline ι json).Step ⟨w, fun _ => none⟩ h t)
    (inside : ∀ e ∈ h, e.label ≠ .env) : ∀ e ∈ h, Works e := by
  intro e member i op c _ _
  have still := run.invariant_pre (I := fun s => s.world.Calm) calm
    (fun e member step => pipeline_calm step (inside e member)) e member
  exact (still.reliable.fails c).trans still.live

/-- **Dead letters are dead.**  In every run without failures in which each message is
delivered once, a task whose message was put in the dead letters has a terminal status,
when the limiter refused none of its `route` calls and no `QUEUED` was written over its
`DEAD`. -/
theorem dead_letters_dead (json : Json Raw) (w : World Raw) (smooth : SmoothRun json w h t)
    (id : String) (unrefused : ∀ e ∈ h, refused json e ≠ some id)
    (unqueued : ∀ e ∈ h, requeued e ≠ some id) (lettered : DeadLettered json h id) :
    t.world.terminal id = true := by
  obtain ⟨n, _, i, e, _, _, found, _, letter, _⟩ := lettered
  have dead := (smooth.tracked unrefused unqueued).buried e (List.mem_of_getElem? found) i letter
  rw [World.terminal, dead]
  rfl

end Runs

/-! ## An email without a handler, and one over the limit -/

/-- The run that moves of the slots make in an empty deployment. -/
theorem smooth_play (script : Script) (moves : List (Move (World Task) Bool (Job Task)))
    (calm : (undeployed script).world.Calm) (slots : ∀ change, .env change ∉ moves)
    (admitted : ∀ e ∈ (pipeline Bool plainJson).play (undeployed script) moves,
      (pipeline Bool plainJson).Admitted e)
    (once : (handedOut ((pipeline Bool plainJson).play (undeployed script) moves)).Nodup) :
    SmoothRun plainJson (undeployed script).world
      ((pipeline Bool plainJson).play (undeployed script) moves)
      ((pipeline Bool plainJson).final (undeployed script) moves) := by
  have run := System.play_trace admitted fun change member => absurd member (slots change)
  have inside := (pipeline Bool plainJson).play_inside (s := undeployed script) slots
  exact ⟨undeployed_empty script, countedIDs_injective, run, inside,
    works_of_calm calm run inside, once⟩

/-- A worker for emails without any handler. -/
def bareWorker : Worker := { emailWorker 3 with registry := ⟨fun _ => none⟩ }

/-- An email is submitted, routed and taken up by a worker that cannot handle it. -/
def unhandled : List (Move (World Task) Bool (Job Task)) :=
  submitAndRoute ⟨"email", [123, 125], 1, 0⟩ ++
    .start true (.consume 1 (.process bareWorker
        (workerMessage plainJson (firstTask ⟨"email", [123, 125], 1, 0⟩)))) ::
      List.replicate 4 (.act true) ++ [.stop true]

theorem dead_letters_dead_unhandled :
    ((pipeline Bool plainJson).final (undeployed .calm) unhandled).world.terminal "x" = true := by
  have smooth := smooth_play .calm unhandled
    ⟨⟨rfl, fun _ => rfl, fun _ => rfl⟩, fun _ _ => rfl⟩ (by simp [unhandled, submitAndRoute])
    (by decide) (by decide)
  refine dead_letters_dead plainJson _ smooth "x" (by decide) (by decide) ?_
  refine ⟨17, 19, true, _, _, by decide, rfl, rfl, ⟨_, _, _, _, rfl, rfl, rfl⟩,
    ⟨rfl, _, _, rfl⟩, ?_⟩
  intro k between above below found
  rw [show k = 18 by omega] at found
  cases found
  exact nofun

/-- A limiter that refuses every task. -/
def refusing : Script := { Script.calm with limiter := fun _ => .ok false }

/-- An email over the limit is a dead letter and still `PENDING`. -/
theorem refused_left_pending :
    ¬ ∀ (w : World Task) (h : List (PipelineStep Task Bool)) (t : PipelinePool Task Bool)
      (id : String), SmoothRun plainJson w h t → DeadLettered plainJson h id →
      t.world.terminal id = true := by
  intro lettersDead
  have smooth := smooth_play refusing (submitAndRoute ⟨"email", [123, 125], 1, 0⟩)
    ⟨⟨rfl, fun _ => rfl, fun _ => rfl⟩, fun _ _ => rfl⟩ (by simp [submitAndRoute])
    (by decide) (by decide)
  have terminal := lettersDead _ _ _ "x" smooth ⟨12, 13, false, _, _, by decide, rfl, rfl,
    ⟨_, _, _, _, rfl, rfl, rfl⟩, ⟨rfl, _, _, rfl⟩, fun k _ above below => absurd above (by omega)⟩
  exact absurd terminal (by decide)

end TaskFlow
