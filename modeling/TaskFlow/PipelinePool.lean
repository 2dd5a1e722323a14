import TaskFlow.ConsumerPool
import TaskFlow.SubmissionSteps
import TaskFlow.Effect.Custody

/-!
# The gateway, the dispatchers and the workers at the same time

Submissions, `route` calls and `processMessage` calls run concurrently, one store or
broker call at a time, each consumer on a record of the log that was delivered to it,
any number of times; slots crash, keys expire and contexts are cancelled at any time.
`pipeline_step` lists all that one step can do.  The identifier of a task is in the
custody of the submission that drew it until that is over (`custody_step`).
-/

namespace TaskFlow

open Effect

variable {Raw ι : Type} {json : Json Raw}

/-! ## What consumers do with a message -/

namespace Consume

/-- The message a consumer was handed. -/
def message : Consume Raw → Message Raw
  | .route _ msg => msg
  | .process _ msg => msg

/-- The topic a consumer reads. -/
def topic : Consume Raw → String
  | .route _ _ => topicPending
  | .process w _ => workerTopic w.workerType

end Consume

/-- The calls of a consumer: what it writes is about the task of its message, and what it
sends is the message.  A dispatcher writes `QUEUED` only, a worker sends to the dead
letters only. -/
def Op.Consumes (json : Json Raw) (c : Consume Raw) : Op Raw → Prop
  | .setStatus id status => (c.routes = true → status = .queued) ∧
      ∃ task, json.unmarshal c.message.value = some task ∧ task.id = id
  | .setTaskMeta copy => ∃ task, json.unmarshal c.message.value = some task ∧
      task.id = copy.id ∧ copy.status.isTerminal = true
  | .updateStatus id status => status.isTerminal = true ∧
      ∃ task, json.unmarshal c.message.value = some task ∧ task.id = id
  | .recordExecution exec => ∃ task, json.unmarshal c.message.value = some task ∧
      task.id = exec.taskID
  | .publish topic _ value _ => value = c.message.value ∧ (c.routes = false → topic = topicDLQ)
  | .create _ => False
  | .newUUID => False
  | _ => True

/-- A consumer writes about the task of its message only. -/
theorem Op.Consumes.writes {c : Consume Raw} {op : Op Raw} {id : String}
    (consumes : op.Consumes json c) (writes : op.Writes id) :
    ∃ task, json.unmarshal c.message.value = some task ∧ task.id = id := by
  cases op with
  | setStatus other status =>
      obtain rfl : other = id := writes
      exact consumes.2
  | setTaskMeta copy =>
      obtain rfl : copy.id = id := writes
      obtain ⟨task, decodes, same, _⟩ := consumes
      exact ⟨task, decodes, same⟩
  | updateStatus other status =>
      obtain rfl : other = id := writes
      exact consumes.2
  | recordExecution exec =>
      obtain rfl : exec.taskID = id := writes
      exact consumes
  | create task => exact consumes.elim
  | _ => exact writes.elim

theorem Dispatcher.route_consumes (d : Dispatcher) (json : Json Raw) (msg : Message Raw) :
    Prog.All (Op.Consumes json (.route d msg)) (d.route json msg) := by
  have reject : Prog.All (Op.Consumes json (.route d msg)) (reject msg) :=
    ⟨trivial, fun _ => ⟨⟨rfl, nofun⟩, fun _ => trivial⟩⟩
  unfold route
  cases decodes : json.unmarshal msg.value with
  | none => exact reject
  | some task =>
      have forward : Prog.All (Op.Consumes json (.route d msg)) (forward msg task) := by
        refine ⟨⟨rfl, nofun⟩, fun answer => ?_⟩
        cases answer with
        | none =>
            exact ⟨⟨fun _ => rfl, task, decodes, rfl⟩, fun _ => ⟨trivial, fun _ => trivial⟩⟩
        | some err => trivial
      dsimp only
      split
      · exact reject
      · split
        · refine ⟨trivial, fun allowed => ?_⟩
          rcases allowed with err | (_ | _)
          · exact forward
          · exact ⟨trivial, fun _ => ⟨trivial, fun _ => ⟨⟨rfl, nofun⟩, fun _ => trivial⟩⟩⟩
          · exact forward
        · exact forward

namespace Worker

variable {w : Worker} {msg : Message Raw} {task : Task}

theorem settle_consumes (w : Worker) (msg : Message Raw) {task copy : Task} (durationMs : Int)
    (execErr : Option Error) (decodes : json.unmarshal msg.value = some task)
    (same : task.id = copy.id) :
    Prog.All (Op.Consumes json (.process w msg))
      (w.settle msg.value copy durationMs execErr) := by
  have record : ∀ closed error now, closed.id = task.id → closed.status.isTerminal = true →
      Prog.All (Op.Consumes json (.process w msg))
        (w.record closed durationMs error now : Service Raw Unit) := by
    intro closed error now named terminal
    exact ⟨⟨nofun, task, decodes, named.symm⟩, fun _ => ⟨⟨task, decodes, named.symm, terminal⟩,
      fun _ => ⟨⟨task, decodes, named.symm⟩, fun _ => ⟨⟨terminal, task, decodes, named.symm⟩,
        fun _ => trivial⟩⟩⟩⟩
  cases execErr with
  | none =>
      rw [settle, finishSuccess_eq]
      refine ⟨trivial, fun now => Prog.All.bind (record _ _ now same.symm rfl) fun _ => ?_⟩
      exact ⟨trivial, fun _ => trivial⟩
  | some err =>
      rw [settle, finishFailure_eq]
      refine ⟨trivial, fun now => Prog.All.bind (record _ _ now same.symm rfl) fun _ => ?_⟩
      exact ⟨⟨rfl, fun _ => rfl⟩, fun _ => ⟨trivial, fun _ => ⟨trivial, fun _ => trivial⟩⟩⟩

theorem processMessage_consumes (w : Worker) (json : Json Raw) (msg : Message Raw) :
    Prog.All (Op.Consumes json (.process w msg)) (w.processMessage json msg) := by
  unfold processMessage
  cases decodes : json.unmarshal msg.value with
  | none => trivial
  | some task =>
      dsimp only
      rw [processTask_eq]
      refine ⟨trivial, fun status => ?_⟩
      dsimp only
      split
      · trivial
      · unfold processNew
        split
        · exact ⟨⟨nofun, task, decodes, rfl⟩, fun _ => ⟨⟨rfl, fun _ => rfl⟩, fun _ =>
            ⟨trivial, fun _ => trivial⟩⟩⟩
        · rename_i h found
          rw [execute_eq]
          refine ⟨⟨nofun, task, decodes, rfl⟩, fun answer => ?_⟩
          cases answer with
          | some err => trivial
          | none =>
              rw [afterRunning_none]
              refine ⟨trivial, fun _ => ⟨trivial, fun start => Prog.All.bind ?_ fun result => ?_⟩⟩
              · refine attemptsFrom_all.mono fun op attempt => ?_
                cases op with
                | setStatus id status => exact ⟨nofun, task, decodes, attempt.1.symm⟩
                | handle _ _ | count _ _ | wait _ => trivial
                | _ => exact attempt.elim
              · obtain ⟨execErr, attempts⟩ := result
                rw [finish_eq]
                refine ⟨trivial, fun stop => Prog.All.bind ?_ fun _ => ⟨trivial, fun _ => trivial⟩⟩
                exact w.settle_consumes msg _ execErr decodes rfl

end Worker

theorem Consume.body_consumes (json : Json Raw) (c : Consume Raw) :
    Prog.All (Op.Consumes json c) (c.body json) := by
  cases c with
  | route d msg => exact d.route_consumes json msg
  | process w msg => exact w.processMessage_consumes json msg

/-! ## The pool -/

/-- A call of one of the services; a consumer is handed the record at an offset of the
log. -/
inductive Job (Raw : Type) : Type
  | submit (r : Submission)
  | consume (offset : Nat) (c : Consume Raw)

namespace Job

def body (json : Json Raw) : Job Raw → Service Raw (Option Error)
  | .submit r => r.submit json >>= fun _ => pure none
  | .consume _ c => c.body json

/-- The record is in the log, in the topic of the consumer.  Committed offsets do not
matter: a run may hand out more records than a consumer group does. -/
def Delivered (log : List (Record Raw)) : Job Raw → Prop
  | .submit _ => True
  | .consume n c => (log[n]?).map Record.message = some c.message ∧ c.message.topic = c.topic

/-- What is left to run of a call. -/
def Shape (json : Json Raw) (rest : Service Raw (Option Error)) : Job Raw → Prop
  | .submit _ => Submission.Submitting json rest
  | .consume _ c => Prog.All (Op.Consumes json c) rest

/-- How far a submission is; a consumer has no task of its own. -/
def progress (rest : Service Raw (Option Error)) : Job Raw → Submission.Progress
  | .submit _ => Submission.progress rest
  | .consume _ _ => .none

theorem shape_body (job : Job Raw) : job.Shape json (job.body json) := by
  cases job with
  | submit r => exact (Submission.submitting_submit json r none).1
  | consume n c => exact c.body_consumes json

theorem progress_body (job : Job Raw) : job.progress (job.body json) = .none := by
  cases job with
  | submit r => exact (Submission.submitting_submit json r none).2
  | consume n c => rfl

theorem Shape.answer {job : Job Raw} {op : Op Raw} {next : op.Ans → Service Raw (Option Error)}
    (shape : job.Shape json (.call op next)) (a : op.Ans) : job.Shape json (next a) := by
  cases job with
  | submit r => exact (shape.advance a).1
  | consume n c => exact shape.2 a

end Job

/-- The pool of the pipeline. -/
abbrev PipelinePool (Raw ι : Type) : Type :=
  Pool (Op Raw) Op.Ans (World Raw) ι (Job Raw) (Option Error)

/-- A step of the pipeline. -/
abbrev PipelineStep (Raw ι : Type) : Type :=
  Transition (PipelinePool Raw ι) (Label (Op Raw) ι (Job Raw))

/-- A deployment whose stores and log are empty. -/
structure World.Empty (w : World Raw) : Prop where
  kafka : w.kafka = []
  state : ∀ id, w.redis.state id = none
  metas : ∀ id, w.redis.metas id = none
  tasks : ∀ id, w.db.tasks id = none

/-- What happens between the calls: a key of Redis expires, or the process that calls
next has a context of its own. -/
inductive World.Drift (w : World Raw) : World Raw → Prop
  | state (id : String) : Drift w (w.putState id none)
  | copy (id : String) : Drift w (w.putMeta id none)
  | context (cancelled : Bool) : Drift w { w with cancelled }

namespace World.Drift

variable {w w' : World Raw}

theorem kafka (drift : w.Drift w') : w'.kafka = w.kafka := by
  cases drift <;> rfl

theorem db (drift : w.Drift w') : w'.db = w.db := by
  cases drift <;> rfl

/-- No copy appears. -/
theorem metas {id : String} {copy : Task} (drift : w.Drift w')
    (cached : w'.redis.metas id = some copy) : w.redis.metas id = some copy := by
  cases drift with
  | state other => exact cached
  | context cancelled => exact cached
  | copy other =>
      have ne : id ≠ other := by
        rintro rfl
        simp [World.putMeta] at cached
      simpa [World.putMeta, Function.update_of_ne ne] using cached

end World.Drift

/-- Submissions, and consumers on records of the log, each any number of times. -/
def pipeline (ι : Type) (json : Json Raw) :
    System (Op Raw) Op.Ans (World Raw) ι (Job Raw) (Option Error) where
  perform := perform
  body _ := Job.body json
  Admits s _ job := job.Delivered s.world.kafka
  Env := World.Drift

section Steps

variable [DecidableEq ι] {s t : PipelinePool Raw ι} {l : Label (Op Raw) ι (Job Raw)}

/-- Every slot has the shape of its call. -/
def WellShaped (json : Json Raw) (s : PipelinePool Raw ι) : Prop :=
  ∀ i thread, s.threads i = some thread → thread.request.Shape json thread.rest

omit [DecidableEq ι] in
theorem wellShaped_idle {w : World Raw} :
    WellShaped json (⟨w, fun _ => none⟩ : PipelinePool Raw ι) :=
  fun _ _ running => nomatch running

theorem WellShaped.step (step : (pipeline ι json).Step s l t) (shaped : WellShaped json s) :
    WellShaped json t :=
  step.thread_invariant (T := fun _ job rest => Job.Shape json rest job)
    (fun _ => Job.shape_body) (fun _ _ _ _ shape => shape.answer _) shaped

/-- What one step of the pipeline does. -/
inductive Happens (json : Json Raw) (s : PipelinePool Raw ι) :
    Label (Op Raw) ι (Job Raw) → PipelinePool Raw ι → Prop
  | start {i : ι} {job : Job Raw} : s.threads i = none → job.Delivered s.world.kafka →
    Happens json s (.start i job) (s.put i (some ⟨job, job.body json⟩))
  | submits {i : ι} {r : Submission} {op : Op Raw} {next : op.Ans → Service Raw (Option Error)} :
    s.threads i = some ⟨.submit r, .call op next⟩ →
    Submission.Advance json (Submission.progress (.call op next)) op (perform op s.world).1
      (Submission.progress (next (perform op s.world).1)) →
    Happens json s (.act i op) (s.act perform i (.submit r) op next)
  | consumes {i : ι} {n : Nat} {c : Consume Raw} {op : Op Raw}
      {next : op.Ans → Service Raw (Option Error)} :
    s.threads i = some ⟨.consume n c, .call op next⟩ → op.Consumes json c →
    Happens json s (.act i op) (s.act perform i (.consume n c) op next)
  | stop {i : ι} {thread : Thread (Op Raw) Op.Ans (Job Raw) (Option Error)} :
    s.threads i = some thread → Happens json s (.stop i) (s.put i none)
  | drifts {w : World Raw} : s.world.Drift w → Happens json s .env { s with world := w }

/-- As long as the surroundings do nothing, a calm world stays calm. -/
theorem pipeline_calm (step : (pipeline ι json).Step s l t) (inside : l ≠ .env)
    (calm : s.world.Calm) : t.world.Calm := by
  rcases step.world_cases with ⟨_, same⟩ | ⟨_, _, op, _, _, _, after⟩ | ⟨env, _⟩
  · rwa [same]
  · rw [after]
    exact perform_calm calm
  · exact absurd env inside

theorem pipeline_step (step : (pipeline ι json).Step s l t) (shaped : WellShaped json s) :
    Happens json s l t := by
  cases step with
  | start idle admitted => exact .start idle admitted
  | @act i job op next here =>
      cases job with
      | submit r => exact .submits here ((shaped i _ here).advance _).2
      | consume n c => exact .consumes here (shaped i _ here).1
  | stop here => exact .stop here
  | env moved => exact .drifts moved

/-! ## The log -/

/-- The log only grows. -/
theorem pipeline_logged (step : (pipeline ι json).Step s l t) {r : Record Raw}
    (listed : r ∈ s.world.kafka) : r ∈ t.world.kafka :=
  step.world_invariant (I := fun w => r ∈ w.kafka) (fun op _ => perform_logged op)
    (fun _ _ moved => World.Drift.kafka moved ▸ id) listed

/-- Every consumer works on a record of the log. -/
def Taken (s : PipelinePool Raw ι) : Prop :=
  ∀ i n c rest, s.threads i = some ⟨.consume n c, rest⟩ →
    ∃ r ∈ s.world.kafka, r.message = c.message

theorem Taken.step (step : (pipeline ι json).Step s l t) (taken : Taken s) : Taken t := by
  intro i n c rest running
  rcases step.threads_cases running with ⟨before, _⟩ | ⟨job, _, _, delivered, started⟩ |
    ⟨op, next, _, before, _, _⟩
  · obtain ⟨r, member, same⟩ := taken i n c rest before
    exact ⟨r, pipeline_logged step member, same⟩
  · cases started
    obtain ⟨r, found, same⟩ := Option.map_eq_some_iff.mp delivered.1
    exact ⟨r, pipeline_logged step (List.mem_of_getElem? found), same⟩
  · obtain ⟨r, member, same⟩ := taken i n c _ before
    exact ⟨r, pipeline_logged step member, same⟩

/-- Where a record comes from: a submission publishes its task, a consumer its message. -/
theorem Happens.logs (happens : Happens json s l t) {r : Record Raw}
    (listed : r ∈ t.world.kafka) :
    r ∈ s.world.kafka ∨ (∃ task, Submission.New task ∧ r.message.value = json.marshal task) ∨
      ∃ i n c rest, s.threads i = some ⟨.consume n c, rest⟩ ∧
        r.message.value = c.message.value := by
  cases happens with
  | start idle delivered => exact .inl listed
  | stop running => exact .inl listed
  | drifts moved => exact .inl (moved.kafka ▸ listed)
  | @submits i sub op next here advance =>
      refine (perform_record listed).imp_right fun publishes => .inl ?_
      subst publishes
      obtain ⟨task, new, _, marshalled, _, _⟩ := advance.publishes
      exact ⟨task, new, marshalled⟩
  | @consumes i n c op next here consumes =>
      refine (perform_record listed).imp_right fun publishes => .inr ⟨i, n, c, _, here, ?_⟩
      subst publishes
      exact consumes.1

/-- Every task in the log has a type. -/
def Typed (json : Json Raw) (s : PipelinePool Raw ι) : Prop :=
  ∀ r ∈ s.world.kafka, ∀ task, json.unmarshal r.message.value = some task → task.type ≠ ""

theorem Typed.step (happens : Happens json s l t) (taken : Taken s) (typed : Typed json s) :
    Typed json t := by
  intro r listed task decodes
  rcases happens.logs listed with before | ⟨submitted, new, same⟩ | ⟨i, n, c, rest, here, same⟩
  · exact typed r before task decodes
  · rw [same, json.unmarshal_marshal] at decodes
    cases decodes
    exact new.typed
  · obtain ⟨r', member, same'⟩ := taken i n c rest here
    rw [same, ← same'] at decodes
    exact typed r' member task decodes

/-! ## Custody of the identifiers -/

/-- The identifiers to come, and the one each submission is about. -/
def custody (s : PipelinePool Raw ι) : Custody String ι where
  supply := s.world.script.uuid
  held i := (s.threads i).bind fun thread => (thread.request.progress thread.rest).id

omit [DecidableEq ι] in
theorem custody_held {i : ι} {thread : Thread (Op Raw) Op.Ans (Job Raw) (Option Error)}
    (running : s.threads i = some thread) :
    (custody s).held i = (thread.request.progress thread.rest).id := by
  simp only [custody, running, Option.bind_some]

theorem custody_put_ne {i j : ι} {thread : Option (Thread (Op Raw) Op.Ans (Job Raw) (Option Error))}
    (ne : j ≠ i) : (custody (s.put i thread)).held j = (custody s).held j := by
  simp only [custody, Pool.put_ne _ ne]

theorem custody_act_ne {i j : ι} {job : Job Raw} {op : Op Raw}
    {next : op.Ans → Service Raw (Option Error)} (ne : j ≠ i) :
    (custody (s.act perform i job op next)).held j = (custody s).held j := by
  simp only [custody, Pool.act_ne ne]

/-- A call of one slot changes what that slot holds. -/
theorem custody_act {i : ι} {job : Job Raw} {op : Op Raw}
    {next : op.Ans → Service Raw (Option Error)} :
    (custody (s.act perform i job op next)).held i =
      (job.progress (next (perform op s.world).1)).id :=
  custody_held Pool.act_self

/-- A submission that does not draw an identifier gains none. -/
theorem custody_submits {i : ι} {r : Submission} {op : Op Raw}
    {next : op.Ans → Service Raw (Option Error)}
    (here : s.threads i = some ⟨.submit r, .call op next⟩)
    (advance : Submission.Advance json (Submission.progress (.call op next)) op
      (perform op s.world).1 (Submission.progress (next (perform op s.world).1)))
    (other : op ≠ .newUUID) :
    (∃ n, Custody.Draws n (custody s) (custody (s.act perform i (.submit r) op next))) ∧
      ∀ q k, (custody (s.act perform i (.submit r) op next)).held q = some k →
        (custody s).held q = some k := by
  refine ⟨perform_uuid op s.world, fun q k held => ?_⟩
  by_cases same : q = i
  · rw [same, custody_act] at held
    rw [same, custody_held here]
    exact advance.keeps other held
  · rwa [custody_act_ne same] at held

/-- A step of the pipeline is a step of the custody: a submission draws its identifier
and gives it up in the end. -/
theorem custody_step (happens : Happens json s l t) : Custody.Step (custody s) (custody t) := by
  cases happens with
  | @start i job idle delivered =>
      refine .lose 0 (fun _ => rfl) fun q k held => ?_
      by_cases same : q = i
      · rw [same, custody_held (Pool.put_self _), Job.progress_body] at held
        cases held
      · rwa [custody_put_ne same] at held
  | @submits i r op next here advance =>
      by_cases draws : op = .newUUID
      · subst draws
        refine .draw i (fun _ => rfl) ?_ fun q k ne held => ?_
        · rw [custody_act]
          exact congrArg Submission.Progress.id advance.drawn
        · rwa [custody_act_ne ne] at held
      · obtain ⟨⟨n, drawn⟩, kept⟩ := custody_submits here advance draws
        exact .lose n drawn kept
  | @consumes i n c op next here consumes =>
      obtain ⟨n, drawn⟩ := perform_uuid op s.world
      refine .lose n drawn fun q k held => ?_
      by_cases same : q = i
      · rw [same, custody_act] at held
        cases held
      · rwa [custody_act_ne same] at held
  | @stop i thread running =>
      refine .lose 0 (fun _ => rfl) fun q k held => ?_
      by_cases same : q = i
      · simp only [same, custody, Pool.put_self, Option.bind_none] at held
        cases held
      · rwa [custody_put_ne same] at held
  | drifts moved =>
      cases moved <;> exact .lose 0 (fun _ => rfl) fun _ _ held => held

end Steps

/-! ## Computing runs -/

instance (log : List (Record Task)) (job : Job Task) : Decidable (job.Delivered log) :=
  match job with
  | .submit _ => .isTrue trivial
  | .consume _ _ => inferInstanceAs (Decidable (_ ∧ _))

instance (s : PipelinePool Task Bool) (i : Bool) (job : Job Task) :
    Decidable ((pipeline Bool plainJson).Admits s i job) :=
  inferInstanceAs (Decidable (job.Delivered s.world.kafka))

/-- An empty deployment, with this script but identifiers that are all different. -/
def undeployed (script : Script) : PipelinePool Task Bool :=
  ⟨World.fresh { script with uuid := countedIDs }, fun _ => none⟩

theorem undeployed_empty (script : Script) : (undeployed script).world.Empty :=
  ⟨rfl, fun _ => rfl, fun _ => rfl, fun _ => rfl⟩

/-- The first task an empty deployment accepts. -/
def firstTask (req : Gateway.GRPCRequest) : Task := Gateway.newTask req.fields "x" 0

/-- A request is submitted and routed, in slot `false`. -/
def submitAndRoute (req : Gateway.GRPCRequest) : List (Move (World Task) Bool (Job Task)) :=
  .start false (.submit (.grpc req)) :: List.replicate 6 (.act false) ++ [.stop false] ++
    .start false (.consume 0 (.route ⟨true⟩ (pendingMessage plainJson (firstTask req)))) ::
      List.replicate 4 (.act false) ++ [.stop false]

end TaskFlow
