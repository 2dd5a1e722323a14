import TaskFlow.Integrity
import TaskFlow.Settlement
import TaskFlow.Tickets
import TaskFlow.Effect.Budget

/-!
# The work one task can cause

Kafka delivers at least once, dispatchers and workers retry, and a call that crashed is
delivered again.  How much work a single task can cause is bounded all the same.  A call
of `route` sends one record, a call of `processMessage` runs the handler at most
`maxAttempts` times and sends one record (`Consume.body_sends`, `Consume.body_runs`), and
a submission publishes its identifier once (`pending_once`).  So when no record is handed
out more than `d` times, a task has at most `d` records in the worker topics, `d * d` dead
letters and `d * d * n` handler runs, with `n` attempts to a call (`work_bounded`).
-/

namespace TaskFlow

open Effect

variable {Raw ι : Type} {json : Json Raw} {id : String}

/-- The value is a message of the task with this identifier. -/
def Json.names (json : Json Raw) (id : String) (value : Raw) : Bool :=
  decide ((json.unmarshal value).map Task.id = some id)

theorem Json.names_eq {task : Task} {value : Raw} (decodes : json.unmarshal value = some task) :
    json.names id value = decide (task.id = id) := by
  unfold Json.names
  rw [decodes]
  simp

namespace World

/-- How many records of the task are in the topics that pass the test. -/
def recordsOf (w : World Raw) (json : Json Raw) (id : String) (topics : String → Bool) : Nat :=
  w.kafka.countP fun r => topics r.message.topic && json.names id r.message.value

/-- How many handler runs on the task there were. -/
def runsOf (w : World Raw) (id : String) : Nat := w.handled.countP fun run => run.1.id = id

end World

/-- The topics that feed the dispatchers, or the workers. -/
def feeds (routes : Bool) (topic : String) : Bool :=
  if routes then topic = topicPending else topic ≠ topicPending ∧ topic ≠ topicDLQ

/-- The topics consumers send to. -/
def isOutput (topic : String) : Bool := topic ≠ topicPending

/-! ## What the calls cost -/

/-- A record sent for the task to such a topic. -/
def Op.sendCost (json : Json Raw) (id : String) (topics : String → Bool) : Op Raw → Nat
  | .publish topic _ value _ => if topics topic && json.names id value then 1 else 0
  | _ => 0

/-- A handler run on the task. -/
def Op.runCost (id : String) : Op Raw → Nat
  | .handle _ task => if task.id = id then 1 else 0
  | _ => 0

theorem perform_recordsOf (json : Json Raw) (id : String) (topics : String → Bool) (op : Op Raw)
    (w : World Raw) :
    (perform op w).2.recordsOf json id topics ≤
      w.recordsOf json id topics + op.sendCost json id topics := by
  unfold World.recordsOf
  rcases perform_log op w with same | ⟨topic, key, value, origin, rfl, _, grown⟩
  · rw [same]
    exact Nat.le_add_right _ _
  · rw [grown, List.countP_append, List.countP_singleton]
    exact Nat.le_refl _

theorem perform_runsOf (op : Op Raw) (w : World Raw) :
    (perform op w).2.runsOf id ≤ w.runsOf id + op.runCost id := by
  unfold World.runsOf
  cases op with
  | handle h task =>
      have grown : (perform (.handle h task) w).2.handled =
          w.handled ++ [(task, w.script.outcome 0)] := rfl
      rw [grown, List.countP_append, List.countP_singleton]
      simp [Op.runCost]
  | _ =>
      rw [perform_handled (by simp)]
      exact Nat.le_add_right _ _

/-! ## The budgets of the calls -/

/-- A consumer of a message that is not of the task sends nothing of it. -/
theorem Consume.sends_free (c : Consume Raw) (topics : String → Bool)
    (other : json.names id c.message.value = false) :
    Prog.All (fun op => op.sendCost json id topics = 0) (c.body json) := by
  refine (c.body_consumes json).mono fun op consumes => ?_
  cases op with
  | publish topic key value origin =>
      obtain rfl : value = c.message.value := consumes.1
      simp [Op.sendCost, other]
  | _ => rfl

/-- A worker sends nothing but dead letters. -/
theorem Worker.queues_free (w : Worker) (msg : Message Raw) :
    Prog.All (fun op => op.sendCost json id (feeds false) = 0) (w.processMessage json msg) := by
  refine (w.processMessage_consumes json msg).mono fun op consumes => ?_
  cases op with
  | publish topic key value origin =>
      obtain rfl : topic = topicDLQ := consumes.2 rfl
      simp [Op.sendCost, feeds]
  | _ => rfl

theorem sendCost_le (json : Json Raw) (id : String) (topics : String → Bool) (op : Op Raw) :
    op.sendCost json id topics ≤ 1 := by
  cases op with
  | publish topic key value origin =>
      unfold Op.sendCost
      dsimp only
      split
      · exact Nat.le_refl 1
      · exact Nat.zero_le 1
  | _ => exact Nat.zero_le 1

section Bodies

variable {topics : String → Bool}

/-- A call that may send, and nothing after it. -/
theorem within_send {α : Type} {op : Op Raw} {next : op.Ans → Service Raw α}
    (later : ∀ answer, Prog.All (fun op => op.sendCost json id topics = 0) (next answer)) :
    Prog.Within (Op.sendCost json id topics) noGain 1 (.call op next) :=
  ⟨0, sendCost_le json id topics op, fun answer => .of_free (later answer)⟩

theorem Dispatcher.route_sends (d : Dispatcher) (msg : Message Raw) :
    Prog.Within (Op.sendCost json id topics) noGain 1 (d.route json msg) := by
  have toDLQ : Prog.Within (Op.sendCost json id topics) noGain 1 (toDLQ msg.value) :=
    within_send fun _ => trivial
  have reject : Prog.Within (Op.sendCost json id topics) noGain 1 (reject msg) :=
    .free rfl fun _ => toDLQ
  have forward : ∀ task, Prog.Within (Op.sendCost json id topics) noGain 1 (forward msg task) := by
    intro task
    refine within_send fun answer => ?_
    cases answer with
    | some err => trivial
    | none => exact ⟨rfl, fun _ => ⟨rfl, fun _ => trivial⟩⟩
  unfold route
  split
  · exact reject
  · rename_i task decodes
    split
    · exact reject
    · split
      · refine .free rfl fun allowed => ?_
        rcases allowed with err | (_ | _)
        · exact forward task
        · exact .free rfl fun _ => .free rfl fun _ => toDLQ
        · exact forward task
      · exact forward task

namespace Worker

variable (w : Worker) (msg : Message Raw)

theorem settle_sends (task : Task) (durationMs : Int) (execErr : Option Error) :
    Prog.Within (Op.sendCost json id topics) noGain 1
      (w.settle msg.value task durationMs execErr) := by
  have record : ∀ task error now, Prog.All (fun op => op.sendCost json id topics = 0)
      (w.record task durationMs error now : Service Raw Unit) := by
    intro task error now
    rw [record_eq]
    exact ⟨rfl, fun _ => ⟨rfl, fun _ => ⟨rfl, fun _ => ⟨rfl, fun _ => trivial⟩⟩⟩⟩
  cases execErr with
  | none =>
      rw [settle, finishSuccess_eq]
      exact .free rfl fun now => .bind_free (record _ _ now) fun _ => .free rfl fun _ => trivial
  | some err =>
      rw [settle, finishFailure_eq]
      refine .free rfl fun now => .bind_free (record _ _ now) fun _ => within_send fun _ => ?_
      exact ⟨rfl, fun _ => ⟨rfl, fun _ => trivial⟩⟩

theorem processMessage_sends :
    Prog.Within (Op.sendCost json id topics) noGain 1 (w.processMessage json msg) := by
  unfold processMessage
  split
  · trivial
  · rename_i task decodes
    rw [processTask_eq]
    refine .free rfl fun status => ?_
    split
    · trivial
    · unfold processNew
      split
      · exact .free rfl fun _ => within_send fun _ => ⟨rfl, fun _ => trivial⟩
      · rename_i h found
        rw [execute_eq]
        refine .free rfl fun answer => ?_
        cases answer with
        | some err => trivial
        | none =>
            rw [afterRunning_none]
            refine .free rfl fun _ => .free rfl fun start => .bind_free ?_ fun result => ?_
            · exact attemptsFrom_calls rfl rfl rfl fun _ => rfl
            · obtain ⟨execErr, attempts⟩ := result
              rw [finish_eq]
              refine .free rfl fun stop => ?_
              exact (w.settle_sends msg _ _ execErr).bind (n := 0) fun _ =>
                .free rfl fun _ => trivial

/-- The loop runs the handler once for each attempt that is left. -/
theorem attemptsFrom_runs (id : String) (h : Handler) (task : Task) (number left attempts : Nat) :
    Prog.Within (Op.runCost id) noGain (left + 1)
      (w.attemptsFrom h task number left attempts : Service Raw _) := by
  have once : (Op.handle h task : Op Raw).runCost id ≤ 1 := by
    unfold Op.runCost
    dsimp only
    split
    · exact Nat.le_refl 1
    · exact Nat.zero_le 1
  induction left generalizing number attempts with
  | zero =>
      rw [attemptsFrom_zero]
      exact ⟨0, once, fun _ => trivial⟩
  | succ left ih =>
      rw [attemptsFrom_succ]
      refine ⟨left + 1, by omega, fun result => ?_⟩
      cases result with
      | none => trivial
      | some err =>
          refine .free rfl fun _ => .free rfl fun _ => .free rfl fun waited => ?_
          cases waited with
          | none => exact ih _ _
          | some ctxErr => trivial

/-- The bookkeeping runs no handler. -/
theorem settle_runs (task : Task) (durationMs : Int) (execErr : Option Error) :
    Prog.All (fun op => op.runCost id = 0) (w.settle msg.value task durationMs execErr) := by
  have record : ∀ task error now, Prog.All (fun op => op.runCost id = 0)
      (w.record task durationMs error now : Service Raw Unit) := by
    intro task error now
    rw [record_eq]
    exact ⟨rfl, fun _ => ⟨rfl, fun _ => ⟨rfl, fun _ => ⟨rfl, fun _ => trivial⟩⟩⟩⟩
  cases execErr with
  | none =>
      rw [settle, finishSuccess_eq]
      exact ⟨rfl, fun now => Prog.All.bind (record _ _ now) fun _ => ⟨rfl, fun _ => trivial⟩⟩
  | some err =>
      rw [settle, finishFailure_eq]
      refine ⟨rfl, fun now => Prog.All.bind (record _ _ now) fun _ => ?_⟩
      exact ⟨rfl, fun _ => ⟨rfl, fun _ => ⟨rfl, fun _ => trivial⟩⟩⟩

theorem processMessage_runs_within :
    Prog.Within (Op.runCost id) noGain w.maxAttempts (w.processMessage json msg) := by
  have pos : 0 < w.maxAttempts := entitled_pos _
  unfold processMessage
  split
  · trivial
  · rename_i task decodes
    rw [processTask_eq]
    refine .free rfl fun status => ?_
    split
    · trivial
    · unfold processNew
      split
      · exact .free rfl fun _ => .free rfl fun _ => .free rfl fun _ => trivial
      · rename_i h found
        rw [execute_eq]
        refine .free rfl fun answer => ?_
        cases answer with
        | some err => trivial
        | none =>
            rw [afterRunning_none, execAttempts_eq]
            refine .free rfl fun _ => .free rfl fun start => ?_
            have loop : Prog.Within (Op.runCost id) noGain (w.maxAttempts - 1 + 1)
                (w.attemptsFrom h task 1 (w.maxAttempts - 1) 0 : Service Raw _) :=
              w.attemptsFrom_runs id h task 1 (w.maxAttempts - 1) 0
            rw [Nat.sub_add_cancel pos] at loop
            refine loop.bind (n := 0) fun result => .of_free ?_
            obtain ⟨execErr, attempts⟩ := result
            rw [finish_eq]
            refine ⟨rfl, fun stop => Prog.All.bind ?_ fun _ => ⟨rfl, fun _ => trivial⟩⟩
            exact w.settle_runs msg _ _ execErr

end Worker

/-- A worker with a message of another task does not run this one. -/
theorem Worker.runs_free (w : Worker) (msg : Message Raw)
    (other : json.names id msg.value = false) :
    Prog.All (fun op => op.runCost id = 0) (w.processMessage json msg) := by
  refine ((Consume.process w msg).body_makes json).mono fun op calls => ?_
  cases op with
  | handle h copy =>
      obtain ⟨task, decodes, _, rfl⟩ := calls
      rw [Json.names_eq decodes] at other
      simp only [Op.runCost, if_neg (of_decide_eq_false other)]
  | _ => rfl

end Bodies

/-! ## The budgets of the pipeline -/

namespace Job

/-- The message is handed to a dispatcher, or to a worker, and is one of the task. -/
def delivers (json : Json Raw) (id : String) (routes : Bool) : Job Raw → Bool
  | .submit _ => false
  | .consume _ c => c.routes == routes && json.names id c.message.value

/-- One record for such a delivery. -/
def sendGrant (json : Json Raw) (id : String) (routes : Bool) (job : Job Raw) : Nat :=
  (job.delivers json id routes).toNat

/-- The attempts a call may make. -/
def maxAttempts : Job Raw → Nat
  | .consume _ (.process w _) => w.maxAttempts
  | _ => 0

/-- Handler runs. -/
def runGrant (json : Json Raw) (id : String) : Job Raw → Nat
  | .consume _ (.process w msg) => if json.names id msg.value then w.maxAttempts else 0
  | _ => 0

end Job

theorem Submission.submit_free {topics : String → Bool} (pending : topics topicPending = false)
    (r : Submission) :
    Prog.All (fun op => op.sendCost json id topics = 0) ((Job.submit r).body json) :=
  r.submit_calls json none rfl rfl (fun _ _ => rfl) fun task _ =>
    ⟨rfl, rfl, rfl, by simp [Op.sendCost, pending]⟩

theorem queueBudget (ι : Type) (json : Json Raw) (id : String) :
    Budget (pipeline ι json) (Op.sendCost json id (feeds false)) noGain (Job.sendGrant json id true)
      fun w => w.recordsOf json id (feeds false) where
  body i job := by
    cases job with
    | submit r => exact .of_free (r.submit_free rfl)
    | consume n c =>
        cases named : json.names id c.message.value with
        | false => exact .of_free (c.sends_free _ named)
        | true =>
            cases c with
            | route d msg =>
                have one : Job.sendGrant json id true (.consume n (.route d msg)) = 1 :=
                  congrArg Bool.toNat named
                rw [one]
                exact d.route_sends msg
            | process w msg => exact .of_free (w.queues_free msg)
  call := perform_recordsOf json id _
  env w w' moved := by
    unfold World.recordsOf
    rw [World.Drift.kafka moved]

theorem sendBudget (ι : Type) (json : Json Raw) (id : String) :
    Budget (pipeline ι json) (Op.sendCost json id isOutput) noGain
      (fun job => job.sendGrant json id true + job.sendGrant json id false)
      fun w => w.recordsOf json id isOutput where
  body i job := by
    cases job with
    | submit r => exact .of_free (r.submit_free rfl)
    | consume n c =>
        cases named : json.names id c.message.value with
        | false => exact .of_free (c.sends_free _ named)
        | true =>
            cases c with
            | route d msg =>
                refine (d.route_sends msg).mono ?_
                exact (congrArg Bool.toNat named).ge.trans (Nat.le_add_right _ _)
            | process w msg =>
                refine (w.processMessage_sends msg).mono ?_
                exact (congrArg Bool.toNat named).ge.trans (Nat.le_add_left _ _)
  call := perform_recordsOf json id _
  env w w' moved := by
    unfold World.recordsOf
    rw [World.Drift.kafka moved]

theorem runBudget (ι : Type) (json : Json Raw) (id : String) :
    Budget (pipeline ι json) (Op.runCost id) noGain (Job.runGrant json id)
      fun w => w.runsOf id where
  body i job := by
    cases job with
    | submit r =>
        exact .of_free (r.submit_calls json none rfl rfl (fun _ _ => rfl) fun _ _ =>
          ⟨rfl, rfl, rfl, rfl⟩)
    | consume n c =>
        cases c with
        | route d msg =>
            refine .of_free ((d.route_makes json msg).mono fun op calls => ?_)
            cases op with
            | handle h task => exact calls.elim
            | _ => rfl
        | process w msg =>
            cases named : json.names id msg.value with
            | false => exact .of_free (w.runs_free msg named)
            | true =>
                have all : Job.runGrant json id (.consume n (.process w msg)) = w.maxAttempts :=
                  if_pos named
                rw [all]
                exact w.processMessage_runs_within msg
  call := perform_runsOf
  env w w' moved := by
    cases moved <;> exact Nat.le_refl _

/-! ## Deliveries -/

section Runs

variable [DecidableEq ι] {w : World Raw} {s t : PipelinePool Raw ι}
  {h : List (PipelineStep Raw ι)} {d n : Nat}

/-- A record is delivered at most `d` times, so a topic that feeds the consumers leads to
at most `d` deliveries for each of its records. -/
theorem deliveries_le (id : String) (run : Trace (pipeline ι json).Step s h t)
    (redelivered : ∀ n, (handedOut h).count n ≤ d) (routes : Bool) :
    h.countP (starts (Job.delivers json id routes)) ≤
      t.world.recordsOf json id (feeds routes) * d := by
  have offsets : (t.world.kafka.findIdxs fun r =>
      feeds routes r.message.topic && json.names id r.message.value).length =
      t.world.recordsOf json id (feeds routes) := List.length_findIdxs
  rw [← offsets]
  refine countP_le_of_covers (fun e member delivers => ?_) redelivered
  obtain ⟨x, y, rfl⟩ := List.append_of_mem member
  obtain ⟨_, step, later⟩ := run.split_cons
  obtain ⟨before, label, after⟩ := e
  dsimp only at step later
  cases step with
  | act _ => cases delivers
  | stop _ => cases delivers
  | env _ => cases delivers
  | @start i job idle delivered =>
      cases job with
      | submit r => cases delivers
      | consume m c =>
          obtain ⟨r, found, same⟩ := Option.map_eq_some_iff.mp delivered.1
          -- The record is still at its offset at the end of the run.
          have still : t.world.kafka[m]? = some r :=
            later.invariant (I := fun s : PipelinePool Raw ι => s.world.kafka[m]? = some r)
              found fun _ _ => pipeline_offset
          obtain ⟨bound, here⟩ := List.getElem?_eq_some_iff.mp still
          refine ⟨m, List.mem_findIdxs_iff_exists_getElem_pos.mpr ⟨bound, ?_⟩, rfl⟩
          obtain ⟨kind, named⟩ : (c.routes == routes) = true ∧
              json.names id c.message.value = true := by
            simpa [starts, Job.delivers] using delivers
          rw [here, same, named, Bool.and_true, delivered.2, ← eq_of_beq kind]
          cases c with
          | route d msg => rfl
          | process w msg => simp [feeds, Consume.topic, Consume.routes, workerTopic_ne]

/-! ## One record in `tasks.pending` -/

/-- A call that costs nothing adds no record. -/
theorem recordsOf_of_free {topics : String → Bool} {op : Op Raw}
    (free : op.sendCost json id topics = 0) :
    (perform op w).2.recordsOf json id topics = w.recordsOf json id topics := by
  unfold World.recordsOf
  rcases perform_log op w with same | ⟨topic, key, value, origin, rfl, _, grown⟩
  · rw [same]
  · rw [grown, List.countP_append, List.countP_singleton]
    exact congrArg _ free

theorem exists_of_sendCost {topics : String → Bool} {op : Op Raw}
    (costs : op.sendCost json id topics ≠ 0) :
    ∃ topic key value origin, op = .publish topic key value origin ∧
      json.names id value = true := by
  cases op with
  | publish topic key value origin =>
      refine ⟨topic, key, value, origin, rfl, ?_⟩
      by_contra other
      rw [Bool.not_eq_true] at other
      exact costs (by simp [Op.sendCost, other])
  | _ => exact absurd rfl costs

/-- Consumers publish nothing to `tasks.pending`. -/
theorem Consume.Calls.feeds_free {c : Consume Raw} {op : Op Raw} (calls : c.Calls json op) :
    op.sendCost json id (feeds true) = 0 := by
  cases op with
  | publish topic key value origin =>
      have other : topic ≠ topicPending := by
        cases c with
        | route d msg =>
            obtain ⟨_, _, ⟨rfl, _⟩ | ⟨task, _, _, rfl, _⟩⟩ := calls
            · exact show topicDLQ ≠ topicPending by decide
            · exact (workerTopic_ne task.type).1
        | process w msg =>
            obtain ⟨task, _, rfl, _⟩ := calls
            exact show topicDLQ ≠ topicPending by decide
      simp [Op.sendCost, feeds, other]
  | _ => rfl

/-- Nothing was published for the task, or one record, by a submission that is done with
the identifier. -/
def PublishedOnce (json : Json Raw) (id : String) (s : PipelinePool Raw ι) : Prop :=
  s.world.recordsOf json id (feeds true) = 0 ∨
    s.world.recordsOf json id (feeds true) = 1 ∧ (custody s).Spent id

theorem PublishedOnce.step {l : Label (Op Raw) ι (Job Raw)} (happens : Happens json s l t)
    (lineage : Lineage json s) (once : PublishedOnce json id s) :
    PublishedOnce json id t := by
  have passes := custody_step happens
  have kept : t.world.recordsOf json id (feeds true) = s.world.recordsOf json id (feeds true) →
      PublishedOnce json id t := by
    intro same
    refine once.imp (fun none => same.trans none) fun one => ⟨same.trans one.1, ?_⟩
    exact one.2.step passes
  cases happens with
  | start idle delivered => exact kept rfl
  | stop running => exact kept rfl
  | drifts moved => exact kept (by rw [World.recordsOf, World.recordsOf, moved.kafka])
  | @consumes i n c op next here consumes =>
      refine kept (recordsOf_of_free ?_)
      exact Consume.Calls.feeds_free (lineage.faithful i _ here).1
  | @submits i r op next here advance =>
      by_cases costs : op.sendCost json id (feeds true) = 0
      · exact kept (recordsOf_of_free costs)
      -- The submission publishes this task, so it still has the identifier.
      obtain ⟨topic, key, value, origin, rfl, named⟩ := exists_of_sendCost costs
      obtain ⟨task, _, rfl, rfl, before, after⟩ := advance.publishes
      rw [Json.names_eq (json.unmarshal_marshal task)] at named
      obtain rfl := of_decide_eq_true named
      have held : (custody s).held i = some task.id :=
        (custody_held here).trans (congrArg Submission.Progress.id before)
      have none : s.world.recordsOf json task.id (feeds true) = 0 :=
        once.resolve_right fun one => one.2.free i held
      obtain ⟨⟨drawn, draws⟩, others⟩ := custody_submits here advance nofun
      have spent := Custody.Spent.of_lost lineage.sound held draws others (by
        rw [custody_act]
        intro still
        cases (congrArg Submission.Progress.id after).symm.trans still)
      have most := perform_recordsOf json task.id (feeds true)
        (.publish topicPending key (json.marshal task) origin) s.world
      have one := sendCost_le json task.id (feeds true)
        (.publish topicPending key (json.marshal task) origin)
      rcases Nat.eq_zero_or_pos ((perform (.publish topicPending key (json.marshal task) origin)
        s.world).2.recordsOf json task.id (feeds true)) with zero | pos
      · exact .inl zero
      · refine .inr ⟨?_, spent⟩
        show (perform _ s.world).2.recordsOf json task.id (feeds true) = 1
        omega

/-- A submission publishes its identifier once. -/
theorem pending_once (empty : w.Empty) (distinct : Function.Injective w.script.uuid)
    (run : Trace (pipeline ι json).Step ⟨w, fun _ => none⟩ h t) (id : String) :
    t.world.recordsOf json id (feeds true) ≤ 1 := by
  have lineage := (lineage_run distinct run).2
  have once : PublishedOnce json id t := by
    refine run.invariant (.inl ?_) fun e member step => ?_
    · simp [World.recordsOf, empty.kafka]
    · have before := lineage e member
      exact PublishedOnce.step (pipeline_step step before.shaped) before
  rcases once with none | ⟨one, _⟩
  · omega
  · omega

/-! ## The bound -/

/-- What one task has caused, when no record is delivered more than `d` times and no call
makes more than `n` attempts. -/
structure WorkBound (json : Json Raw) (id : String) (d n : Nat) (w w' : World Raw) : Prop where
  pending : w'.recordsOf json id (feeds true) ≤ 1
  queued : w'.recordsOf json id (feeds false) ≤ d
  letters : w'.recordsOf json id (· = topicDLQ) ≤ d * d
  runs : w'.runsOf id ≤ w.runsOf id + d * d * n

/-- The records consumers sent are for the workers or are dead letters. -/
theorem recordsOf_isOutput (w : World Raw) (json : Json Raw) (id : String) :
    w.recordsOf json id isOutput =
      w.recordsOf json id (feeds false) + w.recordsOf json id (· = topicDLQ) := by
  have apart : topicDLQ ≠ topicPending := by decide
  unfold World.recordsOf
  induction w.kafka with
  | nil => rfl
  | cons r log ih =>
      rw [List.countP_cons, List.countP_cons, List.countP_cons, ih]
      by_cases dead : r.message.topic = topicDLQ
      · simp [isOutput, feeds, dead, apart]
        omega
      · simp [isOutput, feeds, dead]
        omega

/-- Each record for a worker uses up the delivery that sent it, and leads to at most `d`
further ones. -/
theorem letters_le {queued letters : Nat} (most : queued ≤ d)
    (sent : queued + letters ≤ d + queued * d) : letters ≤ d * d := by
  obtain ⟨k, rfl⟩ := Nat.exists_eq_add_of_le most
  have square : k ≤ k * k := Nat.le_mul_self k
  rw [Nat.mul_add] at sent
  rw [Nat.mul_add, Nat.add_mul, Nat.add_mul, Nat.mul_comm k queued]
  omega

/-- **The work of a task is bounded.**  In every run of the pipeline from empty stores, with
any interleaving, any failing calls, crashes and cancellations, when no record is handed to
a consumer more than `d` times and no worker makes more than `n` attempts, a task has at
most one record in `tasks.pending`, `d` records in the worker topics, `d * d` dead letters
and `d * d * n` handler runs. -/
theorem work_bounded (json : Json Raw) (w : World Raw) (empty : w.Empty)
    (distinct : Function.Injective w.script.uuid)
    (run : Trace (pipeline ι json).Step ⟨w, fun _ => none⟩ h t)
    (redelivered : ∀ m, (handedOut h).count m ≤ d)
    (attempts : ∀ e ∈ h, ∀ i job, e.label = .start i job → job.maxAttempts ≤ n)
    (id : String) : WorkBound json id d n w t.world := by
  have pending := pending_once empty distinct run id
  have routed := deliveries_le id run redelivered true
  have processed := deliveries_le id run redelivered false
  have idle : ∀ i, (⟨w, fun _ => none⟩ : PipelinePool Raw ι).threads i = none := fun _ => rfl
  have nothing : ∀ topics, w.recordsOf json id topics = 0 := fun topics => by
    simp [World.recordsOf, empty.kafka]
  have grants : ∀ routes, (h.map (granted (Job.sendGrant json id routes))).sum ≤
      h.countP (starts (Job.delivers json id routes)) * 1 := fun routes =>
    granted_le (fun _ _ _ _ _ passes => (congrArg Bool.toNat passes).le)
      fun _ fails => congrArg Bool.toNat fails
  have dispatched : h.countP (starts (Job.delivers json id true)) ≤ d :=
    routed.trans ((Nat.mul_le_mul_right d pending).trans (Nat.one_mul d).le)
  have queued : t.world.recordsOf json id (feeds false) ≤ d := by
    have spent := (queueBudget ι json id).bound_granted idle run
    have granted := grants true
    dsimp only at spent
    rw [nothing] at spent
    omega
  have worked : h.countP (starts (Job.delivers json id false)) ≤ d * d :=
    processed.trans (Nat.mul_le_mul_right d queued)
  refine ⟨pending, queued, letters_le queued ?_, ?_⟩
  · have spent := (sendBudget ι json id).bound_granted idle run
    have byDispatchers := grants true
    have byWorkers := grants false
    dsimp only at spent
    rw [granted_add, nothing, recordsOf_isOutput] at spent
    omega
  · have spent := (runBudget ι json id).bound_granted idle run
    have granted : (h.map (granted (Job.runGrant json id))).sum ≤
        h.countP (starts (Job.delivers json id false)) * n := by
      refine granted_le (fun e member i job label passes => ?_) fun job fails => ?_
      · cases job with
        | submit r => exact Nat.zero_le n
        | consume m c =>
            cases c with
            | route d msg => exact Nat.zero_le n
            | process worker msg =>
                have named : json.names id msg.value = true := passes
                simp only [Job.runGrant, named, if_true]
                exact attempts e member i _ label
      · cases job with
        | submit r => rfl
        | consume m c =>
            cases c with
            | route d msg => rfl
            | process worker msg =>
                have named : json.names id msg.value = false := fails
                simp [Job.runGrant, named]
    exact spent.trans (Nat.add_le_add_left (granted.trans (Nat.mul_le_mul_right n worked)) _)

end Runs

theorem work_bounded_email :
    ((pipeline Bool plainJson).final (undeployed .calm) emailTwice).world.runsOf "x" = 1 ∧
      WorkBound plainJson "x" 3 4 (undeployed .calm).world
        ((pipeline Bool plainJson).final (undeployed .calm) emailTwice).world := by
  have admitted : ∀ e ∈ (pipeline Bool plainJson).play (undeployed .calm) emailTwice,
      (pipeline Bool plainJson).Admitted e := by decide
  have run := System.play_trace admitted (by simp [emailTwice, takeEmail, submitAndRoute])
  have three : (handedOut ((pipeline Bool plainJson).play (undeployed .calm)
      emailTwice)).length = 3 := by decide
  have attempts : ∀ e ∈ (pipeline Bool plainJson).play (undeployed .calm) emailTwice,
      ∀ i job, e.label = .start i job → job.maxAttempts ≤ 4 := by
    have four : ∀ e ∈ (pipeline Bool plainJson).play (undeployed .calm) emailTwice,
        starts (fun job => decide (job.maxAttempts ≤ 4) == false) e = false := by decide
    intro e member i job label
    have few := four e member
    rw [starts, label] at few
    simpa using few
  exact ⟨by decide, work_bounded plainJson _ (undeployed_empty .calm) countedIDs_injective run
    (fun _ => three ▸ List.count_le_length) attempts "x"⟩

end TaskFlow
