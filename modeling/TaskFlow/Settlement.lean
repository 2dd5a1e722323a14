import TaskFlow.Effect.Diary
import TaskFlow.Effect.Replica
import TaskFlow.Effect.Until
import TaskFlow.Lanes

/-!
# Nothing is lost

The consumers commit an offset once the call on its message returned nil, and a message
whose call failed is delivered again, to anyone, while others are still at work on it.
Status writes, table writes and publications fail, slots crash between any two calls and
keys expire.  A task of `tasks.pending` is settled all the same once the messages that
carry it have been consumed: a handler has run it successfully, a worker has marked it
`DEAD`, or it is in the dead letters.  The one exception is a worker that gave it up when
neither of the last two could be written (`Abandoned`, `nothing_lost`).

A call that returns nil has done its part before (`WellRouted.until`): a dispatcher has
sent the message on, a worker has succeeded, has come to its dead letter, or has found the
task finished.  The diary of a worker says what it did before its dead letter and before
it marked the task finished (`Worker.Heeds`).
-/

namespace TaskFlow

open Effect

variable {Raw ι : Type} {json : Json Raw}

/-! ## What a consumer does before it returns nil -/

namespace Consume

/-- The identifier is that of the task of the message. -/
def About (json : Json Raw) (c : Consume Raw) (id : String) : Prop :=
  ∃ task, json.unmarshal c.message.value = some task ∧ task.id = id

/-- The calls by which a consumer does its part: a dispatcher has sent the message on, a
worker has run the handler successfully, comes to its dead letter, or finds the task
finished. -/
def Part (json : Json Raw) (c : Consume Raw) : (op : Op Raw) → op.Ans → Prop
  | .publish topic key value origin, answer => value = c.message.value ∧
      (c.routes = true ∧ answer = none ∧ topic ≠ topicPending ∨
        c.routes = false ∧ topic = topicDLQ ∧ origin = .worker ∧ c.About json key)
  | .handle _ task, answer => c.routes = false ∧ answer = none ∧ c.About json task.id
  | .getStatus id, answer => c.routes = false ∧ Worker.alreadyTerminal answer = true ∧
      c.About json id
  | _, _ => False

end Consume

theorem Dispatcher.route_until (d : Dispatcher) (json : Json Raw) (msg : Message Raw) :
    Prog.Until (Consume.Part json (.route d msg)) (fun _ => False) (· = none)
      (d.route json msg) := by
  have toDLQ : Prog.Until (Consume.Part json (.route d msg)) (fun _ => False) (· = none)
      (toDLQ msg.value) := by
    refine ⟨id, fun answer => ?_⟩
    cases answer with
    | none => exact .inl ⟨rfl, .inl ⟨rfl, rfl, by decide⟩⟩
    | some err => exact .inr nofun
  have reject : Prog.Until (Consume.Part json (.route d msg)) (fun _ => False) (· = none)
      (reject msg) := ⟨id, fun _ => .inr toDLQ⟩
  have forward : ∀ task, Prog.Until (Consume.Part json (.route d msg)) (fun _ => False) (· = none)
      (forward msg task) := by
    intro task
    refine ⟨id, fun answer => ?_⟩
    cases answer with
    | none => exact .inl ⟨rfl, .inl ⟨rfl, rfl, (workerTopic_ne task.type).1⟩⟩
    | some err => exact .inr nofun
  unfold route
  split
  · exact reject
  · rename_i task decodes
    split
    · exact reject
    · split
      · refine ⟨id, fun allowed => .inr ?_⟩
        rcases allowed with err | (_ | _)
        · exact forward task
        · exact ⟨id, fun _ => .inr ⟨id, fun _ => .inr toDLQ⟩⟩
        · exact forward task
      · exact forward task

namespace Worker

variable {w : Worker} {msg : Message Raw} {task : Task} {h : Handler}

/-- The retry loop ends without an error only after a successful attempt. -/
theorem attemptsFrom_until {number left attempts : Nat}
    (decodes : json.unmarshal msg.value = some task) :
    Prog.Until (Consume.Part json (.process w msg)) (fun _ => False)
      (fun result => result.1 = none)
      (w.attemptsFrom h task number left attempts) := by
  induction left generalizing number attempts with
  | zero =>
      rw [attemptsFrom_zero]
      refine ⟨id, fun answer => ?_⟩
      cases answer with
      | none => exact .inl ⟨rfl, rfl, task, decodes, rfl⟩
      | some err => exact .inr nofun
  | succ left ih =>
      rw [attemptsFrom_succ]
      refine ⟨id, fun answer => ?_⟩
      cases answer with
      | none => exact .inl ⟨rfl, rfl, task, decodes, rfl⟩
      | some err =>
          refine .inr ⟨id, fun _ => .inr ⟨id, fun _ => .inr ⟨id, fun answer => .inr ?_⟩⟩⟩
          cases answer with
          | none => exact ih
          | some ctxErr => exact nofun

/-- A failure comes to its dead letter. -/
theorem finishFailure_until {copy : Task} {err : Error} {durationMs : Int}
    (decodes : json.unmarshal msg.value = some task) (same : copy.id = task.id) :
    Prog.Until (Consume.Part json (.process w msg)) (fun _ => False) (fun _ => True)
      (w.finishFailure copy err durationMs msg.value) := by
  rw [finishFailure_eq]
  refine ⟨id, fun now => .inr ⟨id, fun _ => .inr ⟨id, fun _ => .inr ⟨id, fun _ => .inr ⟨id,
    fun _ => .inr ⟨id, fun _ => .inl ?_⟩⟩⟩⟩⟩⟩
  exact ⟨rfl, .inr ⟨rfl, rfl, rfl, task, decodes, same.symm⟩⟩

theorem processMessage_until (w : Worker) (decodes : json.unmarshal msg.value = some task) :
    Prog.Until (Consume.Part json (.process w msg)) (fun _ => False) (· = none)
      (w.processMessage json msg) := by
  unfold processMessage
  rw [decodes]
  dsimp only
  rw [processTask_eq]
  refine ⟨id, fun status => ?_⟩
  by_cases terminal : alreadyTerminal status = true
  · exact .inl ⟨rfl, terminal, task, decodes, rfl⟩
  · right
    dsimp only
    rw [if_neg terminal]
    unfold processNew
    split
    · refine ⟨id, fun _ => .inr ⟨id, fun _ => .inl ?_⟩⟩
      exact ⟨rfl, .inr ⟨rfl, rfl, rfl, task, decodes, rfl⟩⟩
    · rename_i h found
      rw [execute_eq]
      refine ⟨id, fun answer => .inr ?_⟩
      cases answer with
      | some err => exact nofun
      | none =>
          rw [afterRunning_none]
          refine ⟨id, fun _ => .inr ⟨id, fun start => .inr ?_⟩⟩
          refine Prog.Until.bind (attemptsFrom_until decodes) fun result failed => ?_
          obtain ⟨execErr, attempts⟩ := result
          rw [finish_eq]
          refine ⟨id, fun stop => .inr ?_⟩
          cases execErr with
          | none => exact absurd rfl failed
          | some err =>
              exact Prog.Until.bind (finishFailure_until decodes rfl) fun _ ended =>
                absurd trivial ended

/-! ### What a worker has noted -/

/-- What a worker has noted before it marks its task finished, and before its dead letter. -/
def Heeds (task : Task) (x : List (Sigma (@Op.Ans Raw))) : Op Raw → Prop
  | .setStatus _ status => status.isTerminal = true → status ≠ .dead →
      ∃ handler, ⟨.handle handler task, none⟩ ∈ x
  | .publish _ key _ _ => ∃ answer, ⟨.setStatus key .dead, answer⟩ ∈ x
  | _ => True

variable {x : List (Sigma (@Op.Ans Raw))}

theorem attemptsFrom_heeds {number left attempts : Nat} :
    Prog.Keeps (Heeds task) (fun y result => result.1 = none →
        ∃ handler, ⟨.handle handler task, none⟩ ∈ y) x
      (w.attemptsFrom h task number left attempts) := by
  induction left generalizing number attempts x with
  | zero =>
      rw [attemptsFrom_zero]
      refine ⟨trivial, fun answer success => ⟨h, ?_⟩⟩
      obtain rfl : answer = none := success
      simp
  | succ left ih =>
      rw [attemptsFrom_succ]
      refine ⟨trivial, fun answer => ?_⟩
      cases answer with
      | none => exact fun _ => ⟨h, by simp⟩
      | some err =>
          refine ⟨trivial, fun _ => ⟨nofun, fun _ => ⟨trivial, fun answer => ?_⟩⟩⟩
          cases answer with
          | none => exact ih
          | some ctxErr => exact nofun

theorem finish_heeds {start : Time} {execErr : Option Error} {attempts : Nat}
    (success : execErr = none → ∃ handler, ⟨.handle handler task, none⟩ ∈ x) :
    Prog.Keeps (Heeds task) (fun _ _ => True) x
      (w.finish msg task start (execErr, attempts)) := by
  rw [finish_eq]
  refine ⟨trivial, fun stop => Prog.Keeps.bind (Q := fun _ _ => True) ?_ fun _ _ _ =>
    ⟨trivial, fun _ => trivial⟩⟩
  cases execErr with
  | none =>
      obtain ⟨handler, noted⟩ := success rfl
      rw [settle, finishSuccess_eq]
      refine ⟨trivial, fun now => ⟨fun _ _ => ⟨handler, ?_⟩, fun _ => ⟨trivial, fun _ =>
        ⟨trivial, fun _ => ⟨trivial, fun _ => ⟨trivial, fun _ => trivial⟩⟩⟩⟩⟩⟩
      exact List.mem_append_left _ (List.mem_append_left _ noted)
  | some err =>
      rw [settle, finishFailure_eq]
      refine ⟨trivial, fun now => ⟨fun _ alive => absurd rfl alive, fun answer => ⟨trivial, fun _ =>
        ⟨trivial, fun _ => ⟨trivial, fun _ => ⟨⟨answer, ?_⟩, fun _ => ⟨trivial, fun _ =>
          ⟨trivial, fun _ => trivial⟩⟩⟩⟩⟩⟩⟩⟩
      simp

theorem processTask_heeds (w : Worker) (msg : Message Raw) (task : Task) :
    Prog.Keeps (Heeds task) (fun _ _ => True) [] (w.processTask msg task) := by
  rw [processTask_eq]
  refine ⟨trivial, fun status => ?_⟩
  dsimp only
  split
  · trivial
  · unfold processNew
    split
    · refine ⟨fun _ alive => absurd rfl alive, fun answer => ⟨⟨answer, ?_⟩, fun _ => ⟨trivial,
        fun _ => trivial⟩⟩⟩
      simp
    · rename_i h found
      rw [execute_eq]
      refine ⟨nofun, fun answer => ?_⟩
      cases answer with
      | some err => trivial
      | none =>
          rw [afterRunning_none]
          refine ⟨trivial, fun _ => ⟨trivial, fun start => ?_⟩⟩
          exact Prog.Keeps.bind attemptsFrom_heeds fun _ _ success => finish_heeds success

end Worker

/-! ## Settled tasks -/

namespace Job

def Part (json : Json Raw) : Job Raw → (op : Op Raw) → op.Ans → Prop
  | .submit _ => fun _ _ => False
  | .consume _ c => c.Part json

/-- The consumer commits the offset after this result. -/
def Commits : Job Raw → Option Error → Prop
  | .submit _ => fun _ => False
  | .consume _ _ => (· = none)

/-- Workers heed their diaries. -/
def Heeds (json : Json Raw) : Job Raw → List (Sigma (@Op.Ans Raw)) → Op Raw → Prop
  | .consume _ (.process _ msg), x, op =>
      ∃ task, json.unmarshal msg.value = some task ∧ Worker.Heeds task x op
  | _, _, _ => True

theorem body_heeds (job : Job Raw) :
    Prog.Keeps (job.Heeds json) (fun _ _ => True) [] (job.body json) := by
  cases job with
  | submit r => exact .of_forall (fun _ _ => trivial) fun _ _ => trivial
  | consume n c =>
      cases c with
      | route d msg => exact .of_forall (fun _ _ => trivial) fun _ _ => trivial
      | process w msg =>
          dsimp only [body, Consume.body]
          unfold Worker.processMessage
          cases decodes : json.unmarshal msg.value with
          | none => trivial
          | some task =>
              refine (w.processTask_heeds msg task).mono (fun _ op heeds => ?_) fun _ _ => id
              exact ⟨task, decodes, heeds⟩

end Job

/-- The task was run successfully, marked `DEAD` by a worker, or put in the dead letters. -/
inductive Concluded (json : Json Raw) (h : List (PipelineStep Raw ι)) (log : List (Record Raw))
    (id : String) : Prop
  | handled {e : PipelineStep Raw ι} {i : ι} {handler : Handler} {task : Task} : e ∈ h →
    e.label = .act i (.handle handler task) → task.id = id →
    (perform (.handle handler task) e.pre.world).1 = none → Concluded json h log id
  | dead {e : PipelineStep Raw ι} {i : ι} : e ∈ h → e.label = .act i (.setStatus id .dead) →
    (perform (.setStatus id .dead) e.pre.world).1 = none → Concluded json h log id
  | letter {r : Record Raw} {task : Task} : r ∈ log → r.message.topic = topicDLQ →
    json.unmarshal r.message.value = some task → task.id = id → Concluded json h log id

/-- A worker dropped the task: in one call, neither the status `DEAD` nor the dead letter
could be written. -/
def Abandoned (h : List (PipelineStep Raw ι)) (id : String) : Prop :=
  ∃ x b y i value, h = x ++ b :: y ∧ b.label = .act i (.publish topicDLQ id value .worker) ∧
    (perform (.publish topicDLQ id value .worker) b.pre.world).1 ≠ none ∧
    System.Since i (fun a => a.label = .act i (.setStatus id .dead) ∧
      (perform (.setStatus id .dead) a.pre.world).1 ≠ none) x

variable {h x y : List (PipelineStep Raw ι)} {e : PipelineStep Raw ι} {id : String}
  {log log' : List (Record Raw)}

/-- A task is dropped only where a publication fails. -/
theorem Abandoned.exists_failed (abandoned : Abandoned h id) :
    ∃ e ∈ h, e.pre.world.fails .publish = true := by
  obtain ⟨x, b, y, i, value, rfl, _, failed, _⟩ := abandoned
  refine ⟨b, List.mem_append_right _ List.mem_cons_self, ?_⟩
  exact Bool.eq_true_of_not_eq_false fun works => failed (perform_publish_ok.mpr works)

theorem Concluded.mono (concluded : Concluded json x log id) (grows : ∀ r ∈ log, r ∈ log') :
    Concluded json (x ++ y) log' id := by
  cases concluded with
  | handled member label named success =>
      exact .handled (List.mem_append_left _ member) label named success
  | dead member label works => exact .dead (List.mem_append_left _ member) label works
  | letter listed topic decodes named => exact .letter (grows _ listed) topic decodes named

/-- Every task that had a terminal status is settled. -/
def Accounted (json : Json Raw) (x : List (PipelineStep Raw ι)) (s : PipelinePool Raw ι) : Prop :=
  ∀ id, Ever (fun s : PipelinePool Raw ι => s.world.terminal id = true) x s →
    Concluded json x s.world.kafka id

/-- A worker that reads a terminal status finds it there. -/
theorem terminal_of_read {w : World Raw}
    (read : Worker.alreadyTerminal (perform (.getStatus id) w).1 = true) :
    w.terminal id = true := by
  cases down : w.fails .getStatus with
  | true =>
      simp only [perform, World.getStatus, World.attempt_of_fails down] at read
      cases read
  | false =>
      simp only [perform, World.getStatus, World.attempt_of_works down] at read
      unfold World.terminal
      cases held : w.redis.state id with
      | none =>
          simp only [World.spend, held] at read
          cases read
      | some status =>
          simp only [World.spend, held] at read
          exact read

theorem perform_setStatus_terminal (w : World Raw) (id : String) (status : Status) :
    (perform (.setStatus id status) w).2.terminal id = w.terminal id ∨
      (perform (.setStatus id status) w).2.terminal id = status.isTerminal := by
  unfold World.terminal
  rw [perform_setStatus_state]
  split
  · exact .inl rfl
  · exact .inr rfl

section Runs

variable [DecidableEq ι] {w : World Raw} {s t : PipelinePool Raw ι}

omit [DecidableEq ι] in
/-- Under the rules of the lanes every consumer does its part before it returns nil. -/
theorem WellRouted.until (routed : WellRouted json h t) :
    ∀ e ∈ h, ∀ i job, e.label = .start i job →
      Prog.Until (job.Part json) (fun _ => False) job.Commits ((pipeline ι json).body i job) := by
  intro e member i job label
  cases job with
  | submit r => exact Prog.Until.of_silent (fun _ => id) (fun _ => id) _
  | consume n c =>
      cases c with
      | route d msg => exact d.route_until json msg
      | process worker msg =>
          obtain ⟨task, decodes, _⟩ := routed.executes e member i n worker msg label
          exact worker.processMessage_until decodes

theorem Happens.closes {l : Label (Op Raw) ι (Job Raw)} (happens : Happens json s l t)
    (before : s.world.terminal id = false) (after : t.world.terminal id = true) :
    ∃ i n c status next, l = .act i (.setStatus id status) ∧
      s.threads i = some ⟨.consume n c, .call (.setStatus id status) next⟩ ∧
      c.routes = false ∧ c.About json id ∧ status.isTerminal = true ∧
      (perform (.setStatus id status) s.world).1 = none := by
  have unchanged : t.world.terminal id ≠ s.world.terminal id := by
    rw [before, after]
    exact Bool.false_ne_true.symm
  cases happens with
  | start idle delivered => exact absurd rfl unchanged
  | stop running => exact absurd rfl unchanged
  | drifts moved =>
      cases moved with
      | copy other => exact absurd rfl unchanged
      | context cancelled => exact absurd rfl unchanged
      | state other =>
          by_cases same : id = other
          · subst same
            simp [World.terminal, World.putState] at after
          · refine absurd ?_ unchanged
            simp only [World.terminal, World.putState, Function.update_of_ne same]
  | @submits i r op next here advance =>
      by_cases writes : ∃ status, op = .setStatus id status
      · obtain ⟨status, rfl⟩ := writes
        obtain ⟨_, rfl⟩ := advance.marks
        rcases perform_setStatus_terminal s.world id .pending with same | written
        · exact absurd same unchanged
        · cases written.symm.trans after
      · exact absurd (perform_terminal fun status same => writes ⟨status, same⟩) unchanged
  | @consumes i n c op next here consumes =>
      by_cases writes : ∃ status, op = .setStatus id status
      · obtain ⟨status, rfl⟩ := writes
        rcases perform_setStatus_terminal s.world id status with same | written
        · exact absurd same unchanged
        · have terminal : status.isTerminal = true := written.symm.trans after
          have works : c.routes = false := by
            cases routes : c.routes with
            | false => rfl
            | true =>
                rw [consumes.1 routes] at terminal
                cases terminal
          have answered : (perform (.setStatus id status) s.world).1 = none := by
            refine perform_setStatus_ok.mpr (Bool.eq_false_iff.mpr fun down => unchanged ?_)
            show (perform (.setStatus id status) s.world).2.terminal id = s.world.terminal id
            unfold World.terminal
            rw [perform_setStatus_state, if_pos down]
          exact ⟨i, n, c, status, next, rfl, here, works, consumes.2, terminal, answered⟩
      · exact absurd (perform_terminal fun status same => writes ⟨status, same⟩) unchanged

/-- A worker notes what it heeds, in the order of the run. -/
theorem heeds_run {n : Nat} {worker : Worker} {msg : Message Raw} {op : Op Raw} {i : ι}
    {next : op.Ans → Service Raw (Option Error)} {task : Task}
    (run : Trace (pipeline ι json).Step ⟨w, fun _ => none⟩ (x ++ e :: y) t)
    (here : e.pre.threads i = some ⟨.consume n (.process worker msg), .call op next⟩)
    (decodes : json.unmarshal msg.value = some task) :
    Worker.Heeds task ((pipeline ι json).diary x i) op := by
  obtain ⟨task', decodes', heeds⟩ := System.kept_at_call (P := Job.Heeds json)
    (Q := fun _ _ _ => True) run (fun _ _ _ job _ => job.body_heeds) here
  cases decodes.symm.trans decodes'
  exact heeds

omit [DecidableEq ι] in
/-- The message a worker is about decodes to its task. -/
theorem Consume.About.process {c : Consume Raw} (about : c.About json id)
    (works : c.routes = false) :
    ∃ worker msg task, c = .process worker msg ∧ json.unmarshal msg.value = some task ∧
      task.id = id := by
  cases c with
  | route d msg => cases works
  | process worker msg =>
      obtain ⟨task, decodes, named⟩ := about
      exact ⟨worker, msg, task, rfl, decodes, named⟩

/-- Along a run every task that had a terminal status is settled. -/
theorem accounted_run (empty : w.Empty)
    (run : Trace (pipeline ι json).Step ⟨w, fun _ => none⟩ h t) : Accounted json h t := by
  refine run.history (I := Accounted json) ?_ ?_
  · rintro id (now | ⟨_, member, _⟩)
    · simp [World.terminal, empty.state id] at now
    · cases member
  · rintro x e y rfl step accounted id ever
    have grows : ∀ r ∈ e.pre.world.kafka, r ∈ e.post.world.kafka :=
      fun r => pipeline_logged step
    rcases ever.of_snoc with now | before
    · cases held : e.pre.world.terminal id with
      | true => exact (accounted id (.inl held)).mono grows
      | false =>
          have shaped := (sorted_run empty run.split_cons.1).shaped
          obtain ⟨i, n, c, status, next, label, here, works, about, terminal, written⟩ :=
            (pipeline_step step shaped).closes held now
          by_cases dead : status = .dead
          · subst dead
            exact .dead (List.mem_append_right _ (List.mem_singleton_self _)) label written
          · -- The worker has noted a successful attempt before.
            obtain ⟨worker, msg, task, rfl, decodes, named⟩ := about.process works
            obtain ⟨handler, noted⟩ := heeds_run run here decodes terminal dead
            obtain ⟨x', a, y', rfl, ⟨handles, success⟩, _⟩ := System.mem_diary noted
            exact .handled (by simp) handles named success
    · exact (accounted id before).mono grows

/-! ## Consumed messages -/

/-- The record at this offset was consumed: a call on it returned nil, which commits the
offset. -/
def Consumed (h : List (PipelineStep Raw ι)) (n : Nat) : Prop :=
  ∃ e ∈ h, ∃ i c, e.label = .stop i ∧ e.pre.threads i = some ⟨.consume n c, .pure none⟩

/-- Every record of a topic that has consumers was consumed. -/
def Drained (h : List (PipelineStep Raw ι)) (t : PipelinePool Raw ι) : Prop :=
  ∀ n r, t.world.kafka[n]? = some r → r.message.topic ≠ topicDLQ → Consumed h n

/-- A record keeps its offset. -/
theorem pipeline_offset {l : Label (Op Raw) ι (Job Raw)} {n : Nat} {r : Record Raw}
    (step : (pipeline ι json).Step s l t) (found : s.world.kafka[n]? = some r) :
    t.world.kafka[n]? = some r := by
  refine step.world_invariant (I := fun w => w.kafka[n]? = some r) (fun op w found => ?_)
    (fun _ _ moved => World.Drift.kafka moved ▸ id) found
  rcases perform_log op w with same | ⟨_, _, _, _, _, _, grown⟩
  · exact (congrArg (·[n]?) same).trans found
  · have bound := (List.getElem?_eq_some_iff.mp found).1
    exact (congrArg (·[n]?) grown).trans ((List.getElem?_append_left bound).trans found)

/-- The slots work on the records at their offsets. -/
theorem delivered_run (run : Trace (pipeline ι json).Step ⟨w, fun _ => none⟩ h t) :
    ∀ i n c rest, t.threads i = some ⟨.consume n c, rest⟩ →
      (∃ r, t.world.kafka[n]? = some r ∧ r.message = c.message) ∧ c.message.topic = c.topic := by
  refine run.invariant (I := fun s : PipelinePool Raw ι => ∀ i n c rest,
    s.threads i = some ⟨.consume n c, rest⟩ → (∃ r, s.world.kafka[n]? = some r ∧
      r.message = c.message) ∧ c.message.topic = c.topic) (fun _ _ _ _ => nofun) ?_
  intro e _ step before i n c rest running
  have kept : ∀ rest', e.pre.threads i = some ⟨.consume n c, rest'⟩ →
      (∃ r, e.post.world.kafka[n]? = some r ∧ r.message = c.message) ∧
        c.message.topic = c.topic := by
    intro rest' earlier
    obtain ⟨⟨r, found, same⟩, topic⟩ := before i n c rest' earlier
    exact ⟨⟨r, pipeline_offset step found, same⟩, topic⟩
  rcases step.threads_cases running with ⟨earlier, _⟩ | ⟨job, _, _, delivered, started⟩ |
    ⟨op, next, _, earlier, _, _⟩
  · exact kept rest earlier
  · cases started
    obtain ⟨r, found, same⟩ := Option.map_eq_some_iff.mp delivered.1
    exact ⟨⟨r, pipeline_offset step found, same⟩, delivered.2⟩
  · exact kept _ earlier

/-- The record a slot worked on is in the log from then on. -/
theorem worked_run {i : ι} {n : Nat} {c : Consume Raw} {rest : Service Raw (Option Error)}
    (run : Trace (pipeline ι json).Step ⟨w, fun _ => none⟩ (x ++ e :: y) t)
    (here : e.pre.threads i = some ⟨.consume n c, rest⟩) :
    (∃ r, t.world.kafka[n]? = some r ∧ r.message = c.message) ∧ c.message.topic = c.topic := by
  obtain ⟨before, step, later⟩ := run.split_cons
  obtain ⟨⟨r, found, same⟩, topic⟩ := delivered_run before i n c rest here
  refine ⟨⟨r, ?_, same⟩, topic⟩
  exact later.invariant (I := fun s : PipelinePool Raw ι => s.world.kafka[n]? = some r)
    (pipeline_offset step found) fun _ _ => pipeline_offset

/-- A consumed record is in the log. -/
theorem Consumed.bounded {n : Nat} (run : Trace (pipeline ι json).Step ⟨w, fun _ => none⟩ h t)
    (consumed : Consumed h n) : n < t.world.kafka.length := by
  obtain ⟨e, member, i, c, label, here⟩ := consumed
  obtain ⟨x, y, rfl⟩ := List.append_of_mem member
  obtain ⟨⟨r, found, _⟩, _⟩ := worked_run run here
  exact (List.getElem?_eq_some_iff.mp found).1

/-- The consumer of a consumed record has done its part. -/
theorem part_of_consumed {n : Nat} {r : Record Raw} (empty : w.Empty)
    (run : Trace (pipeline ι json).Step ⟨w, fun _ => none⟩ h t) (consumed : Consumed h n)
    (found : t.world.kafka[n]? = some r) :
    ∃ c : Consume Raw, c.message = r.message ∧ r.message.topic = c.topic ∧
      (pipeline ι json).Passed (Job.Part json) h (.consume n c) := by
  obtain ⟨e, member, i, c, label, here⟩ := consumed
  have untils := (wellRouted_run empty run).until
  obtain ⟨x, y, rfl⟩ := List.append_of_mem member
  obtain ⟨⟨r', found', same⟩, topic⟩ := worked_run run here
  cases Option.some.inj (found'.symm.trans found)
  have passed := System.passed_of_end (Q := fun _ _ => False) (G := Job.Commits) run untils here rfl
  exact ⟨c, same.symm, (congrArg Message.topic same).trans topic, passed.mono⟩

/-- What a call publishes is in the log from then on. -/
theorem published_run {topic key : String} {value : Raw} {origin : Origin} {i : ι}
    (run : Trace (pipeline ι json).Step s h t) (member : e ∈ h)
    (label : e.label = .act i (.publish topic key value origin))
    (works : (perform (.publish topic key value origin) e.pre.world).1 = none) :
    ⟨⟨topic, key, value⟩, origin⟩ ∈ t.world.kafka := by
  obtain ⟨x, y, rfl⟩ := List.append_of_mem member
  obtain ⟨_, step, later⟩ := run.split_cons
  refine later.invariant (I := fun s : PipelinePool Raw ι =>
    (⟨⟨topic, key, value⟩, origin⟩ : Record Raw) ∈ s.world.kafka) ?_
    fun _ _ step => pipeline_logged step
  rcases step.world_cases with ⟨other, _⟩ | ⟨_, _, _, _, label', _, after⟩ | ⟨env, _⟩
  · exact absurd label (other i _)
  · cases label.symm.trans label'
    have made : e.post.world.kafka = _ := (congrArg World.kafka after).trans
      (perform_publish_kafka topic key value origin)
    rw [made, perform_publish_ok.mp works]
    exact List.mem_append_right _ (List.mem_singleton_self _)
  · cases label.symm.trans env

/-- A worker that has done its part has settled its task, or has dropped it. -/
theorem settled_of_part {n : Nat} {c : Consume Raw} (empty : w.Empty)
    (run : Trace (pipeline ι json).Step ⟨w, fun _ => none⟩ h t)
    (passed : (pipeline ι json).Passed (Job.Part json) h (.consume n c))
    (works : c.routes = false) (about : c.About json id) :
    Concluded json h t.world.kafka id ∨ Abandoned h id := by
  obtain ⟨worker, msg, task, rfl, decodes, rfl⟩ := about.process works
  obtain ⟨e, member, i, op, next, label, here, part⟩ := passed
  have same : ∀ {other}, (Consume.process worker msg).About json other → other = task.id := by
    rintro other ⟨task', decodes', rfl⟩
    cases decodes.symm.trans decodes'
    rfl
  cases op with
  | publish topic key value origin =>
      obtain ⟨rfl, ⟨routes, _⟩ | ⟨_, rfl, rfl, own⟩⟩ := part
      · cases routes
      obtain rfl := same own
      obtain ⟨x, y, rfl⟩ := List.append_of_mem member
      obtain ⟨answer, noted⟩ := heeds_run run here decodes
      have marked := System.mem_diary noted
      by_cases dead : answer = none
      · obtain ⟨x', a, y', rfl, ⟨marks, answered⟩, _⟩ := marked
        exact .inl (.dead (by simp) marks (answered.trans dead))
      · by_cases sent : (perform (.publish topicDLQ task.id msg.value .worker) e.pre.world).1 = none
        · exact .inl (.letter (published_run run member label sent) rfl decodes rfl)
        · refine .inr ⟨x, e, y, i, msg.value, rfl, label, sent, ?_⟩
          obtain ⟨x', a, y', split, ⟨marks, answered⟩, since⟩ := marked
          exact ⟨x', a, y', split, ⟨marks, fun none => dead (answered.symm.trans none)⟩, since⟩
  | handle handler copy =>
      obtain ⟨_, success, own⟩ := part
      exact .inl (.handled member label (same own) success)
  | getStatus other =>
      obtain ⟨_, terminal, own⟩ := part
      have settled := accounted_run empty run other (.inr ⟨e, member, terminal_of_read terminal⟩)
      rw [same own] at settled
      exact .inl settled
  | _ => exact part.elim

/-- Once the log is consumed, the task of a record of `tasks.pending` is settled. -/
theorem settled_of_drained (empty : w.Empty)
    (run : Trace (pipeline ι json).Step ⟨w, fun _ => none⟩ h t) (drained : Drained h t)
    {r : Record Raw} (listed : r ∈ t.world.kafka) (pending : r.message.topic = topicPending)
    {task : Task} (decodes : json.unmarshal r.message.value = some task) :
    Concluded json h t.world.kafka task.id ∨ Abandoned h task.id := by
  have apart : topicPending ≠ topicDLQ := by decide
  obtain ⟨n, found⟩ := List.mem_iff_getElem?.mp listed
  obtain ⟨c, same, topic, e, member, i, op, next, label, here, part⟩ :=
    part_of_consumed empty run (drained n r found (pending ▸ apart)) found
  have routes : c.routes = true := by
    cases c with
    | route d msg => rfl
    | process worker msg =>
        exact absurd (topic.symm.trans pending) (workerTopic_ne worker.workerType).1
  cases op with
  | publish topic' key value origin =>
      obtain ⟨rfl, ⟨_, works, forward⟩ | ⟨other, _⟩⟩ := part
      swap
      · cases routes.symm.trans other
      have sent := published_run run member label works
      rw [same] at sent
      by_cases dead : topic' = topicDLQ
      · exact .inl (.letter sent dead decodes rfl)
      · -- A worker consumed the copy.
        obtain ⟨m, copy⟩ := List.mem_iff_getElem?.mp sent
        obtain ⟨c', same', topic'', passed⟩ :=
          part_of_consumed empty run (drained m _ copy dead) copy
        have works : c'.routes = false := by
          cases c' with
          | route d msg => exact absurd topic'' forward
          | process worker msg => rfl
        refine settled_of_part empty run passed works ⟨task, ?_, rfl⟩
        rw [same']
        exact decodes
  | handle handler copy => cases routes.symm.trans part.1
  | getStatus other => cases routes.symm.trans part.1
  | _ => exact part.elim

/-- **Nothing is lost.**  In every run of the pipeline from an empty deployment, under any
faults, crashes, expiries and redeliveries, once every record of `tasks.pending` and of
the topics of the workers was consumed, every task of `tasks.pending` was run
successfully, marked `DEAD` by a worker, or put in the dead letters, or a worker dropped it
in a call in which neither of the last two could be written. -/
theorem nothing_lost (json : Json Raw) (w : World Raw) (empty : w.Empty)
    (run : Trace (pipeline ι json).Step ⟨w, fun _ => none⟩ h t) (drained : Drained h t)
    (r : Record Raw) (listed : r ∈ t.world.kafka) (pending : r.message.topic = topicPending)
    (task : Task) (decodes : json.unmarshal r.message.value = some task) :
    Concluded json h t.world.kafka task.id ∨ Abandoned h task.id :=
  settled_of_drained empty run drained listed pending decodes

end Runs

theorem nothing_lost_email :
    Concluded plainJson ((pipeline Bool plainJson).play (undeployed .calm) emailTwice)
      ((pipeline Bool plainJson).final (undeployed .calm) emailTwice).world.kafka "x" := by
  have admitted : ∀ e ∈ (pipeline Bool plainJson).play (undeployed .calm) emailTwice,
      (pipeline Bool plainJson).Admitted e := by decide
  have run := System.play_trace admitted (by simp [emailTwice, takeEmail, submitAndRoute])
  have log : ((pipeline Bool plainJson).final (undeployed .calm) emailTwice).world.kafka =
      [⟨pendingMessage plainJson (firstTask ⟨"email", [123, 125], 1, 0⟩), .gateway⟩,
        ⟨workerMessage plainJson (firstTask ⟨"email", [123, 125], 1, 0⟩), .dispatcher⟩] := by
    decide
  have drained : Drained ((pipeline Bool plainJson).play (undeployed .calm) emailTwice)
      ((pipeline Bool plainJson).final (undeployed .calm) emailTwice) := by
    intro n r found _
    have bound := (List.getElem?_eq_some_iff.mp found).1
    rw [log, List.length_cons, List.length_singleton] at bound
    rcases n with _ | _ | n
    · exact ⟨_, List.mem_of_getElem? (i := 13) rfl, false, _, rfl, rfl⟩
    · exact ⟨_, List.mem_of_getElem? (i := 28) rfl, true, _, rfl, rfl⟩
    · omega
  have listed : (⟨pendingMessage plainJson (firstTask ⟨"email", [123, 125], 1, 0⟩), .gateway⟩ :
      Record Task) ∈ ((pipeline Bool plainJson).final (undeployed .calm)
        emailTwice).world.kafka := by
    rw [log]
    exact List.mem_cons_self
  have works : ∀ e ∈ (pipeline Bool plainJson).play (undeployed .calm) emailTwice,
      e.pre.world.fails .publish = false := by decide
  have settled := nothing_lost plainJson _ (undeployed_empty .calm) run drained _ listed rfl _ rfl
  refine settled.resolve_right fun abandoned => ?_
  obtain ⟨e, member, failed⟩ := abandoned.exists_failed
  cases (works e member).symm.trans failed

end TaskFlow
