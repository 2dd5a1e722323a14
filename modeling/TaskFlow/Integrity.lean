import TaskFlow.PipelineCalls
import TaskFlow.DurableCopies
import TaskFlow.Effect.Replica

/-!
# One task, one content

A task is stored many times: as the copy in the cache, as the row of `tasks`, in the
messages of three kinds of topics, and handed to a handler once for every attempt.  The
services decode it, change some fields and write it back, without a transaction around
any of it.  What a submission fixes about a task (`Content`) survives all of that: in
every run of the pipeline, under any faults, crashes and redeliveries, all copies of a
task ever met have the content that one accepted request gave it (`copies_agree`); a row
has it as far as its columns keep it (`Content.SameColumns`).

A submission brings in the content of its task when it reads the clock (`carried`), and
the identifier is unused until then (`Unused`).  From there on every write is a copy
(`Op.Gives`, `Op.Relays`).
-/

namespace TaskFlow

open Effect

variable {Raw ι β : Type} {json : Json Raw} {w : World Raw} {op : Op Raw} {id : String}

/-! ## Copies of a task -/

/-- What a submission fixes about a task. -/
structure Content : Type where
  id : String
  type : String
  payload : List UInt8
  priority : Int
  maxRetries : Int
  createdAt : Time
  scheduledAt : Option Time
deriving DecidableEq, Inhabited

def Task.content (task : Task) : Content where
  id := task.id
  type := task.type
  payload := task.payload
  priority := task.priority
  maxRetries := task.maxRetries
  createdAt := task.createdAt
  scheduledAt := task.scheduledAt

/-- Two contents that the columns of `tasks` do not tell apart: they keep times to the
microsecond, and `JSONB` renders the payload again. -/
structure Content.SameColumns (a b : Content) : Prop where
  id : a.id = b.id
  type : a.type = b.type
  priority : a.priority = b.priority
  maxRetries : a.maxRetries = b.maxRetries
  createdAt : a.createdAt / 1000 = b.createdAt / 1000
  scheduledAt : a.scheduledAt.map (· / 1000) = b.scheduledAt.map (· / 1000)

theorem Content.SameColumns.refl (content : Content) : content.SameColumns content :=
  ⟨rfl, rfl, rfl, rfl, rfl, rfl⟩

/-- The places where a deployment has a copy of a task. -/
inductive World.HasCopy (json : Json Raw) (w : World Raw) (id : String) : Task → Prop
  | cached {task : Task} : w.redis.metas id = some task → HasCopy json w id task
  | row {task : Task} : w.db.tasks id = some task → HasCopy json w id task
  | message {r : Record Raw} {task : Task} : r ∈ w.kafka →
    json.unmarshal r.message.value = some task → task.id = id → HasCopy json w id task
  | handled {task : Task} {outcome : Option Error} : (task, outcome) ∈ w.handled →
    task.id = id → HasCopy json w id task

/-- The call writes this content under the identifier. -/
def Op.Gives (json : Json Raw) (id : String) (content : Content) : Op Raw → Prop
  | .setTaskMeta task => task.id = id ∧ task.content = content
  | .create task => task.id = id ∧ task.content = content
  | .publish _ _ value _ => ∃ task, json.unmarshal value = some task ∧ task.id = id ∧
      task.content = content
  | .handle _ task => task.id = id ∧ task.content = content
  | _ => False

/-- An insertion leaves the rows of other tasks alone. -/
theorem perform_create_ne {task : Task} (ne : id ≠ task.id) :
    (perform (.create task) w).2.db.tasks id = w.db.tasks id := by
  cases down : w.fails .create with
  | true =>
      simp only [perform, World.create, World.attempt_of_fails down]
      rfl
  | false =>
      simp only [perform, World.create, World.attempt_of_works down]
      cases inserted : (w.spend .create).db.insertTask task with
      | none => rfl
      | some db =>
          unfold Postgres.insertTask at inserted
          split at inserted <;> cases inserted
          exact Function.update_of_ne ne ..

/-- A copy that is there after a call was there before, up to what the call changed in
it, or the call wrote it. -/
theorem perform_hasCopy {task : Task} (has : (perform op w).2.HasCopy json id task) :
    (∃ old, w.HasCopy json id old ∧ old.content = task.content) ∨
      op.Gives json id task.content := by
  cases has with
  | cached found =>
      rcases perform_copy op w id with same | ⟨copy, rfl, named, written⟩
      · exact .inl ⟨task, .cached (same ▸ found), rfl⟩
      · cases Option.some.inj (found.symm.trans written)
        exact .inr ⟨named, rfl⟩
  | row found =>
      rcases perform_row op w id with same | ⟨created, rfl, free, inserted⟩ |
        ⟨other, status, row, now, rfl, held, updated⟩
      · exact .inl ⟨task, .row (same ▸ found), rfl⟩
      · by_cases same : id = created.id
        · cases Option.some.inj (found.symm.trans inserted)
          exact .inr ⟨same.symm, rfl⟩
        · rw [perform_create_ne same, free] at inserted
          cases inserted
      · cases Option.some.inj (found.symm.trans updated)
        exact .inl ⟨row, .row held, rfl⟩
  | @message r _ listed decodes named =>
      rcases perform_record listed with before | rfl
      · exact .inl ⟨task, .message before decodes named, rfl⟩
      · exact .inr ⟨task, decodes, named, rfl⟩
  | @handled _ outcome listed named =>
      by_cases handles : ∃ handler task', op = .handle handler task'
      · obtain ⟨handler, task', rfl⟩ := handles
        rcases List.mem_append.mp listed with before | last
        · exact .inl ⟨task, .handled before named, rfl⟩
        · cases List.mem_singleton.mp last
          exact .inr ⟨named, rfl⟩
      · rw [perform_handled fun handler task' same => handles ⟨handler, task', same⟩] at listed
        exact .inl ⟨task, .handled listed named, rfl⟩

theorem World.Drift.uuid {w' : World Raw} (drift : w.Drift w') :
    w'.script.uuid = w.script.uuid := by
  cases drift <;> rfl

/-- Expiry and contexts bring in no copy. -/
theorem World.Drift.hasCopy {w' : World Raw} {task : Task} (drift : w.Drift w')
    (has : w'.HasCopy json id task) : w.HasCopy json id task := by
  cases has with
  | cached found => exact .cached (drift.metas found)
  | row found => exact .row (drift.db ▸ found)
  | message listed decodes named => exact .message (drift.kafka ▸ listed) decodes named
  | @handled _ outcome listed named =>
      have before : (task, outcome) ∈ w.handled := by cases drift <;> exact listed
      exact .handled before named

/-! ## Submissions carry their task -/

namespace Submission

/-- The task a submission is writing, once its content is complete. -/
def carried (json : Json Raw) : Service Raw β → Option Task
  | .call (.setTaskMeta task) _ => some task
  | .call (.setStatus _ _) next => carried json (next none)
  | .call (.create task) _ => some task
  | .call (.publish _ _ value _) _ => json.unmarshal value
  | _ => none

theorem Ends.not_carried {p : Service Raw β} {task : Task} (ends : Ends p) :
    carried json p ≠ some task := by
  cases p with
  | pure value => exact nofun
  | call op next =>
      obtain ⟨⟨m, n, rfl⟩, _⟩ := ends
      exact nofun

/-- The call reads the time of a task whose identifier is drawn. -/
def Completes (p : Service Raw β) (op : Op Raw) (task : Task) : Prop :=
  op = .now ∧ (progress p).id = some task.id

/-- A submission keeps its task, and completes it by reading the clock. -/
theorem Submitting.carries {next : op.Ans → Service Raw β} {task : Task}
    (submitting : Submitting json (.call op next)) (answer : op.Ans)
    (carries : carried json (next answer) = some task) :
    carried json (.call op next) = some task ∨
      carried json (.call op next) = none ∧ Completes (.call op next) op task := by
  generalize eq : Prog.call op next = p at submitting ⊢
  cases submitting with
  | @drawing req answer' typed counts =>
      have shape : Gateway.submit json req answer' = .call .newUUID fun id => .call .now fun now =>
        Gateway.enqueue json (Gateway.newTask req id now) >>= answer' id now := rfl
      rw [shape] at eq
      cases eq
      cases carries
  | @timing req answer' id typed counts =>
      cases eq
      simp only [Gateway.enqueue_eq] at carries ⊢
      cases carries
      exact .inr ⟨rfl, rfl, rfl⟩
  | @caching task' answer' new ends =>
      rw [Gateway.enqueue_eq] at eq
      cases eq
      cases answer with
      | none =>
          refine .inl ?_
          rw [Gateway.enqueue_eq]
          exact carries
      | some err => exact absurd carries (ends _).not_carried
  | @marking task' answer' new ends =>
      cases eq
      cases answer with
      | none => exact .inl carries
      | some err => exact absurd carries (ends _).not_carried
  | @creating task' answer' new ends =>
      cases eq
      refine .inl ?_
      rw [← carries]
      exact (json.unmarshal_marshal _).symm
  | @publishing task' answer' new ends =>
      cases eq
      cases answer <;> exact absurd carries (ends _).not_carried
  | ended ends =>
      subst eq
      exact absurd carries (Ends.not_carried (ends.2 answer))

/-- A submission that goes on with its task still carries it. -/
theorem Submitting.still_carries {next : op.Ans → Service Raw β} {task : Task}
    (submitting : Submitting json (.call op next)) (answer : op.Ans)
    (goes : (progress (next answer)).id = some id)
    (carries : carried json (.call op next) = some task) :
    carried json (next answer) = some task := by
  have ended : ∀ {p : Service Raw β}, Ends p → (progress p).id ≠ some id := by
    intro p ends
    rw [progress_of_ends ends]
    exact nofun
  generalize eq : Prog.call op next = p at submitting carries
  cases submitting with
  | drawing typed counts => cases carries
  | timing id typed counts => cases carries
  | @caching task' answer' new ends =>
      rw [Gateway.enqueue_eq] at eq carries
      cases eq
      cases answer with
      | none => exact carries
      | some err => exact absurd goes (ended (ends _))
  | @marking task' answer' new ends =>
      cases eq
      cases answer with
      | none => exact carries
      | some err => exact absurd goes (ended (ends _))
  | @creating task' answer' new ends =>
      cases eq
      rw [← carries]
      exact json.unmarshal_marshal _
  | @publishing task' answer' new ends =>
      cases eq
      cases answer <;> exact absurd goes (ended (ends _))
  | ended ends => exact absurd carries ends.not_carried

/-- A submission carries the task it is about. -/
theorem Submitting.carried_id {p : Service Raw β} {task : Task} (submitting : Submitting json p)
    (carries : carried json p = some task) : (progress p).id = some task.id := by
  cases submitting with
  | drawing typed counts => cases carries
  | timing id typed counts => cases carries
  | @caching task' answer' new ends =>
      rw [Gateway.enqueue_eq] at carries ⊢
      cases carries
      rfl
  | @marking task' answer' new ends =>
      cases carries
      rfl
  | @creating task' answer' new ends =>
      cases carries
      rfl
  | @publishing task' answer' new ends =>
      cases (json.unmarshal_marshal task').symm.trans carries
      rfl
  | ended ends => exact absurd carries ends.not_carried

/-- A submission writes the task it carries. -/
theorem Submitting.gives {next : op.Ans → Service Raw β} {content : Content}
    (submitting : Submitting json (.call op next)) (gives : op.Gives json id content) :
    ∃ task, carried json (.call op next) = some task ∧ task.id = id ∧ task.content = content := by
  cases op with
  | setTaskMeta task => exact ⟨task, rfl, gives⟩
  | create task => exact ⟨task, rfl, gives⟩
  | publish topic key value origin => exact gives
  | handle handler task => cases (submitting.advance none).2
  | _ => exact gives.elim

/-- The task a submission carries is that of its request. -/
theorem asks_of_carried {r : Submission} {p : Service Raw β} {task : Task}
    (writes : Prog.All (r.Writes json) p) (carries : carried json p = some task) :
    r.Asks task := by
  induction p with
  | pure value => cases carries
  | call op next ih =>
      obtain ⟨here, later⟩ := writes
      cases op with
      | setTaskMeta task' =>
          cases carries
          exact here
      | create task' =>
          cases carries
          exact here
      | publish topic key value origin =>
          obtain ⟨task', rfl, asks⟩ := here
          cases (json.unmarshal_marshal task').symm.trans carries
          exact asks
      | setStatus id status => exact ih none (later none) carries
      | _ => cases carries

end Submission

/-! ## Consumers copy the task of their message -/

/-- The calls of a consumer that give a task give that of its message. -/
def Op.Relays (json : Json Raw) (c : Consume Raw) (op : Op Raw) : Prop :=
  ∀ id content, op.Gives json id content →
    ∃ task, json.unmarshal c.message.value = some task ∧ task.id = id ∧ task.content = content

theorem Consume.Calls.relays {c : Consume Raw} (calls : c.Calls json op) : op.Relays json c := by
  cases c with
  | route d msg =>
      cases op with
      | publish topic key value origin =>
          obtain ⟨rfl, _⟩ := calls
          exact fun id content gives => gives
      | setStatus _ _ | allow _ | count _ _ => exact fun id content gives => gives.elim
      | _ => exact calls.elim
  | process w msg =>
      obtain ⟨task, decodes, calls⟩ := calls
      cases op with
      | publish topic key value origin =>
          obtain ⟨_, _, rfl, _⟩ := calls
          exact fun id content gives => gives
      | setTaskMeta copy =>
          obtain ⟨status, attempts, updatedAt, completedAt, _, rfl⟩ := calls
          exact fun id content gives => ⟨task, decodes, gives⟩
      | handle h copy =>
          obtain ⟨_, rfl⟩ := calls
          exact fun id content gives => ⟨copy, decodes, gives⟩
      | create _ => exact calls.elim
      | _ => exact fun id content gives => gives.elim

/-! ## The pool -/

variable [DecidableEq ι] {s t : PipelinePool Raw ι} {l : Label (Op Raw) ι (Job Raw)}
  {h x y : List (PipelineStep Raw ι)} {e : PipelineStep Raw ι}

/-- A submission in this slot carries the task. -/
def Carries (json : Json Raw) (s : PipelinePool Raw ι) (i : ι) (r : Submission) (task : Task) :
    Prop :=
  ∃ rest, s.threads i = some ⟨.submit r, rest⟩ ∧ Submission.carried json rest = some task

/-- The content is that of a copy, or of a task a submission is writing. -/
def Holds (json : Json Raw) (s : PipelinePool Raw ι) (id : String) (content : Content) : Prop :=
  (∃ task, s.world.HasCopy json id task ∧ task.content = content) ∨
    ∃ i r task, Carries json s i r task ∧ task.id = id ∧ task.content = content

/-- The identifier is still to be drawn, or its submission has not read the clock yet. -/
def Unused (json : Json Raw) (s : PipelinePool Raw ι) (id : String) : Prop :=
  (∃ n, s.world.script.uuid n = id) ∨
    ∃ i r rest, s.threads i = some ⟨.submit r, rest⟩ ∧
      (Submission.progress rest).id = some id ∧ Submission.carried json rest = none

theorem Job.not_carried_body {r : Submission} {task : Task} :
    Submission.carried json (Job.body json (.submit r)) ≠ some task := by
  intro carries
  obtain ⟨submitting, begins⟩ := Submission.submitting_submit json r (none : Option Error)
  have named := submitting.carried_id carries
  rw [begins] at named
  cases named

/-- What the steps of the pipeline keep. -/
structure Lineage (json : Json Raw) (s : PipelinePool Raw ι) : Prop where
  shaped : WellShaped json s
  sound : (custody s).Sound
  taken : Taken s
  faithful : ∀ i thread, s.threads i = some thread → thread.request.Faithful json thread.rest

theorem Lineage.step (step : (pipeline ι json).Step s l t) (lineage : Lineage json s) :
    Lineage json t where
  shaped := lineage.shaped.step step
  sound := lineage.sound.step (custody_step (pipeline_step step lineage.shaped))
  taken := lineage.taken.step step
  faithful := step.thread_invariant (T := fun _ job rest => Job.Faithful json rest job)
    (fun _ => Job.faithful_body) (fun _ _ _ _ faithful => faithful.answer _) lineage.faithful

/-- A copy after a step is a copy of what there was before it. -/
theorem Lineage.copies (lineage : Lineage json s) (happens : Happens json s l t) {task : Task}
    (has : t.world.HasCopy json id task) : Holds json s id task.content := by
  cases happens with
  | start idle delivered => exact .inl ⟨task, has, rfl⟩
  | stop running => exact .inl ⟨task, has, rfl⟩
  | drifts moved => exact .inl ⟨task, moved.hasCopy has, rfl⟩
  | @submits i r op next here advance =>
      rcases perform_hasCopy has with before | gives
      · exact .inl before
      · obtain ⟨own, carries, same⟩ := (lineage.shaped i _ here).gives gives
        exact .inr ⟨i, r, own, ⟨_, here, carries⟩, same⟩
  | @consumes i n c op next here consumes =>
      rcases perform_hasCopy has with before | gives
      · exact .inl before
      · obtain ⟨own, decodes, named, same⟩ := (lineage.faithful i _ here).1.relays id _ gives
        obtain ⟨r, listed, message⟩ := lineage.taken i n c _ here
        exact .inl ⟨own, .message listed (message ▸ decodes) named, same⟩

/-- A task carried after a step was carried before it, or its submission has read the
clock. -/
theorem Lineage.carries (lineage : Lineage json s) (step : (pipeline ι json).Step s l t) {i : ι}
    {r : Submission} {task : Task} (carries : Carries json t i r task) :
    Carries json s i r task ∨ l = .act i .now ∧ Unused json s task.id := by
  obtain ⟨rest, running, carried⟩ := carries
  rcases step.threads_cases running with ⟨before, _⟩ | ⟨job, _, _, _, started⟩ |
    ⟨op, next, label, before, same, _⟩
  · exact .inl ⟨rest, before, carried⟩
  · cases started
    exact absurd carried Job.not_carried_body
  · dsimp only at before same
    subst same
    rcases Submission.Submitting.carries (lineage.shaped i _ before) _ carried with
      still | ⟨blank, reads, named⟩
    · exact .inl ⟨_, before, still⟩
    · subst reads
      exact .inr ⟨label, .inr ⟨i, r, _, before, named, blank⟩⟩

omit [DecidableEq ι] in
/-- The identifier of a task that is carried is in use. -/
theorem Lineage.used (lineage : Lineage json s) {i : ι} {r : Submission} {task : Task}
    (carries : Carries json s i r task) : ¬ Unused json s task.id := by
  obtain ⟨rest, running, carried⟩ := carries
  have submitting : Submission.Submitting json rest := lineage.shaped i _ running
  have held : (custody s).held i = some task.id :=
    (custody_held running).trans (submitting.carried_id carried)
  rintro (⟨n, drawn⟩ | ⟨j, r', rest', running', named, blank⟩)
  · exact lineage.sound.undrawn i n (held.trans (congrArg some drawn.symm))
  · have same := lineage.sound.exclusive i j task.id held ((custody_held running').trans named)
    subst same
    rw [running] at running'
    cases running'
    rw [carried] at blank
    cases blank

/-- No identifier becomes unused. -/
theorem Lineage.shrinks (lineage : Lineage json s) (step : (pipeline ι json).Step s l t)
    (unused : Unused json t id) : Unused json s id := by
  rcases unused with ⟨n, drawn⟩ | ⟨i, r, rest, running, named, blank⟩
  · rcases step.world_cases with ⟨_, same⟩ | ⟨_, _, op, _, _, _, after⟩ | ⟨_, moved⟩
    · exact .inl ⟨n, same ▸ drawn⟩
    · obtain ⟨k, shift⟩ := perform_uuid op s.world
      refine .inl ⟨n + k, ?_⟩
      rw [← shift n, ← drawn, after]
      rfl
    · exact .inl ⟨n, (congrFun (World.Drift.uuid moved) n).symm.trans drawn⟩
  · rcases step.threads_cases running with ⟨before, _⟩ | ⟨job, _, _, _, started⟩ |
      ⟨op, next, label, before, same, _⟩
    · exact .inr ⟨i, r, rest, before, named, blank⟩
    · cases started
      have begins : Submission.progress (Job.body json (.submit r)) = .none :=
        Job.progress_body (.submit r)
      cases (congrArg Submission.Progress.id begins).symm.trans named
    · dsimp only at before same
      subst same
      have submitting : Submission.Submitting json (.call op next) := lineage.shaped i _ before
      have advance := (submitting.advance (perform op s.world).1).2
      by_cases draws : op = .newUUID
      · subst draws
        have first := congrArg Submission.Progress.id advance.drawn
        exact .inl ⟨0, Option.some.inj (first.symm.trans named)⟩
      · refine .inr ⟨i, r, _, before, advance.keeps draws named, ?_⟩
        refine Option.eq_none_iff_forall_not_mem.mpr fun task carries => ?_
        have still := submitting.still_carries _ named carries
        rw [blank] at still
        cases still

theorem Lineage.replicates (lineage : Lineage json s) (step : (pipeline ι json).Step s l t) :
    Replicates (Holds json) (Unused json) s t := by
  refine ⟨?_, fun id => lineage.shrinks step⟩
  have copied : ∀ id content, Holds json t id content → Holds json s id content ∨
      ∃ i r task, Carries json t i r task ∧ l = .act i .now ∧ Unused json s id ∧
        task.id = id ∧ task.content = content := by
    rintro id content (⟨task, has, rfl⟩ | ⟨i, r, task, carries, rfl, rfl⟩)
    · exact .inl (lineage.copies (pipeline_step step lineage.shaped) has)
    · rcases lineage.carries step carries with before | ⟨label, unused⟩
      · exact .inl (.inr ⟨i, r, task, before, rfl, rfl⟩)
      · exact .inr ⟨i, r, task, carries, label, unused, rfl, rfl⟩
  by_cases reads : ∃ i r task, Carries json t i r task ∧ l = .act i .now
  · obtain ⟨i, r, task, carries, label⟩ := reads
    refine ⟨some (task.id, task.content), fun id content holds => ?_⟩
    refine (copied id content holds).imp_right ?_
    rintro ⟨j, r', task', carries', label', unused, rfl, rfl⟩
    refine ⟨unused, (lineage.step step).used carries', ?_⟩
    -- The step belongs to one slot, and the slot carries one task.
    cases label.symm.trans label'
    obtain ⟨rest, running, carried⟩ := carries
    obtain ⟨rest', running', carried'⟩ := carries'
    cases running.symm.trans running'
    cases Option.some.inj (carried.symm.trans carried')
    rfl
  · refine ⟨none, fun id content holds => .inl ((copied id content holds).resolve_right ?_)⟩
    rintro ⟨i, r, task, carries, label, _⟩
    exact reads ⟨i, r, task, carries, label⟩

theorem lineage_run (distinct : Function.Injective w.script.uuid)
    (run : Trace (pipeline ι json).Step ⟨w, fun _ => none⟩ h t) :
    Lineage json t ∧ ∀ e ∈ h, Lineage json e.pre := by
  have start : Lineage json (⟨w, fun _ => none⟩ : PipelinePool Raw ι) :=
    ⟨wellShaped_idle, ⟨distinct, fun _ _ => nofun, fun _ _ _ => nofun⟩, fun _ _ _ _ => nofun,
      fun _ _ => nofun⟩
  exact ⟨run.invariant start fun e _ => Lineage.step,
    run.invariant_pre start fun e _ => Lineage.step⟩

/-! ## Where the content comes from -/

/-- A request that passes the validation asks for this content, and was submitted. -/
def Requested (h : List (PipelineStep Raw ι)) (id : String) (content : Content) : Prop :=
  ∃ e ∈ h, ∃ i r req now, e.label = .start i (.submit r) ∧ r.fields = some req ∧
    content = (Gateway.newTask req id now).content

/-- The submissions at work were started, and every content is that of a request. -/
structure Sourced (json : Json Raw) (x : List (PipelineStep Raw ι)) (s : PipelinePool Raw ι) :
    Prop where
  lineage : Lineage json s
  started : ∀ i r rest, s.threads i = some ⟨.submit r, rest⟩ →
    ∃ e ∈ x, e.label = .start i (.submit r)
  requested : ∀ id content, Holds json s id content → Requested x id content

omit [DecidableEq ι] in
theorem Requested.mono {content : Content} (requested : Requested x id content) :
    Requested (x ++ y) id content := by
  obtain ⟨e, member, asked⟩ := requested
  exact ⟨e, List.mem_append_left _ member, asked⟩

theorem Sourced.step (step : (pipeline ι json).Step e.pre e.label e.post)
    (sourced : Sourced json x e.pre) : Sourced json (x ++ [e]) e.post := by
  have lineage := sourced.lineage.step step
  have started : ∀ i r rest, e.post.threads i = some ⟨.submit r, rest⟩ →
      ∃ e' ∈ x ++ [e], e'.label = .start i (.submit r) := by
    intro i r rest running
    have earlier : (∃ e' ∈ x, e'.label = .start i (.submit r)) →
        ∃ e' ∈ x ++ [e], e'.label = .start i (.submit r) := by
      rintro ⟨e', member, label⟩
      exact ⟨e', List.mem_append_left _ member, label⟩
    rcases step.threads_cases running with ⟨before, _⟩ | ⟨job, label, _, _, begun⟩ |
      ⟨op, next, _, before, _, _⟩
    · exact earlier (sourced.started i r rest before)
    · cases begun
      exact ⟨e, List.mem_append_right _ (List.mem_singleton_self _), label⟩
    · exact earlier (sourced.started i r _ before)
  refine ⟨lineage, started, ?_⟩
  rintro id content (⟨task, has, rfl⟩ | ⟨i, r, task, ⟨rest, running, carried⟩, rfl, rfl⟩)
  · have happens := pipeline_step step sourced.lineage.shaped
    exact (sourced.requested id _ (sourced.lineage.copies happens has)).mono
  · obtain ⟨e', member, label⟩ := started i r rest running
    obtain ⟨req, now, valid, same⟩ :=
      Submission.asks_of_carried (lineage.faithful i _ running) carried
    exact ⟨e', member, i, r, req, now, label, valid, congrArg Task.content same⟩

omit [DecidableEq ι] in
theorem World.Empty.holds (empty : w.Empty) (idle : w.handled = []) (content : Content) :
    ¬ Holds json (⟨w, fun _ => none⟩ : PipelinePool Raw ι) id content := by
  rintro (⟨task, has, _⟩ | ⟨i, r, task, ⟨rest, running, _⟩, _⟩)
  · cases has with
    | cached found => rw [empty.metas id] at found; cases found
    | row found => rw [empty.tasks id] at found; cases found
    | message listed decodes named => rw [empty.kafka] at listed; cases listed
    | handled listed named => rw [idle] at listed; cases listed
  · cases running

/-- Along a run every content is that of a request. -/
theorem sourced_run (empty : w.Empty) (idle : w.handled = [])
    (distinct : Function.Injective w.script.uuid)
    (run : Trace (pipeline ι json).Step ⟨w, fun _ => none⟩ h t) : Sourced json h t := by
  refine run.history (I := Sourced json) ?_ fun x e y _ => Sourced.step
  exact ⟨(lineage_run distinct .nil).1, fun _ _ _ => nofun,
    fun id content holds => absurd holds (empty.holds idle content)⟩

/-- The state at some moment of a run through `h` to `t`. -/
def Moment (h : List (PipelineStep Raw ι)) (t : PipelinePool Raw ι) (w : World Raw) : Prop :=
  w = t.world ∨ ∃ e ∈ h, w = e.pre.world

/-- All copies of a task have this content, a row as far as its columns keep it. -/
structure World.OneContent (json : Json Raw) (w : World Raw) (id : String) (content : Content) :
    Prop where
  cached : ∀ task, w.redis.metas id = some task → task.content = content
  row : ∀ task, w.db.tasks id = some task → task.content.SameColumns content
  message : ∀ r ∈ w.kafka, ∀ task, json.unmarshal r.message.value = some task → task.id = id →
    task.content = content
  handled : ∀ task outcome, (task, outcome) ∈ w.handled → task.id = id → task.content = content

theorem World.oneContent {content : Content}
    (single : ∀ task, w.HasCopy json id task → task.content = content) :
    w.OneContent json id content where
  cached task found := single task (.cached found)
  row task found := by
    rw [single task (.row found)]
    exact .refl content
  message _ listed task decodes named := single task (.message listed decodes named)
  handled task _ listed named := single task (.handled listed named)

/-- **One task, one content.**  In every run of the pipeline from an empty deployment,
under any faults, crashes, redeliveries and expiries, an identifier has one content: all
copies of it at any moment, in the cache, in the messages of any topic, in the hands of a
handler and, as far as its columns go, in the table, have the content that a submitted
request gave it. -/
theorem copies_agree (json : Json Raw) (w : World Raw) (empty : w.Empty) (idle : w.handled = [])
    (distinct : Function.Injective w.script.uuid)
    (run : Trace (pipeline ι json).Step ⟨w, fun _ => none⟩ h t) :
    ∃ content : String → Content, ∀ w', Moment h t w' → ∀ id,
      w'.OneContent json id (content id) ∧
        ∀ task, w'.HasCopy json id task → Requested h id (content id) := by
  obtain ⟨_, lineages⟩ := lineage_run distinct run
  obtain ⟨content, single⟩ := run.one_content (fun _ => empty.holds idle) fun e member =>
    (lineages e member).replicates (run.taken member)
  have agree : ∀ w', Moment h t w' → ∀ id task, w'.HasCopy json id task →
      task.content = content id ∧ Requested h id (content id) := by
    rintro w' (rfl | ⟨e, member, rfl⟩) id task has
    · have holds : Holds json t id task.content := .inl ⟨task, has, rfl⟩
      have same := single id _ (.inl holds)
      rw [← same]
      exact ⟨rfl, (sourced_run empty idle distinct run).requested id _ holds⟩
    · have holds : Holds json e.pre id task.content := .inl ⟨task, has, rfl⟩
      have same := single id _ (.inr ⟨e, member, holds⟩)
      rw [← same]
      obtain ⟨x, y, rfl⟩ := List.append_of_mem member
      have before := sourced_run empty idle distinct run.split_cons.1
      exact ⟨rfl, (before.requested id _ holds).mono⟩
  refine ⟨content, fun w' moment id => ⟨World.oneContent fun task has => ?_, fun task has => ?_⟩⟩
  · exact (agree w' moment id task has).1
  · exact (agree w' moment id task has).2

theorem copies_agree_email :
    ((pipeline Bool plainJson).final (undeployed .calm) emailTwice).world.HasCopy plainJson "x"
        { firstTask ⟨"email", [123, 125], 1, 0⟩ with
          status := .done, updatedAt := 4, completedAt := some 4 } ∧
      ∃ content : String → Content, ∀ w', Moment
        ((pipeline Bool plainJson).play (undeployed .calm) emailTwice)
        ((pipeline Bool plainJson).final (undeployed .calm) emailTwice) w' →
        ∀ id, w'.OneContent plainJson id (content id) ∧ ∀ task, w'.HasCopy plainJson id task →
          Requested ((pipeline Bool plainJson).play (undeployed .calm) emailTwice) id
            (content id) := by
  have admitted : ∀ e ∈ (pipeline Bool plainJson).play (undeployed .calm) emailTwice,
      (pipeline Bool plainJson).Admitted e := by decide
  have run := System.play_trace admitted (by simp [emailTwice, takeEmail, submitAndRoute])
  exact ⟨.row (by decide), copies_agree plainJson _ (undeployed_empty .calm) rfl
    countedIDs_injective run⟩

end TaskFlow
