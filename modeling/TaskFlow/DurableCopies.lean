import TaskFlow.PipelinePool

/-!
# The durable copies move forward

In every run of the pipeline, under any faults and redeliveries, a message of a task is
in the log only when both `PENDING` writes of the gateway are made and its submission is
over (`Causal`).  So the writes of the gateway come first, a terminal copy in the cache
was made by a worker and is replaced by terminal copies only, and a row, whose status
is written by `UpdateStatus` with terminal statuses alone, keeps a terminal status and
has a completion time exactly then.
-/

namespace TaskFlow

open Effect

variable {Raw ι : Type} {json : Json Raw} {s t : PipelinePool Raw ι}
  {h x y : List (PipelineStep Raw ι)} {e : PipelineStep Raw ι} {id : String}

/-! ## Who writes what -/

/-- The step is a call of a submission. -/
def ByGateway (e : PipelineStep Raw ι) : Prop :=
  ∃ i op r rest, e.label = .act i op ∧ e.pre.threads i = some ⟨.submit r, rest⟩

/-- The calls that write the status key or the copy of a task in Redis. -/
def Op.WritesKey (id : String) : Op Raw → Prop
  | .setStatus other _ => other = id
  | .setTaskMeta task => task.id = id
  | _ => False

/-- The step writes a key of the task, or tries to. -/
def WritesKey (id : String) (e : PipelineStep Raw ι) : Prop :=
  ∃ i op, e.label = .act i op ∧ op.WritesKey id

/-- The gateway has cached the `PENDING` copy of the task. -/
def CachesPending (id : String) (e : PipelineStep Raw ι) : Prop :=
  ByGateway e ∧ ∃ i task, e.label = .act i (.setTaskMeta task) ∧ task.id = id ∧
    task.status = .pending ∧ e.pre.world.fails .setTaskMeta = false

/-- The gateway has written the `PENDING` status of the task. -/
def MarksPending (id : String) (e : PipelineStep Raw ι) : Prop :=
  ByGateway e ∧ ∃ i, e.label = .act i (.setStatus id .pending) ∧
    e.pre.world.fails .setStatus = false

/-- Both writes of the gateway were made. -/
structure Opened (x : List (PipelineStep Raw ι)) (id : String) : Prop where
  cached : ∃ e ∈ x, CachesPending id e
  marked : ∃ e ∈ x, MarksPending id e

theorem Opened.mono (opened : Opened x id) : Opened (x ++ y) id := by
  obtain ⟨⟨a, before, cached⟩, b, before', marked⟩ := opened
  exact ⟨⟨a, List.mem_append_left _ before, cached⟩, b, List.mem_append_left _ before', marked⟩

/-- What a submission has written so far. -/
def Backed (x : List (PipelineStep Raw ι)) : Submission.Progress → Prop
  | .none => True
  | .named _ => True
  | .cached id => ∃ e ∈ x, CachesPending id e
  | .marked id => Opened x id

theorem Backed.mono {p : Submission.Progress} (backed : Backed x p) : Backed (x ++ y) p := by
  cases p with
  | none => trivial
  | named id => trivial
  | cached id =>
      obtain ⟨a, before, cached⟩ := backed
      exact ⟨a, List.mem_append_left _ before, cached⟩
  | marked id => exact Opened.mono backed

/-- The calls that write the first status of a task. -/
def Op.Opens (id : String) : Op Raw → Prop
  | .setStatus other status => other = id ∧ status = .pending
  | .setTaskMeta task => task.id = id ∧ task.status = .pending
  | _ => False

theorem Op.WritesKey.writes {op : Op Raw} (writes : op.WritesKey id) : op.Writes id := by
  cases op with
  | setStatus other status => exact writes
  | setTaskMeta task => exact writes
  | _ => exact writes.elim

/-- A call of a submission on a key is a first write. -/
theorem Submission.Advance.opens {before after : Submission.Progress} {op : Op Raw}
    {answer : op.Ans} (advance : Submission.Advance json before op answer after)
    (writes : op.WritesKey id) : op.Opens id := by
  cases advance with
  | cache new => exact ⟨writes, new.pending⟩
  | cacheFails err new => exact ⟨writes, new.pending⟩
  | mark other => exact ⟨writes, rfl⟩
  | markFails other err => exact ⟨writes, rfl⟩
  | _ => exact writes.elim

/-- After a call of a submission, the calls so far back its new progress. -/
theorem Submission.Advance.backed {i : ι} {r : Submission} {rest : Service Raw (Option Error)}
    {before after : Submission.Progress} {op : Op Raw}
    (advance : Submission.Advance json before op (perform op e.pre.world).1 after)
    (label : e.label = .act i op) (here : e.pre.threads i = some ⟨.submit r, rest⟩)
    (backed : Backed x before) : Backed (x ++ [e]) after := by
  have gateway : ByGateway e := ⟨i, op, r, rest, label, here⟩
  have last : e ∈ x ++ [e] := List.mem_append_right _ (List.mem_singleton_self _)
  generalize got : (perform op e.pre.world).1 = answer at advance
  cases advance with
  | @cache task new =>
      exact ⟨e, last, gateway, i, task, label, rfl, new.pending, perform_setTaskMeta_ok.mp got⟩
  | mark id =>
      obtain ⟨a, before, cached⟩ := backed
      exact ⟨⟨a, List.mem_append_left _ before, cached⟩, e, last, gateway, i, label,
        perform_setStatus_ok.mp got⟩
  | create answer new => exact Opened.mono backed
  | _ => trivial

section Runs

variable [DecidableEq ι]

/-! ## What a step does to the copies -/

/-- The cached copy, if there is one, has a terminal status. -/
def World.CopyClosed (w : World Raw) (id : String) : Prop :=
  ∀ copy, w.redis.metas id = some copy → copy.status.isTerminal = true

/-- The cached copy is there and has a terminal status. -/
def World.CopyTerminal (w : World Raw) (id : String) : Prop :=
  ∃ copy, w.redis.metas id = some copy ∧ copy.status.isTerminal = true

/-- A new copy is that of the submission that holds the task, and not terminal, or that
of a consumer of a message of the task, and terminal. -/
theorem Happens.copy {l : Label (Op Raw) ι (Job Raw)} (happens : Happens json s l t)
    {copy : Task} (cached : t.world.redis.metas id = some copy) :
    s.world.redis.metas id = some copy ∨
    ((∃ i, (custody s).held i = some id) ∧ copy.status = .pending) ∨
    (∃ i n c rest task, s.threads i = some ⟨.consume n c, rest⟩ ∧
      json.unmarshal c.message.value = some task ∧ task.id = id) ∧
      copy.status.isTerminal = true := by
  cases happens with
  | start idle delivered => exact .inl cached
  | stop running => exact .inl cached
  | drifts moved => exact .inl (moved.metas cached)
  | @submits i r op next here advance =>
      rcases perform_copy op s.world id with same | ⟨task, rfl, named, written⟩
      · exact .inl (same ▸ cached)
      · have holds : (custody s).held i = some id :=
          (custody_held here).trans (advance.writes named)
        cases Option.some.inj (cached.symm.trans written)
        exact .inr (.inl ⟨⟨i, holds⟩, advance.caches.pending⟩)
  | @consumes i n c op next here consumes =>
      rcases perform_copy op s.world id with same | ⟨task, rfl, named, written⟩
      · exact .inl (same ▸ cached)
      · cases Option.some.inj (cached.symm.trans written)
        obtain ⟨task, decodes, same, terminal⟩ := consumes
        exact .inr (.inr ⟨⟨i, n, c, _, task, here, decodes, same.trans named⟩, terminal⟩)

/-- A new row is that of a submission, and another status in it is terminal. -/
theorem Happens.row {l : Label (Op Raw) ι (Job Raw)} (happens : Happens json s l t)
    (id : String) :
    t.world.db.tasks id = s.world.db.tasks id ∨
    (∃ task, Submission.New task ∧ s.world.db.tasks id = none ∧
      t.world.db.tasks id = some { task with completedAt := none }) ∨
    ∃ row status now, status.isTerminal = true ∧ s.world.db.tasks id = some row ∧
      t.world.db.tasks id = some (row.withStatus status now) := by
  cases happens with
  | start idle delivered => exact .inl rfl
  | stop running => exact .inl rfl
  | drifts moved => exact .inl (by rw [moved.db])
  | @submits i r op next here advance =>
      rcases perform_row op s.world id with same | ⟨task, rfl, free, inserted⟩ |
        ⟨other, status, row, now, rfl, _, _⟩
      · exact .inl same
      · exact .inr (.inl ⟨task, advance.creates, free, inserted⟩)
      · cases advance
  | @consumes i n c op next here consumes =>
      rcases perform_row op s.world id with same | ⟨task, rfl, _, _⟩ |
        ⟨other, status, row, now, rfl, held, updated⟩
      · exact .inl same
      · exact consumes.elim
      · exact .inr (.inr ⟨row, status, now, consumes.1, held, updated⟩)

/-! ## Causality -/

/-- The calls so far back what every submission claims to have written; a message of a
task is in the log, and a terminal copy of it in the cache, only when its submission is
over. -/
structure Causal (json : Json Raw) (x : List (PipelineStep Raw ι)) (s : PipelinePool Raw ι) :
    Prop where
  shaped : WellShaped json s
  sound : (custody s).Sound
  backed : ∀ i thread, s.threads i = some thread →
    Backed x (thread.request.progress thread.rest)
  logged : ∀ r ∈ s.world.kafka, ∀ task, json.unmarshal r.message.value = some task →
    Opened x task.id ∧ (custody s).Spent task.id
  taken : Taken s
  closed : ∀ id, s.world.CopyTerminal id → (custody s).Spent id

omit [DecidableEq ι] in
/-- A consumer works on tasks whose submission is over. -/
theorem Causal.consumed (causal : Causal json x s) {i : ι} {n : Nat} {c : Consume Raw}
    {rest : Service Raw (Option Error)} {task : Task}
    (running : s.threads i = some ⟨.consume n c, rest⟩)
    (decodes : json.unmarshal c.message.value = some task) :
    Opened x task.id ∧ (custody s).Spent task.id := by
  obtain ⟨r, member, same⟩ := causal.taken i n c rest running
  exact causal.logged r member task (by rw [same, decodes])

/-- A record that is new in the log is of a task whose submission is then over. -/
theorem Causal.publishes {l : Label (Op Raw) ι (Job Raw)} (causal : Causal json x s)
    (happens : Happens json s l t) {r : Record Raw} {task : Task} (listed : r ∈ t.world.kafka)
    (fresh : r ∉ s.world.kafka) (decodes : json.unmarshal r.message.value = some task) :
    Opened x task.id ∧ (custody t).Spent task.id := by
  cases happens with
  | start idle delivered => exact absurd listed fresh
  | stop running => exact absurd listed fresh
  | drifts moved =>
      have same := moved.kafka
      exact absurd (same ▸ listed) fresh
  | @submits i sub op next here advance =>
      obtain rfl := (perform_record listed).resolve_left fresh
      obtain ⟨⟨n, drawn⟩, kept⟩ := custody_submits here advance nofun
      obtain ⟨_, _, _, marshalled, before, after⟩ := advance.publishes
      rw [marshalled, json.unmarshal_marshal] at decodes
      cases decodes
      have backed : Backed x (.marked task.id) := before ▸ causal.backed i _ here
      have held : (custody s).held i = some task.id :=
        (custody_held here).trans (congrArg Submission.Progress.id before)
      have lost : (custody (s.act perform i (.submit sub) _ next)).held i = none :=
        custody_act.trans (congrArg Submission.Progress.id after)
      exact ⟨backed, .of_lost causal.sound held drawn kept (by rw [lost]; exact nofun)⟩
  | @consumes i n c op next here consumes =>
      obtain rfl := (perform_record listed).resolve_left fresh
      rw [consumes.1] at decodes
      obtain ⟨opened, spent⟩ := causal.consumed here decodes
      exact ⟨opened, spent.step (custody_step (.consumes here consumes))⟩

theorem Causal.step (step : (pipeline ι json).Step e.pre e.label e.post)
    (causal : Causal json x e.pre) : Causal json (x ++ [e]) e.post := by
  have happens := pipeline_step step causal.shaped
  have custodyStep := custody_step happens
  refine ⟨causal.shaped.step step, causal.sound.step custodyStep, ?_, ?_,
    causal.taken.step step, ?_⟩
  · intro i thread running
    rcases step.threads_cases running with ⟨before, _⟩ | ⟨job, _, _, _, rfl⟩ |
      ⟨op, next, label, before, rest, _⟩
    · exact (causal.backed i thread before).mono
    · exact (congrArg (Backed (x ++ [e])) job.progress_body).mpr trivial
    · rw [rest]
      cases job : thread.request with
      | consume n c => trivial
      | submit r =>
          rw [job] at before
          exact ((causal.shaped i _ before).advance _).2.backed label before
            (causal.backed i _ before)
  · intro r member task decodes
    by_cases before : r ∈ e.pre.world.kafka
    · obtain ⟨opened, spent⟩ := causal.logged r before task decodes
      exact ⟨opened.mono, spent.step custodyStep⟩
    · obtain ⟨opened, spent⟩ := causal.publishes happens member before decodes
      exact ⟨opened.mono, spent⟩
  · rintro id ⟨copy, cached, terminal⟩
    rcases happens.copy cached with before | ⟨_, pending⟩ | ⟨⟨i, n, c, rest, task, here, decodes,
      rfl⟩, _⟩
    · exact (causal.closed id ⟨copy, before, terminal⟩).step custodyStep
    · rw [pending] at terminal
      cases terminal
    · exact (causal.consumed here decodes).2.step custodyStep

/-! ## The copies move forward -/

/-- The gateway writes `PENDING` to the keys of the task and nothing else, it has written
both before anyone else writes, and does not write afterwards. -/
structure GatewayFirst (h : List (PipelineStep Raw ι)) (id : String) : Prop where
  pending : ∀ e ∈ h, ByGateway e → WritesKey id e →
    ∃ i op, e.label = .act i op ∧ op.Opens id
  first : ∀ x e y, h = x ++ e :: y → WritesKey id e → ¬ ByGateway e →
    Opened x id ∧ ∀ e' ∈ y, WritesKey id e' → ¬ ByGateway e'

/-- The row of the task has a terminal status. -/
def World.RowTerminal (w : World Raw) (id : String) : Prop :=
  ∃ row, w.db.tasks id = some row ∧ row.status.isTerminal = true

/-- The row of the task, if there is one, has a completion time exactly when its status is
terminal. -/
def World.RowDated (w : World Raw) (id : String) : Prop :=
  ∀ row, w.db.tasks id = some row → (row.completedAt.isSome ↔ row.status.isTerminal = true)

/-- What the copies of a task do in a run through `h` to `t`. -/
structure MovesForward (h : List (PipelineStep Raw ι)) (t : PipelinePool Raw ι) (id : String) :
    Prop where
  opened : GatewayFirst h id
  copy : ∀ x e y, h = x ++ e :: y → e.pre.world.CopyTerminal id →
    (∀ e' ∈ y, e'.pre.world.CopyClosed id) ∧ t.world.CopyClosed id
  row : ∀ x e y, h = x ++ e :: y → e.pre.world.RowTerminal id →
    (∀ e' ∈ y, e'.pre.world.RowTerminal id) ∧ t.world.RowTerminal id
  dated : (∀ e ∈ h, e.pre.world.RowDated id) ∧ t.world.RowDated id

/-- The gateway is done with an identifier that is spent. -/
theorem Happens.not_gateway {i : ι} {op : Op Raw} {r : Submission}
    {rest : Service Raw (Option Error)} (happens : Happens json s (.act i op) t)
    (writes : op.WritesKey id) (spent : (custody s).Spent id) :
    s.threads i ≠ some ⟨.submit r, rest⟩ := by
  intro running
  cases happens with
  | consumes here consumes =>
      rw [here] at running
      cases running
  | submits here advance =>
      exact spent.free i ((custody_held here).trans (advance.writes writes.writes))

/-- A write to the keys by anyone else comes when the gateway is done with the task. -/
theorem Causal.first {i : ι} {op : Op Raw} (causal : Causal json x s)
    (happens : Happens json s (.act i op) t) (writes : op.WritesKey id)
    (other : ∀ r rest, s.threads i ≠ some ⟨.submit r, rest⟩) :
    Opened x id ∧ (custody s).Spent id := by
  cases happens with
  | submits here advance => exact absurd here (other _ _)
  | consumes here consumes =>
      obtain ⟨task, decodes, rfl⟩ := consumes.writes writes.writes
      exact causal.consumed here decodes

variable {w : World Raw}

theorem causal_run (empty : w.Empty) (distinct : Function.Injective w.script.uuid)
    (run : Trace (pipeline ι json).Step ⟨w, fun _ => none⟩ h t) : Causal json h t := by
  refine run.history (I := Causal json) ?_ fun x e y _ => Causal.step
  refine ⟨wellShaped_idle, ⟨distinct, fun _ _ => nofun, fun _ _ _ => nofun⟩, fun _ _ => nofun,
    ?_, fun _ _ _ _ => nofun, ?_⟩
  · intro r member
    rw [empty.kafka] at member
    cases member
  · rintro id ⟨copy, cached, _⟩
    rw [empty.metas id] at cached
    cases cached

/-- A step keeps the keys of a task closed once its submission is over. -/
theorem closed_step {l : Label (Op Raw) ι (Job Raw)} (step : (pipeline ι json).Step s l t)
    (before : WellShaped json s ∧ (custody s).Spent id ∧ s.world.CopyClosed id) :
    WellShaped json t ∧ (custody t).Spent id ∧ t.world.CopyClosed id := by
  obtain ⟨shaped, spent, closed⟩ := before
  have happens := pipeline_step step shaped
  refine ⟨shaped.step step, spent.step (custody_step happens), fun copy cached => ?_⟩
  rcases happens.copy cached with before | ⟨⟨i, held⟩, _⟩ | ⟨_, terminal⟩
  · exact closed copy before
  · exact absurd held (spent.free i)
  · exact terminal

theorem rowTerminal_step {l : Label (Op Raw) ι (Job Raw)} (step : (pipeline ι json).Step s l t)
    (before : WellShaped json s ∧ s.world.RowTerminal id) :
    WellShaped json t ∧ t.world.RowTerminal id := by
  obtain ⟨shaped, row, held, terminal⟩ := before
  refine ⟨shaped.step step, ?_⟩
  rcases (pipeline_step step shaped).row id with same | ⟨_, _, free, _⟩ |
    ⟨_, status, now, closing, _, updated⟩
  · exact ⟨row, same.trans held, terminal⟩
  · rw [held] at free
    cases free
  · exact ⟨_, updated, closing⟩

theorem rowDated_step {l : Label (Op Raw) ι (Job Raw)} (step : (pipeline ι json).Step s l t)
    (before : WellShaped json s ∧ s.world.RowDated id) :
    WellShaped json t ∧ t.world.RowDated id := by
  obtain ⟨shaped, dated⟩ := before
  refine ⟨shaped.step step, fun row held => ?_⟩
  rcases (pipeline_step step shaped).row id with same | ⟨task, new, _, inserted⟩ |
    ⟨old, status, now, closing, _, updated⟩
  · exact dated row (same ▸ held)
  · cases Option.some.inj (held.symm.trans inserted)
    simp [new.pending, Status.isTerminal]
  · cases Option.some.inj (held.symm.trans updated)
    simp [Task.withStatus, closing]

theorem gatewayFirst_run (empty : w.Empty) (distinct : Function.Injective w.script.uuid)
    (run : Trace (pipeline ι json).Step ⟨w, fun _ => none⟩ h t) (id : String) :
    GatewayFirst h id := by
  have steps : ∀ x e y, h = x ++ e :: y → Causal json x e.pre ∧
      Happens json e.pre e.label e.post := by
    rintro x e y rfl
    have causal := causal_run empty distinct run.split_cons.1
    exact ⟨causal, pipeline_step run.split_cons.2.1 causal.shaped⟩
  constructor
  · rintro e member ⟨i, op, r, rest, label, running⟩ ⟨j, op', label', writes⟩
    cases label.symm.trans label'
    obtain ⟨x, y, split⟩ := List.append_of_mem member
    obtain ⟨_, happens⟩ := steps x e y split
    rw [label] at happens
    refine ⟨i, op, label, ?_⟩
    generalize e.post = t' at happens
    cases happens with
    | submits here advance => exact advance.opens writes
    | consumes here consumes =>
        rw [running] at here
        cases here
  · rintro x e y split ⟨i, op, label, writes⟩ notGateway
    obtain ⟨causal, happens⟩ := steps x e y split
    rw [label] at happens
    obtain ⟨opened, spent⟩ := causal.first happens writes
      fun r rest running => notGateway ⟨i, op, r, rest, label, running⟩
    refine ⟨opened, ?_⟩
    rintro e' later ⟨j, op', label', writes'⟩ ⟨k, op'', r, rest, label'', running⟩
    cases label'.symm.trans label''
    subst split
    obtain ⟨shaped, still⟩ := (run.onwards
      (I := fun s => WellShaped json s ∧ (custody s).Spent id) ⟨causal.shaped, spent⟩
      fun a l b step before => ⟨before.1.step step,
        before.2.step (custody_step (pipeline_step step before.1))⟩).1 e' later
    have happens' := pipeline_step
      (run.taken (List.mem_append_right _ (List.mem_cons_of_mem _ later))) shaped
    rw [label'] at happens'
    exact happens'.not_gateway writes' still running

/-- **The durable copies only move forward.**  In every run from an empty deployment,
under any faults, crashes and redeliveries, the `PENDING` writes of the gateway come
before all others for the task, a terminal copy in the cache gives way to terminal ones
only, a row keeps a terminal status, and has a completion time exactly then. -/
theorem copies_move_forward (json : Json Raw) (w : World Raw) (empty : w.Empty)
    (distinct : Function.Injective w.script.uuid)
    (run : Trace (pipeline ι json).Step ⟨w, fun _ => none⟩ h t) (id : String) :
    MovesForward h t id := by
  refine ⟨gatewayFirst_run empty distinct run id, ?_, ?_, ?_⟩
  · rintro x e y rfl ⟨copy, cached, terminal⟩
    have causal := causal_run empty distinct run.split_cons.1
    have closed : e.pre.world.CopyClosed id := by
      intro copy' cached'
      cases Option.some.inj (cached'.symm.trans cached)
      exact terminal
    obtain ⟨later, last⟩ := run.onwards
      ⟨causal.shaped, causal.closed id ⟨copy, cached, terminal⟩, closed⟩ fun _ _ _ => closed_step
    exact ⟨fun e' member => (later e' member).2.2, last.2.2⟩
  · rintro x e y rfl terminal
    have causal := causal_run empty distinct run.split_cons.1
    obtain ⟨later, last⟩ := run.onwards ⟨causal.shaped, terminal⟩ fun _ _ _ => rowTerminal_step
    exact ⟨fun e' member => (later e' member).2, last.2⟩
  · have start : w.RowDated id := by
      intro row held
      rw [empty.tasks id] at held
      cases held
    have idle : WellShaped json (⟨w, fun _ => none⟩ : PipelinePool Raw ι) ∧ w.RowDated id :=
      ⟨wellShaped_idle, start⟩
    have steps : ∀ e ∈ h, (pipeline ι json).Step e.pre e.label e.post →
        WellShaped json e.pre ∧ e.pre.world.RowDated id →
        WellShaped json e.post ∧ e.post.world.RowDated id := fun _ _ => rowDated_step
    exact ⟨fun e member => (run.invariant_pre (I := fun s => WellShaped json s ∧
        s.world.RowDated id) idle steps e member).2,
      (run.invariant (I := fun s => WellShaped json s ∧ s.world.RowDated id) idle steps).2⟩

end Runs

/-- A worker makes `calls` calls for the message of the first email, in slot `true`. -/
def takeEmail (calls : Nat) : List (Move (World Task) Bool (Job Task)) :=
  .start true (.consume 1 (.process (emailWorker 3)
      (workerMessage plainJson (firstTask ⟨"email", [123, 125], 1, 0⟩)))) ::
    List.replicate calls (.act true) ++ [.stop true]

/-- An email is submitted, routed, handled, and delivered again. -/
def emailTwice : List (Move (World Task) Bool (Job Task)) :=
  submitAndRoute ⟨"email", [123, 125], 1, 0⟩ ++ takeEmail 13 ++ takeEmail 1

theorem copies_move_forward_email :
    ((pipeline Bool plainJson).final (undeployed .calm) emailTwice).world.RowTerminal "x" ∧
      MovesForward ((pipeline Bool plainJson).play (undeployed .calm) emailTwice)
        ((pipeline Bool plainJson).final (undeployed .calm) emailTwice) "x" := by
  have admitted : ∀ e ∈ (pipeline Bool plainJson).play (undeployed .calm) emailTwice,
      (pipeline Bool plainJson).Admitted e := by decide
  have run := System.play_trace admitted
    (by simp [emailTwice, takeEmail, submitAndRoute])
  have closed : ((pipeline Bool plainJson).final (undeployed .calm)
      emailTwice).world.db.tasks "x" =
        some { firstTask ⟨"email", [123, 125], 1, 0⟩ with
          status := .done, updatedAt := 4, completedAt := some 4 } := by decide
  exact ⟨⟨_, closed, rfl⟩, copies_move_forward plainJson _ (undeployed_empty .calm)
    countedIDs_injective run "x"⟩

end TaskFlow
