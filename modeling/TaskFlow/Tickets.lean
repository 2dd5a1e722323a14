import TaskFlow.PipelinePool

/-!
# One ticket for each task

Each message is delivered once.  Then the right to act for a task is in one place at a
time: with the submission that drew its identifier, in the record it published, with the
dispatcher that was handed that record, in the record it sent on, with the worker that
was handed that one.  A dispatcher gives the ticket up when it sends the message on, a
worker when it writes a terminal status (`Consume.body_once`).  `tickets_step` shows that
every step of the pipeline only passes tickets on, so each has one holder.
-/

namespace TaskFlow

open Effect

variable {Raw ι : Type} {json : Json Raw}

/-! ## When a consumer gives its ticket up -/

namespace Consume

/-- The calls for which a consumer needs the ticket of its task: a dispatcher to send the
message on, a worker to write the status. -/
def Needs (c : Consume Raw) : Op Raw → Prop
  | .publish topic _ _ _ => c.routes = true ∧ topic ≠ topicDLQ
  | .setStatus _ _ => c.routes = false
  | _ => False

/-- The last of them. -/
def Last (c : Consume Raw) : Op Raw → Prop
  | .publish topic _ _ _ => c.routes = true ∧ topic ≠ topicDLQ
  | .setStatus _ status => c.routes = false ∧ status.isTerminal = true
  | _ => False

theorem topic_ne (c : Consume Raw) : c.topic ≠ topicDLQ := by
  cases c with
  | route d msg => exact show topicPending ≠ topicDLQ by decide
  | process w msg => exact (workerTopic_ne w.workerType).2

end Consume

theorem Dispatcher.route_once (d : Dispatcher) (json : Json Raw) (msg : Message Raw) :
    Prog.Once (Consume.route d msg).Last (fun op => ¬ (Consume.route d msg).Needs op)
      (d.route json msg) := by
  have reject : Prog.All (fun op => ¬ (Consume.route d msg).Needs op) (reject msg) :=
    ⟨id, fun _ => ⟨fun sends => sends.2 rfl, fun _ => trivial⟩⟩
  have forward : ∀ task, Prog.Once (Consume.route d msg).Last
      (fun op => ¬ (Consume.route d msg).Needs op) (forward msg task) := by
    intro task
    refine Prog.Once.call fun answer => ?_
    cases answer with
    | some err => trivial
    | none => exact ⟨nofun, fun _ => ⟨id, fun _ => trivial⟩⟩
  unfold route
  split
  · exact .of_all reject
  · rename_i task decodes
    split
    · exact .of_all reject
    · split
      · refine ⟨False.elim, fun allowed => ?_⟩
        rcases allowed with err | (_ | _)
        · exact forward task
        · exact .of_all ⟨id, fun _ => ⟨id, fun _ => ⟨fun sends => sends.2 rfl, fun _ => trivial⟩⟩⟩
        · exact forward task
      · exact forward task

namespace Worker

variable (w : Worker) (msg : Message Raw)

theorem settle_once (task : Task) (durationMs : Int) (execErr : Option Error) :
    Prog.Once (Consume.process w msg).Last (fun op => ¬ (Consume.process w msg).Needs op)
      (w.settle msg.value task durationMs execErr) := by
  have record : ∀ task error now, Prog.Once (Consume.process w msg).Last
      (fun op => ¬ (Consume.process w msg).Needs op)
      (w.record task durationMs error now : Service Raw Unit) := by
    intro task error now
    exact Prog.Once.call fun _ => ⟨id, fun _ => ⟨id, fun _ => ⟨id, fun _ => trivial⟩⟩⟩
  cases execErr with
  | none =>
      rw [settle, finishSuccess_eq]
      refine ⟨False.elim, fun now => Prog.Once.bind (record _ _ now) fun _ => ?_⟩
      exact ⟨id, fun _ => trivial⟩
  | some err =>
      rw [settle, finishFailure_eq]
      refine ⟨False.elim, fun now => Prog.Once.bind (record _ _ now) fun _ => ?_⟩
      exact ⟨fun last => Bool.false_ne_true last.1,
        fun _ => ⟨id, fun _ => ⟨id, fun _ => trivial⟩⟩⟩

theorem processMessage_once (json : Json Raw) :
    Prog.Once (Consume.process w msg).Last (fun op => ¬ (Consume.process w msg).Needs op)
      (w.processMessage json msg) := by
  unfold processMessage
  split
  · trivial
  · rename_i task decodes
    rw [processTask_eq]
    refine ⟨False.elim, fun status => ?_⟩
    dsimp only
    split
    · trivial
    · unfold processNew
      split
      · exact Prog.Once.call fun _ => ⟨nofun, fun _ => ⟨id, fun _ => trivial⟩⟩
      · rename_i h found
        rw [execute_eq]
        refine ⟨fun last => absurd last.2 (by decide), fun answer => ?_⟩
        cases answer with
        | some err => trivial
        | none =>
            rw [afterRunning_none]
            refine ⟨False.elim, fun _ => ⟨False.elim, fun start => ?_⟩⟩
            refine Prog.Once.bind_of_none (attemptsFrom_all.mono fun op attempt last => ?_)
              fun result => ?_
            · cases op with
              | setStatus id status =>
                  rw [attempt.2] at last
                  cases last.2
              | publish _ _ _ _ => exact attempt
              | _ => exact last
            · obtain ⟨execErr, attempts⟩ := result
              rw [finish_eq]
              refine ⟨False.elim, fun stop => Prog.Once.bind (w.settle_once msg _ _ execErr) ?_⟩
              exact fun _ => ⟨id, fun _ => trivial⟩

end Worker

theorem Consume.body_once (json : Json Raw) (c : Consume Raw) :
    Prog.Once c.Last (fun op => ¬ c.Needs op) (c.body json) := by
  cases c with
  | route d msg => exact d.route_once json msg
  | process w msg => exact w.processMessage_once msg json

/-! ## Who holds which ticket -/

/-- The ticket in a record: that of its task, unless the record is a dead letter. -/
def Record.ticket (json : Json Raw) (r : Record Raw) : Option String :=
  if r.message.topic = topicDLQ then none else (json.unmarshal r.message.value).map Task.id

open Classical in
/-- The ticket a call holds: a consumer has that of its task as long as it may make a
call it needs it for. -/
noncomputable def Job.ticket (json : Json Raw) (rest : Service Raw (Option Error)) :
    Job Raw → Option String
  | .submit _ => (Submission.progress rest).id
  | .consume _ c =>
      if Prog.All (fun op => ¬ c.Needs op) rest then none
      else (json.unmarshal c.message.value).map Task.id

/-- The offset a step hands to a consumer. -/
def hands (e : PipelineStep Raw ι) : Option Nat :=
  match e.label with
  | .start _ (.consume n _) => some n
  | _ => none

/-- The offsets that were handed to consumers, in order. -/
def handedOut (h : List (PipelineStep Raw ι)) : List Nat := h.filterMap hands

theorem handedOut_concat {x : List (PipelineStep Raw ι)} {e : PipelineStep Raw ι} :
    handedOut (x ++ [e]) = handedOut x ++ (hands e).toList := by
  unfold handedOut
  rw [List.filterMap_append]
  cases given : hands e <;> simp [given]

/-- In a run that hands out no record twice, a step hands out a new one. -/
theorem handedOut_fresh {out : List Nat} {x y : List (PipelineStep Raw ι)}
    {e : PipelineStep Raw ι} (once : (out ++ handedOut (x ++ e :: y)).Nodup) :
    ∀ n ∈ hands e, n ∉ out ++ handedOut x := by
  intro n given member
  rw [handedOut, List.filterMap_append, List.filterMap_cons_some given, ← List.append_assoc] at once
  exact (List.nodup_append.mp once).2.2 n member n List.mem_cons_self rfl

/-- The ticket in the record at an offset, unless it was handed out. -/
def unclaimed (json : Json Raw) (out : List Nat) (log : List (Record Raw)) (n : Nat) :
    Option String :=
  if n ∈ out then none else (log[n]?).bind (Record.ticket json)

/-- The identifiers to come, and the ticket in each slot and at each offset. -/
noncomputable def tickets (json : Json Raw) (out : List Nat) (s : PipelinePool Raw ι) :
    Custody String (ι ⊕ Nat) where
  supply := s.world.script.uuid
  held
    | .inl i => (s.threads i).bind fun thread => thread.request.ticket json thread.rest
    | .inr n => unclaimed json out s.world.kafka n

section Holders

variable {s : PipelinePool Raw ι} {out : List Nat} {i j : ι} {n : Nat} {id : String}
  {log : List (Record Raw)} {r : Record Raw}

theorem ticket_topic (carries : r.ticket json = some id) : r.message.topic ≠ topicDLQ := by
  intro dead
  rw [Record.ticket, if_pos dead] at carries
  cases carries

/-- What a consumer holds after a call, it held before. -/
theorem Job.ticket_answer {c : Consume Raw} {op : Op Raw}
    {next : op.Ans → Service Raw (Option Error)} {answer : op.Ans}
    (holds : (Job.consume n c).ticket json (next answer) = some id) :
    (Job.consume n c).ticket json (.call op next) = some id := by
  dsimp only [Job.ticket] at holds ⊢
  split at holds
  · cases holds
  · rename_i needed
    rwa [if_neg fun all => needed (all.2 answer)]

/-- A consumer that makes a call it needs the ticket for holds it. -/
theorem Job.ticket_needs {c : Consume Raw} {op : Op Raw}
    {next : op.Ans → Service Raw (Option Error)} (needs : c.Needs op) :
    (Job.consume n c).ticket json (.call op next) =
      (json.unmarshal c.message.value).map Task.id :=
  if_neg fun all => all.1 needs

theorem Job.ticket_last {c : Consume Raw} {op : Op Raw}
    {next : op.Ans → Service Raw (Option Error)} {answer : op.Ans}
    (once : Prog.Once c.Last (fun op => ¬ c.Needs op) (.call op next)) (last : c.Last op) :
    (Job.consume n c).ticket json (next answer) = none :=
  if_pos (once.1 last answer)

theorem Job.ticket_body {c : Consume Raw}
    (holds : (Job.consume n c).ticket json (c.body json) = some id) :
    (json.unmarshal c.message.value).map Task.id = some id := by
  dsimp only [Job.ticket] at holds
  split at holds
  · cases holds
  · exact holds

theorem unclaimed_mono {m : Nat} (carries : unclaimed json (out ++ [m]) log n = some id) :
    unclaimed json out log n = some id := by
  unfold unclaimed at carries ⊢
  split at carries
  · cases carries
  · rename_i still
    rwa [if_neg fun member => still (List.mem_append_left _ member)]

theorem unclaimed_append_of_ne (ne : n ≠ log.length) :
    unclaimed json out (log ++ [r]) n = unclaimed json out log n := by
  unfold unclaimed
  congr 2
  rcases Nat.lt_or_gt_of_ne ne with below | above
  · exact List.getElem?_append_left below
  · rw [List.getElem?_eq_none (by simp; omega), List.getElem?_eq_none (by omega)]

theorem unclaimed_append_self (handed : ∀ n ∈ out, n < log.length) :
    unclaimed json out (log ++ [r]) log.length = r.ticket json := by
  unfold unclaimed
  rw [if_neg fun member => Nat.lt_irrefl _ (handed _ member), List.getElem?_concat_length]
  rfl

end Holders

section Steps

variable [DecidableEq ι] {s t : PipelinePool Raw ι} {out : List Nat} {i : ι}
  {l : Label (Op Raw) ι (Job Raw)}

omit [DecidableEq ι] in
theorem tickets_slot {thread : Thread (Op Raw) Op.Ans (Job Raw) (Option Error)}
    (running : s.threads i = some thread) :
    (tickets json out s).held (.inl i) = thread.request.ticket json thread.rest := by
  simp only [tickets, running, Option.bind_some]

theorem tickets_put_ne {j : ι} {out' : List Nat}
    {thread : Option (Thread (Op Raw) Op.Ans (Job Raw) (Option Error))} (ne : j ≠ i) :
    (tickets json out' (s.put i thread)).held (.inl j) = (tickets json out s).held (.inl j) := by
  simp only [tickets, Pool.put_ne _ ne]

theorem tickets_act_ne {j : ι} {job : Job Raw} {op : Op Raw}
    {next : op.Ans → Service Raw (Option Error)} (ne : j ≠ i) :
    (tickets json out (s.act perform i job op next)).held (.inl j) =
      (tickets json out s).held (.inl j) := by
  simp only [tickets, Pool.act_ne ne]

/-- A call that leaves the log alone gains no ticket when its slot does not. -/
theorem tickets_quiet {job : Job Raw} {op : Op Raw} {next : op.Ans → Service Raw (Option Error)}
    (here : s.threads i = some ⟨job, .call op next⟩)
    (same : (perform op s.world).2.kafka = s.world.kafka)
    (keeps : ∀ id, job.ticket json (next (perform op s.world).1) = some id →
      job.ticket json (.call op next) = some id) :
    (∃ n, Custody.Draws n (tickets json out s) (tickets json out (s.act perform i job op next))) ∧
      ∀ q k, (tickets json out (s.act perform i job op next)).held q = some k →
        (tickets json out s).held q = some k := by
  refine ⟨perform_uuid op s.world, fun q k held => ?_⟩
  cases q with
  | inr m => exact (congrArg (unclaimed json out · m) same).symm.trans held
  | inl j =>
      by_cases acting : j = i
      · rw [acting, tickets_slot Pool.act_self] at held
        rw [acting, tickets_slot here]
        exact keeps k held
      · rwa [tickets_act_ne acting] at held

/-- A call passes the ticket of its slot on, at most. -/
theorem tickets_act {job : Job Raw} {op : Op Raw} {next : op.Ans → Service Raw (Option Error)}
    (here : s.threads i = some ⟨job, .call op next⟩)
    (handed : ∀ n ∈ out, n < s.world.kafka.length)
    (keeps : ∀ id, job.ticket json (next (perform op s.world).1) = some id → op ≠ .newUUID →
      job.ticket json (.call op next) = some id)
    (draws : op = .newUUID →
      job.ticket json (next (perform op s.world).1) = some (s.world.script.uuid 0))
    (sends : ∀ topic key value origin id, op = .publish topic key value origin →
      Record.ticket json ⟨⟨topic, key, value⟩, origin⟩ = some id →
      job.ticket json (.call op next) = some id ∧
        job.ticket json (next (perform op s.world).1) = none) :
    Custody.Step (tickets json out s) (tickets json out (s.act perform i job op next)) := by
  have before : (tickets json out s).held (.inl i) = _ := tickets_slot here
  have after : (tickets json out (s.act perform i job op next)).held (.inl i) = _ :=
    tickets_slot Pool.act_self
  obtain ⟨n, drawn⟩ := perform_uuid op s.world
  by_cases uuid : op = .newUUID
  · subst uuid
    refine .draw (.inl i) (fun _ => rfl) (after.trans (draws rfl)) fun q k ne held => ?_
    cases q with
    | inl j => rwa [tickets_act_ne fun same => ne (congrArg Sum.inl same)] at held
    | inr m => exact held
  -- The slot keeps what it had, the other slots do not change.
  have slots : ∀ j k, (tickets json out (s.act perform i job op next)).held (.inl j) = some k →
      (tickets json out s).held (.inl j) = some k := by
    intro j k held
    by_cases same : j = i
    · rw [same, after] at held
      rw [same, before]
      exact keeps k held uuid
    · rwa [tickets_act_ne same] at held
  rcases perform_log op s.world with same | ⟨topic, key, value, origin, publishes, _, grown⟩
  · exact .lose n drawn (tickets_quiet here same fun id held => keeps id held uuid).2
  · have sends := fun id => sends topic key value origin id publishes
    generalize (⟨⟨topic, key, value⟩, origin⟩ : Record Raw) = r at grown sends
    have others : ∀ m k, m ≠ s.world.kafka.length →
        (tickets json out (s.act perform i job op next)).held (.inr m) = some k →
        (tickets json out s).held (.inr m) = some k := by
      intro m k ne held
      exact ((congrArg (unclaimed json out · m) grown).trans (unclaimed_append_of_ne ne)).symm.trans
        held
    have added : (tickets json out (s.act perform i job op next)).held (.inr s.world.kafka.length) =
        r.ticket json :=
      (congrArg (unclaimed json out · _) grown).trans (unclaimed_append_self handed)
    cases carries : r.ticket json with
    | none =>
        refine .lose n drawn fun q k held => ?_
        cases q with
        | inl j => exact slots j k held
        | inr m =>
            refine others m k (fun last => ?_) held
            rw [last, added, carries] at held
            cases held
    | some id =>
        obtain ⟨had, gone⟩ := sends id carries
        refine .pass n (.inl i) (.inr _) id drawn nofun (before.trans had) (after.trans gone)
          (added.trans carries) fun q k ne held => ?_
        cases q with
        | inl j => exact slots j k held
        | inr m => exact others m k (fun last => ne (congrArg Sum.inr last)) held

theorem tickets_submits {r : Submission} {op : Op Raw}
    {next : op.Ans → Service Raw (Option Error)}
    (here : s.threads i = some ⟨.submit r, .call op next⟩)
    (advance : Submission.Advance json (Submission.progress (.call op next)) op
      (perform op s.world).1 (Submission.progress (next (perform op s.world).1)))
    (handed : ∀ n ∈ out, n < s.world.kafka.length) :
    Custody.Step (tickets json out s) (tickets json out (s.act perform i (.submit r) op next)) := by
  refine tickets_act here handed (fun id held other => advance.keeps other held) ?_ ?_
  · rintro rfl
    exact congrArg Submission.Progress.id advance.drawn
  · rintro topic key value origin id rfl carries
    obtain ⟨task, _, rfl, rfl, before, after⟩ := advance.publishes
    refine ⟨(congrArg Submission.Progress.id before).trans ?_,
      congrArg Submission.Progress.id after⟩
    rw [Record.ticket, if_neg (by simp [topicPending, topicDLQ]), json.unmarshal_marshal] at carries
    exact carries

theorem tickets_consumes {n : Nat} {c : Consume Raw} {op : Op Raw}
    {next : op.Ans → Service Raw (Option Error)}
    (here : s.threads i = some ⟨.consume n c, .call op next⟩) (consumes : op.Consumes json c)
    (once : Prog.Once c.Last (fun op => ¬ c.Needs op) (.call op next))
    (handed : ∀ n ∈ out, n < s.world.kafka.length) :
    Custody.Step (tickets json out s)
      (tickets json out (s.act perform i (.consume n c) op next)) := by
  refine tickets_act here handed (fun id held _ => Job.ticket_answer held) ?_ ?_
  · rintro rfl
    exact consumes.elim
  · rintro topic key value origin id rfl carries
    have kept := ticket_topic carries
    have routes : c.routes = true := by
      by_contra works
      exact kept (consumes.2 (Bool.not_eq_true _ ▸ works))
    refine ⟨?_, Job.ticket_last once ⟨routes, kept⟩⟩
    rw [Job.ticket_needs (show c.Needs (.publish topic key value origin) from ⟨routes, kept⟩),
      ← consumes.1]
    rwa [Record.ticket, if_neg kept] at carries

omit [DecidableEq ι] in
/-- A record that was not handed out has the ticket of its task. -/
theorem tickets_delivered {n : Nat} {c : Consume Raw}
    (delivered : (Job.consume n c).Delivered s.world.kafka) (fresh : n ∉ out) :
    (tickets json out s).held (.inr n) = (json.unmarshal c.message.value).map Task.id := by
  obtain ⟨⟨r, found, same⟩, topic⟩ := delivered.imp_left Option.map_eq_some_iff.mp
  have live : c.message.topic ≠ topicDLQ := by
    rw [topic]
    exact c.topic_ne
  simp only [tickets, unclaimed, if_neg fresh, found, Option.bind_some, Record.ticket, same,
    if_neg live]

/-- A start of a consumer takes the ticket out of its record. -/
theorem tickets_start {n : Nat} {c : Consume Raw}
    (delivered : (Job.consume n c).Delivered s.world.kafka) (fresh : n ∉ out) :
    Custody.Step (tickets json out s)
      (tickets json (out ++ [n]) (s.put i (some ⟨.consume n c, c.body json⟩))) := by
  have after : (tickets json (out ++ [n]) (s.put i (some ⟨.consume n c, c.body json⟩))).held
      (.inl i) = _ := tickets_slot (Pool.put_self _)
  have record : (tickets json out s).held (.inr n) = _ := tickets_delivered delivered fresh
  have kept : Custody.KeepsBut (.inl i) (tickets json out s)
      (tickets json (out ++ [n]) (s.put i (some ⟨.consume n c, c.body json⟩))) := by
    intro q k ne held
    cases q with
    | inl j => rwa [tickets_put_ne fun same => ne (congrArg Sum.inl same)] at held
    | inr m => exact unclaimed_mono held
  cases holds : (Job.consume n c).ticket json (c.body json) with
  | none =>
      refine .lose 0 (fun _ => rfl) fun q k held => kept q k (fun slot => ?_) held
      rw [slot, after, holds] at held
      cases held
  | some id =>
      refine .pass 0 (.inr n) (.inl i) id (fun _ => rfl) nofun
        (record.trans (Job.ticket_body holds)) ?_ (after.trans holds) kept
      exact if_pos (by simp)

/-- When each record is handed out once, a step only passes tickets on. -/
theorem tickets_step (happens : Happens json s l t)
    (handed : ∀ n ∈ out, n < s.world.kafka.length) (fresh : ∀ n ∈ hands ⟨s, l, t⟩, n ∉ out)
    (once : ∀ i n c rest, s.threads i = some ⟨.consume n c, rest⟩ →
      Prog.Once c.Last (fun op => ¬ c.Needs op) rest) :
    Custody.Step (tickets json out s) (tickets json (out ++ (hands ⟨s, l, t⟩).toList) t) := by
  cases happens with
  | @start i job idle delivered =>
      cases job with
      | submit r =>
          simp only [hands, Option.toList_none, List.append_nil]
          refine .lose 0 (fun _ => rfl) fun q k held => ?_
          cases q with
          | inr m => exact held
          | inl j =>
              by_cases same : j = i
              · rw [same, tickets_slot (Pool.put_self _)] at held
                cases (congrArg Submission.Progress.id
                  (Submission.submitting_submit json r none).2).symm.trans held
              · rwa [tickets_put_ne same] at held
      | consume n c => exact tickets_start delivered (fresh n rfl)
  | submits here advance =>
      simp only [hands, Option.toList_none, List.append_nil]
      exact tickets_submits here advance handed
  | @consumes i n c op next here consumes =>
      simp only [hands, Option.toList_none, List.append_nil]
      exact tickets_consumes here consumes (once i n c _ here) handed
  | @stop i thread running =>
      simp only [hands, Option.toList_none, List.append_nil]
      refine .lose 0 (fun _ => rfl) fun q k held => ?_
      cases q with
      | inr m => exact held
      | inl j =>
          by_cases same : j = i
          · simp only [same, tickets, Pool.put_self, Option.bind_none] at held
            cases held
          · rwa [tickets_put_ne same] at held
  | drifts moved =>
      simp only [hands, Option.toList_none, List.append_nil]
      cases moved <;> exact .lose 0 (fun _ => rfl) fun _ _ held => held

/-! ## Runs that deliver each record once -/

/-- Each ticket has one holder, given the offsets handed out so far. -/
structure Ordered (json : Json Raw) (out : List Nat) (s : PipelinePool Raw ι) : Prop where
  shaped : WellShaped json s
  taken : Taken s
  typed : Typed json s
  handed : ∀ n ∈ out, n < s.world.kafka.length
  once : ∀ i n c rest, s.threads i = some ⟨.consume n c, rest⟩ →
    Prog.Once c.Last (fun op => ¬ c.Needs op) rest
  sound : (tickets json out s).Sound

theorem once_step (step : (pipeline ι json).Step s l t)
    (once : ∀ i n c rest, s.threads i = some ⟨.consume n c, rest⟩ →
      Prog.Once c.Last (fun op => ¬ c.Needs op) rest) :
    ∀ i n c rest, t.threads i = some ⟨.consume n c, rest⟩ →
      Prog.Once c.Last (fun op => ¬ c.Needs op) rest := by
  intro i n c rest running
  rcases step.threads_cases running with ⟨before, _⟩ | ⟨job, _, _, _, started⟩ |
    ⟨op, next, _, before, rest, _⟩
  · exact once i n c rest before
  · cases started
    exact c.body_once json
  · dsimp only at rest
    rw [rest]
    exact (once i n c _ before).2 _

theorem handed_step (step : (pipeline ι json).Step s l t)
    (handed : ∀ n ∈ out, n < s.world.kafka.length) :
    ∀ n ∈ out ++ (hands ⟨s, l, t⟩).toList, n < t.world.kafka.length := by
  have grows : s.world.kafka.length ≤ t.world.kafka.length :=
    step.world_invariant (I := fun w => s.world.kafka.length ≤ w.kafka.length)
      (fun op w before => Nat.le_trans before (perform_log_length op w))
      (fun _ _ moved before => World.Drift.kafka moved ▸ before) (Nat.le_refl _)
  intro n member
  rcases List.mem_append.mp member with before | now
  · exact Nat.lt_of_lt_of_le (handed n before) grows
  · cases step with
    | @start i job idle delivered =>
        cases job with
        | submit r => cases now
        | consume m c =>
            obtain ⟨r, found, _⟩ := Option.map_eq_some_iff.mp delivered.1
            cases List.mem_singleton.mp now
            exact (List.getElem?_eq_some_iff.mp found).1
    | act here => cases now
    | stop running => cases now
    | env moved => cases now

theorem Ordered.step (step : (pipeline ι json).Step s l t)
    (fresh : ∀ n ∈ hands ⟨s, l, t⟩, n ∉ out) (ordered : Ordered json out s) :
    Ordered json (out ++ (hands ⟨s, l, t⟩).toList) t := by
  have happens := pipeline_step step ordered.shaped
  exact ⟨ordered.shaped.step step, ordered.taken.step step,
    ordered.typed.step happens ordered.taken, handed_step step ordered.handed,
    once_step step ordered.once,
    ordered.sound.step (tickets_step happens ordered.handed fresh ordered.once)⟩

/-- Along a run that hands out no record twice the order is kept, and a ticket that is
gone stays so. -/
theorem Ordered.run {h : List (PipelineStep Raw ι)} (ordered : Ordered json out s)
    (run : Trace (pipeline ι json).Step s h t) (once : (out ++ handedOut h).Nodup) :
    Ordered json (out ++ handedOut h) t ∧ ∀ id, (tickets json out s).Spent id →
      (tickets json (out ++ handedOut h) t).Spent id := by
  refine run.history (I := fun x s' => Ordered json (out ++ handedOut x) s' ∧
    ∀ id, (tickets json out s).Spent id → (tickets json (out ++ handedOut x) s').Spent id) ?_ ?_
  · rw [show handedOut ([] : List (PipelineStep Raw ι)) = [] from rfl, List.append_nil]
    exact ⟨ordered, fun _ spent => spent⟩
  · rintro x e y rfl step ⟨before, kept⟩
    have fresh := handedOut_fresh once
    rw [handedOut_concat, ← List.append_assoc]
    refine ⟨before.step step fresh, fun id spent => (kept id spent).step ?_⟩
    exact tickets_step (pipeline_step step before.shaped) before.handed fresh before.once

omit [DecidableEq ι] in
theorem ordered_idle {w : World Raw} (empty : w.Empty)
    (distinct : Function.Injective w.script.uuid) :
    Ordered json [] (⟨w, fun _ => none⟩ : PipelinePool Raw ι) := by
  have nothing : ∀ p,
      (tickets json [] (⟨w, fun _ => none⟩ : PipelinePool Raw ι)).held p = none := by
    intro p
    cases p with
    | inl i => rfl
    | inr n => simp [tickets, unclaimed, empty.kafka]
  refine ⟨wellShaped_idle, fun _ _ _ _ => nofun, ?_, fun _ => nofun, fun _ _ _ _ => nofun,
    distinct, ?_, ?_⟩
  · intro r member
    rw [empty.kafka] at member
    cases member
  · intro p n held
    rw [nothing p] at held
    cases held
  · intro p q k held
    rw [nothing p] at held
    cases held

end Steps

end TaskFlow
