import TaskFlow.WorkerRun

/-!
# Tasks lost by the worker

`processMessage` returns nil, and its offset is committed, on three exits.  Its
bookkeeping ignores errors, so a nil return does not say that the task is
accounted for.

* `worker_accounts_iff`: under faults of any call, exactly when a nil return means
  that the task was terminal, succeeded, or went to the dead-letter queue.
* `shutdown_settles_iff`: with reliable infrastructure and a context cancelled at
  any instant, exactly when a nil return means that the task is settled.
-/

namespace TaskFlow

open Effect

variable {Raw : Type}

/-- A record is a copy of `value` in the dead-letter queue. -/
def Record.IsDeadLetter (value : Raw) (r : Record Raw) : Prop :=
  r.message.topic = topicDLQ ∧ r.message.value = value

instance [DecidableEq Raw] (value : Raw) (r : Record Raw) : Decidable (r.IsDeadLetter value) :=
  inferInstanceAs (Decidable (_ ∧ _))

namespace Worker

variable {w : Worker} {task : Task} {s : World Raw}

/-- The record the worker sends to the dead-letter queue. -/
def deadLetter (task : Task) (raw : Raw) : Record Raw := ⟨⟨topicDLQ, task.id, raw⟩, .worker⟩

theorem record_all (w : Worker) (task : Task) (durationMs : Int) (error : String) (now : Time) :
    Prog.All Op.Books (w.record task durationMs error now : Service Raw Unit) := by
  simp [record, Op.Books]

theorem finishSuccess_all (w : Worker) (task : Task) (durationMs : Int) :
    Prog.All Op.Books (w.finishSuccess task durationMs : Service Raw Unit) := by
  refine ⟨trivial, fun now => (record_all w _ durationMs "" now).bind fun _ => ?_⟩
  exact ⟨trivial, fun _ => trivial⟩

/-- The publish of `finishFailure` is the only call of it that reaches the log. -/
theorem finishFailure_run (w : Worker) (task : Task) (taskErr : Error) (durationMs : Int)
    (raw : Raw) (s : World Raw) :
    (Service.run (w.finishFailure task taskErr durationMs raw) s).2.handled = s.handled ∧
      (Service.run (w.finishFailure task taskErr durationMs raw) s).2.kafka =
        s.kafka ++ if s.fails .publish then [] else [deadLetter task raw] := by
  simp only [Service.run, finishFailure, ask, Prog.op_bind, Prog.run_call, Prog.run_bind,
    Prog.run_op]
  generalize (perform Op.now s).1 = now
  have dated := (World.SameLog.refl s).perform .now trivial
  have recorded := Service.run_sameLog
    (record_all w { task with status := .dead, updatedAt := now } durationMs taskErr.error now)
    (perform .now s).2
  rw [perform_handled (by simp), perform_handled (by simp), perform_handled (by simp),
    perform_kafka (by simp), perform_kafka (by simp), perform_publish_kafka]
  refine ⟨recorded.handled.trans dated.handled, ?_⟩
  rw [← dated.fails, ← dated.kafka, ← recorded.fails, ← recorded.kafka]
  rfl

/-- The log after the end of a call with a handler. -/
theorem finish_run (w : Worker) (msg : Message Raw) (task : Task) (start : Time)
    (result : Option Error × Nat) (s : World Raw) :
    (Service.run (w.finish msg task start result) s).1 = none ∧
      (Service.run (w.finish msg task start result) s).2.handled = s.handled ∧
      (Service.run (w.finish msg task start result) s).2.kafka = s.kafka ++
        if result.1.isNone || s.fails .publish then [] else [deadLetter task msg.value] := by
  obtain ⟨execErr, attempts⟩ := result
  simp only [Service.run, finish, ask, Prog.op_bind, Prog.run_call, Prog.run_bind,
    Prog.run_pure, true_and]
  rw [perform_handled (by simp), perform_kafka (by simp)]
  have dated := (World.SameLog.refl s).perform .now trivial
  cases execErr with
  | none =>
      have same := Service.run_sameLog
        (finishSuccess_all w { task with attempts := (attempts : Int) }
          (milliseconds (Time.sub (perform .now s).1 start))) (perform .now s).2
      rw [Option.isNone_none, Bool.true_or, if_pos rfl, List.append_nil]
      exact ⟨same.handled.trans dated.handled, same.kafka.trans dated.kafka⟩
  | some err =>
      obtain ⟨handled, kafka⟩ := finishFailure_run w { task with attempts := (attempts : Int) } err
        (milliseconds (Time.sub (perform .now s).1 start)) msg.value (perform .now s).2
      refine ⟨handled.trans dated.handled, kafka.trans ?_⟩
      rw [dated.kafka, dated.fails]
      rfl

theorem execute_nil (msg : Message Raw) (h : Handler) (up : s.fails .setStatus = false) :
    (Service.run (w.execute msg task h) s).1 = none := by
  obtain ⟨start, run⟩ := execute_run w msg task h up
  rw [run]
  exact (finish_run w msg task start _ _).1

theorem noHandler_run (w : Worker) (msg : Message Raw) (task : Task) (s : World Raw) :
    (Service.run (w.noHandler msg task) s).1 = none ∧
      (Service.run (w.noHandler msg task) s).2.handled = s.handled ∧
      (Service.run (w.noHandler msg task) s).2.kafka =
        s.kafka ++ if s.fails .publish then [] else [deadLetter task msg.value] := by
  simp only [Service.run, noHandler, ask, Prog.op_bind, Prog.run_call, Prog.run_pure, true_and]
  have marked := (World.SameLog.refl s).perform (.setStatus task.id .dead) trivial
  rw [perform_handled (by simp), perform_handled (by simp), perform_kafka (by simp),
    perform_publish_kafka, marked.kafka, marked.fails]
  exact ⟨marked.handled, rfl⟩

/-! ## Faults -/

/-- A call from `s` to `s'` accounts for its task: the status was terminal when it
began, an attempt of it returned nil, or a copy of the message went to the
dead-letter queue. -/
def Accounted (task : Task) (value : Raw) (s s' : World Raw) : Prop :=
  s.terminal task.id = true ∨
    (∃ attempt ∈ s'.handled.drop s.handled.length, attempt.2 = none) ∨
    ∃ r ∈ s'.kafka.drop s.kafka.length, r.IsDeadLetter value

theorem accounted_iff {value : Raw} {s' : World Raw} {attempts : List (Task × Option Error)}
    {lost : Bool} (fresh : s.terminal task.id = false)
    (handled : s'.handled = s.handled ++ attempts)
    (kafka : s'.kafka = s.kafka ++ if lost then [] else [deadLetter task value]) :
    Accounted task value s s' ↔ (∃ attempt ∈ attempts, attempt.2 = none) ∨ lost = false := by
  unfold Accounted
  rw [handled, kafka, List.drop_left, List.drop_left, fresh]
  cases lost with
  | true => simp
  | false => simp [Record.IsDeadLetter, deadLetter]

theorem accounts_noHandler_iff (msg : Message Raw) (fresh : s.terminal task.id = false)
    {s₁ : World Raw} (same : World.SameLog s s₁) :
    Accounted task msg.value s (Service.run (w.noHandler msg task) s₁).2 ↔
      s.fails .publish = false := by
  obtain ⟨_, handled, kafka⟩ := noHandler_run w msg task s₁
  rw [same.handled] at handled
  rw [same.kafka, same.fails] at kafka
  rw [accounted_iff fresh (handled.trans (List.append_nil _).symm) kafka]
  simp

theorem accounts_execute_iff (msg : Message Raw) (h : Handler)
    (fresh : s.terminal task.id = false) {s₁ : World Raw} (same : World.SameLog s s₁)
    (calm : s₁.Uncancelled) (up : s₁.fails .setStatus = false) :
    Accounted task msg.value s (Service.run (w.execute msg task h) s₁).2 ↔
      (∃ i < w.maxAttempts, s.script.outcome i = none) ∨ s.fails .publish = false := by
  obtain ⟨start, run⟩ := execute_run w msg task h up
  rw [run]
  have enter : World.SameLog s (w.entered task s₁) := same.trans (w.entered_sameLog task s₁)
  have live : (Service.run (w.execAttempts h task) (w.entered task s₁)).2.cancelled = false :=
    (Service.run_uncancelled (perform_uncancelled (perform_uncancelled
      (perform_uncancelled calm)))).live
  obtain ⟨k, ran, _, _⟩ := w.execAttempts_run h task (w.entered task s₁)
  obtain ⟨kafka, publish⟩ := w.execAttempts_kafka h task (w.entered task s₁)
  generalize Service.run (w.execAttempts h task) (w.entered task s₁) = looped at *
  obtain ⟨_, finished, sent⟩ := finish_run w msg task start looped.1 looped.2
  have fails : looped.2.fails .publish = s.fails .publish := by
    unfold World.fails
    rw [live, publish, enter.publish, ← same.cancelled, calm.live]
  have success : looped.1.1 = none ↔ ∃ i < w.maxAttempts, s.script.outcome i = none := by
    rw [ran.nil_iff, ran.success_iff live, enter.outcome]
  rw [ran.handled, enter.handled] at finished
  rw [kafka, enter.kafka, fails] at sent
  rw [accounted_iff fresh finished sent, ← success]
  constructor
  · rintro (⟨attempt, member, nil⟩ | lost)
    · obtain ⟨i, lt, rfl⟩ := List.mem_map.mp member
      rw [enter.outcome] at nil
      exact .inl (success.mpr ⟨i, Nat.lt_of_lt_of_le (List.mem_range.mp lt) ran.lt, nil⟩)
    · exact .inr (Bool.or_eq_false_iff.mp lost).2
  · intro good
    cases last : looped.1.1 with
    | none =>
        refine .inl ⟨_, List.mem_map_of_mem (List.mem_range.mpr (Nat.lt_succ_self k)), ?_⟩
        exact ran.nil_iff.mp last
    | some err => exact .inr (good.resolve_left (by simp [last]))

/-- **Tasks the worker drops.**  Exactly when does a nil return of `processMessage`
mean, under faults of any of its calls, that the task is accounted for: its status
was terminal already, or the dead-letter publish works, or the call does not come
to that publish because `RUNNING` cannot be set or an attempt succeeds. -/
theorem worker_accounts_iff {json : Json Raw} {msg : Message Raw}
    (decodes : json.unmarshal msg.value = some task) (calm : s.Uncancelled) :
    ((Service.run (w.processMessage json msg) s).1 = none →
        Accounted task msg.value s (Service.run (w.processMessage json msg) s).2) ↔
      s.terminal task.id = true ∨ s.script.fails .publish 0 = false ∨
        ∃ h, w.registry.get task.type = .ok h ∧
          (s.script.fails .setStatus 0 = true ∨
            ∃ i < w.maxAttempts, s.script.outcome i = none) := by
  cases fresh : s.terminal task.id with
  | true => exact iff_of_true (fun _ => .inl fresh) (.inl rfl)
  | false =>
      rw [processMessage_run decodes (by rw [alreadyTerminal_getStatus, fresh, Bool.and_false])]
      have same : World.SameLog s (perform (.getStatus task.id) s).2 :=
        (World.SameLog.refl s).perform _ trivial
      have calm₁ : (perform (.getStatus task.id) s).2.Uncancelled := perform_uncancelled calm
      have publish : s.fails .publish = s.script.fails .publish 0 := by
        rw [World.fails, calm.live, Bool.false_or]
      have running : (perform (.getStatus task.id) s).2.fails .setStatus =
          s.script.fails .setStatus 0 := by
        rw [perform_fails_now (by simp) (by simp) (by simp [Op.kind]), World.fails, calm.live,
          Bool.false_or]
      generalize (perform (.getStatus task.id) s).2 = s₁ at *
      unfold processNew
      cases found : w.registry.get task.type with
      | error err =>
          simp only [(noHandler_run w msg task s₁).1, accounts_noHandler_iff msg fresh same,
            publish]
          simp
      | ok h =>
          cases down : s.script.fails .setStatus 0 with
          | true =>
              rw [down] at running
              exact iff_of_true (fun nil => absurd nil (execute_refuses msg h running))
                (.inr (.inr ⟨h, rfl, .inl rfl⟩))
          | false =>
              rw [down] at running
              simp only [execute_nil msg h running,
                accounts_execute_iff msg h fresh same calm₁ running, publish]
              simp [or_comm]

instance [DecidableEq Raw] (task : Task) (value : Raw) (s s' : World Raw) :
    Decidable (Accounted task value s s') :=
  inferInstanceAs (Decidable (_ ∨ _ ∨ _))

theorem fresh_uncancelled : (World.fresh .calm : World Raw).Uncancelled :=
  ⟨rfl, fun _ => rfl, fun _ => rfl⟩

/-- With the broker up, the email worker accounts for its task. -/
theorem worker_accounts_email :
    Accounted emailTask emailTask (World.fresh .calm)
      (Service.run ((emailWorker 3).processMessage plainJson emailMessage) (World.fresh .calm)).2 :=
  (worker_accounts_iff rfl fresh_uncancelled).mpr (.inr (.inl rfl)) (by decide)

/-- Every attempt fails and the broker refuses every publish. -/
def brokerDown : Script :=
  { Script.calm with
    fails := fun c _ => c == .publish
    outcome := fun _ => some (.new "smtp: 421") }

/-- The dead-letter publish fails and the call still returns nil: the task is gone. -/
theorem worker_drops_task :
    ¬ ∀ (w : Worker) (msg : Message Task) (task : Task) (s : World Task),
      plainJson.unmarshal msg.value = some task → s.Uncancelled →
      (Service.run (w.processMessage plainJson msg) s).1 = none →
      Accounted task msg.value s (Service.run (w.processMessage plainJson msg) s).2 := by
  intro neverDrops
  have accounted := neverDrops (emailWorker 3) emailMessage emailTask (World.fresh brokerDown) rfl
    ⟨rfl, fun _ => rfl, fun _ => rfl⟩ (by decide)
  exact absurd accounted (by decide)

/-! ## Cancellation -/

/-- The task is settled: its status is terminal, and unless an attempt for it
returned nil, a copy of the message is in the dead-letter queue. -/
def Settled (task : Task) (value : Raw) (s : World Raw) : Prop :=
  s.terminal task.id = true ∧
    ((∀ attempt ∈ s.handled, attempt.1.id = task.id → attempt.2 ≠ none) →
      ∃ r ∈ s.kafka, r.IsDeadLetter value)

/-- A call whose context is not cancelled when the loop ends writes a terminal
status. -/
theorem finish_terminal (w : Worker) (msg : Message Raw) (task : Task) (start : Time)
    (result : Option Error × Nat) (up : s.Up) :
    (Service.run (w.finish msg task start result) s).2.terminal task.id = true := by
  obtain ⟨exec, closes⟩ := w.finish_dossier msg task start result up.stores
  exact (World.terminal_of_live (congrArg Dossier.live closes)).trans (closing_terminal ..)

theorem entered_state (w : Worker) (task : Task) (up : s.Up) :
    (w.entered task s).redis.state task.id = some .running := by
  unfold entered
  rw [perform_state (by simp), perform_state (by simp), perform_setStatus_state,
    up.reliable.fails, up.live]
  rfl

/-- A call that executes its task settles it exactly when the loop does not end
cancelled. -/
theorem settled_execute_iff (msg : Message Raw) (h : Handler) (up : s.Up) :
    Settled task msg.value (Service.run (w.execute msg task h) s).2 ↔
      (Service.run (w.execAttempts h task) (w.entered task s)).2.cancelled = false := by
  obtain ⟨start, run⟩ := execute_run w msg task h ((up.reliable.fails _).trans up.live)
  rw [run]
  have reliable : (Service.run (w.execAttempts h task) (w.entered task s)).2.Reliable :=
    Service.run_reliable (perform_reliable (perform_reliable (perform_reliable up.reliable)))
  have running := w.execAttempts_state h task (w.entered task s) (w.entered_state task up)
  obtain ⟨k, ran, _, _⟩ := w.execAttempts_run h task (w.entered task s)
  generalize Service.run (w.execAttempts h task) (w.entered task s) = looped at *
  obtain ⟨_, handled, kafka⟩ := finish_run w msg task start looped.1 looped.2
  cases cancelled : looped.2.cancelled with
  | true =>
      refine iff_of_false (fun settled => ?_) (by simp)
      have terminal := settled.1
      rw [World.terminal, Service.run_state_of_cancelled _ cancelled] at terminal
      rcases running with running | running
      all_goals
        rw [running] at terminal
        cases terminal
  | false =>
      refine iff_of_true ⟨?_, fun failed => ?_⟩ rfl
      · exact finish_terminal w msg task start looped.1 ⟨reliable, cancelled⟩
      · rw [handled, ran.handled] at failed
        have last := failed (task, (w.entered task s).script.outcome k)
          (List.mem_append_right _ (List.mem_map_of_mem
            (List.mem_range.mpr (Nat.lt_succ_self k)))) rfl
        have dead : looped.1.1.isNone = false :=
          Option.isNone_eq_false_iff.mpr (Option.isSome_iff_ne_none.mpr (last ∘ ran.nil_iff.mp))
        rw [kafka, dead, reliable.fails, cancelled]
        exact ⟨_, List.mem_append_right _ (List.mem_singleton_self _), rfl, rfl⟩

theorem entered_script (w : Worker) (task : Task) (s : World Raw) :
    (w.entered task s).script.cancelInHandle = s.script.cancelInHandle ∧
      (w.entered task s).script.cancelInWait = s.script.cancelInWait := by
  unfold entered
  rw [perform_cancelInHandle (by simp), perform_cancelInHandle (by simp),
    perform_cancelInHandle (by simp), perform_cancelInWait (by simp),
    perform_cancelInWait (by simp), perform_cancelInWait (by simp)]
  exact ⟨rfl, rfl⟩

/-- **Tasks lost at shutdown.**  Exactly when does a nil return of `processMessage`
leave the task settled, with a registered handler and infrastructure that only
fails calls made with a cancelled context: the context was cancelled before the
call, or the task was terminal and settled already, or no attempt and no wait that
the call enters sees the cancellation. -/
theorem shutdown_settles_iff {json : Json Raw} {msg : Message Raw} {h : Handler}
    (decodes : json.unmarshal msg.value = some task)
    (registered : w.registry.get task.type = .ok h) (reliable : s.Reliable) :
    ((Service.run (w.processMessage json msg) s).1 = none →
        Settled task msg.value (Service.run (w.processMessage json msg) s).2) ↔
      s.cancelled = true ∨
      (s.terminal task.id = true ∧
        ((∃ attempt ∈ s.handled, attempt.1.id = task.id ∧ attempt.2 = none) ∨
          ∃ r ∈ s.kafka, r.IsDeadLetter msg.value)) ∨
      (s.terminal task.id = false ∧ ¬ CancelsWithin s.script.outcome s.script.cancelInHandle
        s.script.cancelInWait w.maxAttempts) := by
  have same := reliable.perform_getStatus task.id
  have check := alreadyTerminal_getStatus s task.id
  rw [reliable.fails] at check
  cases cancelled : s.cancelled with
  | true =>
      rw [cancelled] at check
      rw [processMessage_run decodes check, same]
      have refused : (Service.run (w.processNew msg task) s).1 ≠ none := by
        simp only [processNew, registered]
        exact execute_refuses msg h ((reliable.fails .setStatus).trans cancelled)
      exact iff_of_true (fun nil => absurd nil refused) (.inl rfl)
  | false =>
      rw [cancelled] at check
      have up : s.Up := ⟨reliable, cancelled⟩
      cases terminal : s.terminal task.id with
      | true =>
          rw [terminal] at check
          rw [processMessage_skips decodes check, same]
          simp only [Settled, terminal, true_and, forall_const, Bool.true_eq_false, false_and,
            Bool.false_eq_true, false_or, or_false]
          rw [imp_iff_not_or]
          simp
      | false =>
          rw [terminal] at check
          rw [processMessage_run decodes check, same]
          simp only [processNew, registered]
          have nil : (Service.run (w.execute msg task h) s).1 = none :=
            execute_nil msg h ((reliable.fails .setStatus).trans cancelled)
          have enter := w.entered_sameLog task s
          have looped := w.execAttempts_cancelled h task (w.entered task s)
          rw [enter.cancelled, cancelled, enter.outcome, (w.entered_script task s).1,
            (w.entered_script task s).2] at looped
          simp only [nil, settled_execute_iff msg h up]
          rw [← Bool.not_eq_true, looped]
          simp

/-- Without cancellation the email worker settles its task. -/
theorem shutdown_settles_email :
    Settled emailTask emailTask
      (Service.run ((emailWorker 3).processMessage plainJson emailMessage)
        (World.fresh .calm)).2 := by
  refine (shutdown_settles_iff (h := ⟨"email"⟩) rfl (by decide) fun _ _ => rfl).mpr
    (.inr (.inr ⟨rfl, ?_⟩)) (by decide)
  rintro ⟨i, _, _, inHandle | ⟨_, _, inWait⟩⟩
  · cases inHandle
  · cases inWait

/-- The context is cancelled while the only handler call runs. -/
def cancelledInHandle : Script := { Script.calm with cancelInHandle := fun n => n == 0 }

/-- A shutdown during the handler call: the call returns nil, so its offset is
committed, and the task stays `RUNNING`. -/
theorem shutdown_loses_task :
    ¬ ∀ (w : Worker) (msg : Message Task) (task : Task) (h : Handler) (s : World Task),
      plainJson.unmarshal msg.value = some task → w.registry.get task.type = .ok h → s.Reliable →
      (Service.run (w.processMessage plainJson msg) s).1 = none →
      Settled task msg.value (Service.run (w.processMessage plainJson msg) s).2 := by
  intro alwaysSettles
  have settled := alwaysSettles (emailWorker 3) emailMessage emailTask ⟨"email"⟩
    (World.fresh cancelledInHandle) rfl (by decide) (fun _ _ => rfl) (by decide)
  exact absurd settled.1 (by decide)

end Worker

end TaskFlow
