import TaskFlow.Dossier
import TaskFlow.Worker

/-!
# One message at the worker

`Worker.attemptsFrom` is the retry loop of `processMessage` from any of its
attempts on.  Whatever fails and whenever the context is cancelled, one execution
of it makes a number of handler calls, all failed but possibly the last
(`attemptsFrom_run`), touches nothing but the live status of the task, the retry
counter and the cancellation (`attemptsFrom_all`), and ends cancelled exactly when
an attempt or a wait it entered saw the cancellation (`attemptsFrom_cancelled`).
`processMessage_run` and `execute_run` lead from the message to the loop, and
`finish_dossier` says what the end of a call writes about its task.
-/

namespace TaskFlow

open Effect

variable {Raw : Type}

namespace Worker

/-- The retry loop at attempt number `number`, with `left` attempts after it and
the value `attempts` of the counter. -/
def attemptsFrom (w : Worker) (h : Handler) (task : Task) (number left attempts : Nat) :
    Service Raw (Option Error × Nat) :=
  StateT.run (retryFrom (fun delay => Attempting.ask (.wait delay)) (w.retryConfig task)
    (attempt h task) number left) attempts

/-- The loop after a wait. -/
def afterWait (w : Worker) (h : Handler) (task : Task) (number left : Nat) :
    Option Error → Service Raw (Option Error × Nat)
  | none => w.attemptsFrom h task (number + 1) left number
  | some ctxErr =>
      .pure (some (.wrap ("retry cancelled after attempt " ++ toString number) ctxErr), number)

/-- The loop after an attempt that is not the last. -/
def afterAttempt (w : Worker) (h : Handler) (task : Task) (number left attempts : Nat) :
    Option Error → Service Raw (Option Error × Nat)
  | none => .pure (none, attempts + 1)
  | some _ =>
      .call (.count (.workerRetriesTotal w.workerType) 1) fun _ =>
        .call (.setStatus task.id .retrying) fun _ =>
          .call (.wait (retryDelay w.baseDelay number)) (w.afterWait h task number left)

theorem execAttempts_eq (w : Worker) (h : Handler) (task : Task) :
    (w.execAttempts h task : Service Raw _) = w.attemptsFrom h task 1 (w.maxAttempts - 1) 0 := rfl

theorem attemptsFrom_zero (w : Worker) (h : Handler) (task : Task) (number attempts : Nat) :
    (w.attemptsFrom h task number 0 attempts : Service Raw _) =
      .call (.handle h task) fun result => .pure (result, attempts + 1) :=
  congrArg (Prog.call _) (funext fun result => by cases result <;> rfl)

theorem attemptsFrom_succ (w : Worker) (h : Handler) (task : Task) (number left attempts : Nat) :
    (w.attemptsFrom h task number (left + 1) attempts : Service Raw _) =
      .call (.handle h task) (w.afterAttempt h task number left attempts) := by
  refine congrArg (Prog.call _) (funext fun result => ?_)
  cases result with
  | none => rfl
  | some err =>
      refine congrArg (Prog.call _) (funext fun _ => congrArg (Prog.call _) (funext fun _ => ?_))
      exact congrArg (Prog.call _) (funext fun result => by cases result <;> rfl)

/-! ## The calls of the loop -/

/-- The calls the loop makes. -/
def AttemptOp (task : Task) : Op Raw → Prop
  | .handle _ t => t = task
  | .count _ _ => True
  | .setStatus id status => id = task.id ∧ status = .retrying
  | .wait _ => True
  | _ => False

variable {w : Worker} {h : Handler} {task : Task} {number left attempts : Nat} {s : World Raw}

/-- The loop runs the handler, counts a retry, writes `RETRYING` and waits. -/
theorem attemptsFrom_calls {P : Op Raw → Prop} (handle : P (.handle h task))
    (count : P (.count (.workerRetriesTotal w.workerType) 1))
    (retrying : P (.setStatus task.id .retrying)) (wait : ∀ delay, P (.wait delay)) :
    Prog.All P (w.attemptsFrom h task number left attempts) := by
  induction left generalizing number attempts with
  | zero =>
      rw [attemptsFrom_zero]
      exact ⟨handle, fun _ => trivial⟩
  | succ left ih =>
      rw [attemptsFrom_succ]
      refine ⟨handle, fun result => ?_⟩
      cases result with
      | none => trivial
      | some err =>
          refine ⟨count, fun _ => ⟨retrying, fun _ => ⟨wait _, fun result => ?_⟩⟩⟩
          cases result with
          | none => exact ih
          | some ctxErr => trivial

theorem attemptsFrom_all :
    Prog.All (AttemptOp task) (w.attemptsFrom h task number left attempts : Service Raw _) :=
  attemptsFrom_calls rfl trivial ⟨rfl, rfl⟩ fun _ => trivial

/-- The loop publishes nothing. -/
theorem attemptsFrom_kafka (s : World Raw) :
    (Service.run (w.attemptsFrom h task number left attempts) s).2.kafka = s.kafka ∧
      (Service.run (w.attemptsFrom h task number left attempts) s).2.script.fails .publish =
        s.script.fails .publish := by
  refine attemptsFrom_all.run_invariant
    (I := fun s' : World Raw =>
      s'.kafka = s.kafka ∧ s'.script.fails .publish = s.script.fails .publish)
    (fun op s' attempts same => ?_) ⟨rfl, rfl⟩
  have publishes : ∀ topic key value origin, op ≠ .publish topic key value origin := by
    rintro topic key value origin rfl
    exact attempts
  exact ⟨(perform_kafka publishes).trans same.1, (perform_publishFaults publishes).trans same.2⟩

/-- The loop leaves the task `RUNNING` or `RETRYING`. -/
theorem attemptsFrom_state (s : World Raw)
    (running : s.redis.state task.id = some .running ∨ s.redis.state task.id = some .retrying) :
    (Service.run (w.attemptsFrom h task number left attempts) s).2.redis.state task.id =
        some .running ∨
      (Service.run (w.attemptsFrom h task number left attempts) s).2.redis.state task.id =
        some .retrying := by
  refine attemptsFrom_all.run_invariant (I := fun s' : World Raw =>
      s'.redis.state task.id = some .running ∨ s'.redis.state task.id = some .retrying)
    (fun op s' attempts running => ?_) running
  cases op with
  | setStatus id status =>
      obtain ⟨rfl, rfl⟩ := attempts
      rw [perform_setStatus_state]
      split
      · exact running
      · exact .inr rfl
  | _ => rwa [perform_state (by simp)]

/-! ## Executing the loop -/

/-- The world when a failed attempt has been counted, reported and waited for. -/
def retried (w : Worker) (h : Handler) (task : Task) (number : Nat) (s : World Raw) : World Raw :=
  let failed := (perform (.handle h task) s).2
  let counted := (perform (.count (.workerRetriesTotal w.workerType) 1) failed).2
  let reported := (perform (.setStatus task.id .retrying) counted).2
  (perform (.wait (retryDelay w.baseDelay number)) reported).2

theorem retried_outcome : (w.retried h task number s).script.outcome = rest s.script.outcome := by
  unfold retried
  rw [perform_outcome (by simp), perform_outcome (by simp), perform_outcome (by simp)]
  rfl

theorem retried_handled (w : Worker) (h : Handler) (task : Task) (number : Nat) (s : World Raw) :
    (w.retried h task number s).handled = s.handled ++ [(task, s.script.outcome 0)] := by
  unfold retried
  rw [perform_handled (by simp), perform_handled (by simp), perform_handled (by simp)]
  rfl

theorem retried_cancelInHandle :
    (w.retried h task number s).script.cancelInHandle = rest s.script.cancelInHandle := by
  unfold retried
  rw [perform_cancelInHandle (by simp), perform_cancelInHandle (by simp),
    perform_cancelInHandle (by simp)]
  rfl

theorem wait_script {delay : Int64} {s : World Raw} :
    (perform (.wait delay) s).2.script.cancelInWait = rest s.script.cancelInWait ∧
      (perform (.wait delay) s).2.cancelled = (s.cancelled || s.script.cancelInWait 0) ∧
      (perform (.wait delay) s).2.script.timerFirst = rest s.script.timerFirst :=
  ⟨rfl, rfl, rfl⟩

theorem retried_cancelInWait :
    (w.retried h task number s).script.cancelInWait = rest s.script.cancelInWait := by
  unfold retried
  rw [wait_script.1, perform_cancelInWait (by simp), perform_cancelInWait (by simp)]
  rfl

theorem retried_cancelled :
    (w.retried h task number s).cancelled =
      (s.cancelled || s.script.cancelInHandle 0 || s.script.cancelInWait 0) := by
  unfold retried
  rw [wait_script.2.1, perform_cancelled (by simp) (by simp), perform_cancelInWait (by simp),
    perform_cancelled (by simp) (by simp), perform_cancelInWait (by simp)]
  rfl

theorem retried_timerFirst :
    (w.retried h task number s).script.timerFirst = rest s.script.timerFirst := by
  unfold retried
  rw [wait_script.2.2, perform_timerFirst (by simp), perform_timerFirst (by simp)]
  rfl

/-- The wait after attempt `i + 1` of a loop that starts at `s` is cut short: the context
is cancelled by then, and the `select` takes `ctx.Done()`. -/
def WaitCut (s : World Raw) (i : Nat) : Prop :=
  (s.cancelled = true ∨
    ∃ j ≤ i, s.script.cancelInHandle j = true ∨ s.script.cancelInWait j = true) ∧
  s.script.timerFirst i = false

theorem waitCut_retried {i : Nat} : WaitCut (w.retried h task number s) i ↔ WaitCut s (i + 1) := by
  unfold WaitCut
  rw [retried_cancelled, retried_cancelInHandle, retried_cancelInWait, retried_timerFirst]
  refine and_congr_left fun _ => ?_
  simp only [Bool.or_eq_true, rest_apply]
  constructor
  · rintro (((before | inHandle) | inWait) | ⟨j, le, seen⟩)
    · exact .inl before
    · exact .inr ⟨0, Nat.zero_le _, .inl inHandle⟩
    · exact .inr ⟨0, Nat.zero_le _, .inr inWait⟩
    · exact .inr ⟨j + 1, Nat.succ_le_succ le, seen⟩
  · rintro (before | ⟨j, le, seen⟩)
    · exact .inl (.inl (.inl before))
    · cases j with
      | zero => exact .inl (seen.elim (fun inHandle => .inl (.inr inHandle)) .inr)
      | succ j => exact .inr ⟨j, Nat.le_of_succ_le_succ le, seen⟩

theorem WaitCut.cancelled (cut : WaitCut s 0) : (w.retried h task number s).cancelled = true := by
  rw [retried_cancelled, Bool.or_eq_true_iff, Bool.or_eq_true_iff]
  rcases cut.1 with before | ⟨j, le, seen⟩
  · exact .inl (.inl before)
  · obtain rfl := Nat.le_zero.mp le
    exact seen.elim (fun inHandle => .inl (.inr inHandle)) .inr

theorem wait_cut {delay : Int64} {s : World Raw} (answered : (perform (.wait delay) s).1 ≠ none) :
    (s.cancelled || s.script.cancelInWait 0) = true ∧ s.script.timerFirst 0 = false := by
  simp only [perform, World.wait] at answered
  split at answered
  · rename_i seen
    rw [Bool.and_eq_true_iff, Bool.not_eq_true'] at seen
    exact seen
  · exact absurd rfl answered

/-- The wait after a failed first attempt answers with an error only when it is cut. -/
theorem waitCut_of_answer {delay : Int64} (answered : (perform (.wait delay)
      (perform (.setStatus task.id .retrying)
        (perform (.count (.workerRetriesTotal w.workerType) 1)
          (perform (.handle h task) s).2).2).2).1 ≠ none) : WaitCut s 0 := by
  obtain ⟨seen, timer⟩ := wait_cut answered
  rw [perform_cancelled (by simp) (by simp), perform_cancelInWait (by simp),
    perform_cancelled (by simp) (by simp), perform_cancelInWait (by simp)] at seen
  rw [perform_timerFirst (by simp), perform_timerFirst (by simp)] at timer
  refine ⟨?_, timer⟩
  have cancelled : (s.cancelled || s.script.cancelInHandle 0 || s.script.cancelInWait 0) = true :=
    seen
  rw [Bool.or_eq_true_iff, Bool.or_eq_true_iff] at cancelled
  rcases cancelled with (before | inHandle) | inWait
  · exact .inl before
  · exact .inr ⟨0, Nat.le_refl 0, .inl inHandle⟩
  · exact .inr ⟨0, Nat.le_refl 0, .inr inWait⟩

/-- The first attempt of the loop ends it, or is waited for, and then the wait
ends it or the loop goes on. -/
theorem attemptsFrom_succ_run (w : Worker) (h : Handler) (task : Task)
    (number left attempts : Nat) (s : World Raw) :
    (s.script.outcome 0 = none ∧
      Service.run (w.attemptsFrom h task number (left + 1) attempts) s =
        ((none, attempts + 1), (perform (.handle h task) s).2)) ∨
    (s.script.outcome 0 ≠ none ∧
      (WaitCut s 0 ∧
        (∃ err, Service.run (w.attemptsFrom h task number (left + 1) attempts) s =
          ((some err, number), w.retried h task number s)) ∨
      Service.run (w.attemptsFrom h task number (left + 1) attempts) s =
        Service.run (w.attemptsFrom h task (number + 1) left number)
          (w.retried h task number s))) := by
  have unfolded : Service.run (w.attemptsFrom h task number (left + 1) attempts) s =
      Service.run (w.afterAttempt h task number left attempts (s.script.outcome 0))
        (perform (.handle h task) s).2 := by
    rw [attemptsFrom_succ]
    rfl
  rw [unfolded]
  cases outcome : s.script.outcome 0 with
  | none => exact .inl ⟨rfl, rfl⟩
  | some err =>
      right
      refine ⟨by simp, ?_⟩
      let reported := (perform (.setStatus task.id .retrying)
        (perform (.count (.workerRetriesTotal w.workerType) 1) (perform (.handle h task) s).2).2).2
      let answer := (perform (.wait (retryDelay w.baseDelay number)) reported).1
      show (WaitCut s 0 ∧ ∃ err', Service.run (w.afterWait h task number left answer)
          (w.retried h task number s) = _) ∨
        Service.run (w.afterWait h task number left answer) (w.retried h task number s) = _
      cases waited : answer with
      | none => exact .inr rfl
      | some ctxErr =>
          have answered : answer ≠ none := by
            rw [waited]
            exact nofun
          exact .inl ⟨waitCut_of_answer answered, _, rfl⟩

/-- What one execution of a loop of `n` attempts from `s` to `s'` did: it called the
handler `k + 1` times, and only the last call can have returned nil. -/
structure Attempted (task : Task) (n : Nat) (s s' : World Raw) (execErr : Option Error)
    (k : Nat) : Prop where
  lt : k < n
  failed : ∀ i < k, s.script.outcome i ≠ none
  handled : s'.handled =
    s.handled ++ (List.range (k + 1)).map fun i => (task, s.script.outcome i)
  nil_iff : execErr = none ↔ s.script.outcome k = none
  complete : s'.cancelled = false → s.script.outcome k = none ∨ k + 1 = n

theorem Attempted.first {s' : World Raw} {execErr : Option Error}
    (handled : s'.handled = s.handled ++ [(task, s.script.outcome 0)])
    (nil_iff : execErr = none ↔ s.script.outcome 0 = none)
    (complete : s'.cancelled = false → s.script.outcome 0 = none ∨ 0 = left) :
    Attempted task (left + 1) s s' execErr 0 where
  lt := Nat.succ_pos _
  failed _ lt := absurd lt (Nat.not_lt_zero _)
  handled := handled
  nil_iff := nil_iff
  complete live := (complete live).imp id (congrArg (· + 1))

/-- An execution that went on after a failed attempt. -/
theorem Attempted.retry {s' : World Raw} {execErr : Option Error} {n k : Nat}
    (failed : s.script.outcome 0 ≠ none)
    (later : Attempted task n (w.retried h task number s) s' execErr k) :
    Attempted task (n + 1) s s' execErr (k + 1) := by
  have outcome : ∀ i, (w.retried h task number s).script.outcome i = s.script.outcome (i + 1) :=
    fun i => by rw [retried_outcome, rest_apply]
  refine ⟨Nat.succ_lt_succ later.lt, fun i lt => ?_, ?_, ?_, fun live => ?_⟩
  · cases i with
    | zero => exact failed
    | succ i =>
        rw [← outcome]
        exact later.failed i (Nat.lt_of_succ_lt_succ lt)
  · rw [later.handled, retried_handled, List.append_assoc, List.range_succ_eq_map (n := k + 1),
      List.map_cons, List.map_map]
    simp only [List.singleton_append, outcome, Function.comp_def]
  · rw [later.nil_iff, outcome]
  · rw [← outcome, Nat.succ_inj]
    exact later.complete live

/-- A loop that was not cancelled made a successful call exactly when one of the
outcomes it is entitled to is nil. -/
theorem Attempted.success_iff {n k : Nat} {s' : World Raw} {execErr : Option Error}
    (ran : Attempted task n s s' execErr k) (live : s'.cancelled = false) :
    s.script.outcome k = none ↔ ∃ i < n, s.script.outcome i = none := by
  constructor
  · intro success
    exact ⟨k, ran.lt, success⟩
  · rintro ⟨i, lt, success⟩
    rcases ran.complete live with last | rfl
    · exact last
    · rcases Nat.lt_or_eq_of_le (Nat.le_of_lt_succ lt) with before | rfl
      · exact absurd success (ran.failed i before)
      · exact success

/-- One execution of the loop, under any faults and cancellations.  The counter
ends at the number of handler calls made, and the loop ends with a success, the last
attempt or a wait that was cut. -/
theorem attemptsFrom_run (w : Worker) (h : Handler) (task : Task) (left : Nat) (s : World Raw)
    (counted : attempts + 1 = number) :
    ∃ k, Attempted task (left + 1) s
        (Service.run (w.attemptsFrom h task number left attempts) s).2
        (Service.run (w.attemptsFrom h task number left attempts) s).1.1 k ∧
      (Service.run (w.attemptsFrom h task number left attempts) s).1.2 = number + k ∧
      (s.script.outcome k = none ∨ k + 1 = left + 1 ∨ WaitCut s k) := by
  induction left generalizing number attempts s with
  | zero =>
      rw [attemptsFrom_zero]
      exact ⟨0, .first rfl Iff.rfl fun _ => .inr rfl, counted, .inr (.inl rfl)⟩
  | succ left ih =>
      rcases attemptsFrom_succ_run w h task number left attempts s with
        ⟨success, run⟩ | ⟨failed, ⟨cut, err, run⟩ | run⟩
      · rw [run]
        exact ⟨0, .first rfl (iff_of_true rfl success) fun _ => .inl success, counted,
          .inl success⟩
      · rw [run]
        have handled := retried_handled w h task number s
        refine ⟨0, .first handled (iff_of_false (by simp) failed) fun live => ?_, rfl,
          .inr (.inr cut)⟩
        rw [cut.cancelled] at live
        cases live
      · rw [run]
        obtain ⟨k, later, count, stops⟩ := ih (w.retried h task number s)
          (rfl : number + 1 = number + 1)
        rw [retried_outcome, rest_apply, waitCut_retried] at stops
        exact ⟨k + 1, later.retry failed, by omega,
          stops.imp id (Or.imp (congrArg (· + 1)) id)⟩

theorem maxAttempts_eq (w : Worker) : w.maxAttempts - 1 + 1 = w.maxAttempts :=
  Nat.sub_add_cancel (entitled_pos _)

/-- One execution of `retry.Do` in `processMessage`. -/
theorem execAttempts_run (w : Worker) (h : Handler) (task : Task) (s : World Raw) :
    ∃ k, Attempted task w.maxAttempts s (Service.run (w.execAttempts h task) s).2
        (Service.run (w.execAttempts h task) s).1.1 k ∧
      (Service.run (w.execAttempts h task) s).1.2 = k + 1 ∧
      (s.script.outcome k = none ∨ k + 1 = w.maxAttempts ∨ WaitCut s k) := by
  obtain ⟨k, ran, count, stops⟩ :=
    w.attemptsFrom_run h task (w.maxAttempts - 1) s (rfl : 0 + 1 = 1)
  rw [w.maxAttempts_eq] at ran stops
  exact ⟨k, ran, count.trans (Nat.add_comm 1 k), stops⟩

theorem execAttempts_kafka (w : Worker) (h : Handler) (task : Task) (s : World Raw) :
    (Service.run (w.execAttempts h task) s).2.kafka = s.kafka ∧
      (Service.run (w.execAttempts h task) s).2.script.fails .publish = s.script.fails .publish :=
  attemptsFrom_kafka s

theorem execAttempts_state (w : Worker) (h : Handler) (task : Task) (s : World Raw)
    (running : s.redis.state task.id = some .running) :
    (Service.run (w.execAttempts h task) s).2.redis.state task.id = some .running ∨
      (Service.run (w.execAttempts h task) s).2.redis.state task.id = some .retrying :=
  attemptsFrom_state s (.inl running)

/-! ## Cancellation during the loop -/

/-- A loop of `n` attempts would see a cancellation: it enters an attempt, or a
wait, during which the context is cancelled. -/
def CancelsWithin (outcome : Nat → Option Error) (inHandle inWait : Nat → Bool) (n : Nat) : Prop :=
  ∃ i < n, (∀ j < i, outcome j ≠ none) ∧
    (inHandle i = true ∨ (i + 1 < n ∧ outcome i ≠ none ∧ inWait i = true))

theorem cancelsWithin_one {outcome : Nat → Option Error} {inHandle inWait : Nat → Bool} :
    CancelsWithin outcome inHandle inWait 1 ↔ inHandle 0 = true := by
  constructor
  · rintro ⟨i, lt, _, inside | ⟨bad, _⟩⟩
    · rwa [Nat.lt_one_iff.mp lt] at inside
    · omega
  · intro inside
    exact ⟨0, Nat.one_pos, fun j lt => absurd lt (Nat.not_lt_zero j), .inl inside⟩

theorem cancelsWithin_succ {outcome : Nat → Option Error} {inHandle inWait : Nat → Bool} {n : Nat} :
    CancelsWithin outcome inHandle inWait (n + 2) ↔
      inHandle 0 = true ∨ (outcome 0 ≠ none ∧
        (inWait 0 = true ∨
          CancelsWithin (rest outcome) (rest inHandle) (rest inWait) (n + 1))) := by
  constructor
  · rintro ⟨i, lt, before, seen⟩
    cases i with
    | zero =>
        rcases seen with inside | ⟨_, failed, inside⟩
        · exact .inl inside
        · exact .inr ⟨failed, .inl inside⟩
    | succ i =>
        refine .inr ⟨before 0 (Nat.succ_pos i), .inr ⟨i, by omega, ?_, ?_⟩⟩
        · exact fun j lt => before (j + 1) (Nat.succ_lt_succ lt)
        · exact seen.imp id fun ⟨lt, later⟩ => ⟨by omega, later⟩
  · rintro (inside | ⟨failed, inside | ⟨i, lt, before, seen⟩⟩)
    · exact ⟨0, by omega, fun j lt => absurd lt (Nat.not_lt_zero j), .inl inside⟩
    · refine ⟨0, by omega, fun j lt => absurd lt (Nat.not_lt_zero j), .inr ?_⟩
      exact ⟨by omega, failed, inside⟩
    · refine ⟨i + 1, by omega, fun j lt => ?_, seen.imp id fun ⟨lt, later⟩ => ⟨by omega, later⟩⟩
      cases j with
      | zero => exact failed
      | succ j => exact before j (Nat.lt_of_succ_lt_succ lt)

/-- The loop ends cancelled exactly when it started so or saw a cancellation. -/
theorem attemptsFrom_cancelled :
    (Service.run (w.attemptsFrom h task number left attempts) s).2.cancelled = true ↔
      s.cancelled = true ∨ CancelsWithin s.script.outcome s.script.cancelInHandle
        s.script.cancelInWait (left + 1) := by
  induction left generalizing number attempts s with
  | zero =>
      rw [attemptsFrom_zero, cancelsWithin_one]
      exact Bool.or_eq_true_iff
  | succ left ih =>
      rw [cancelsWithin_succ]
      rcases attemptsFrom_succ_run w h task number left attempts s with
        ⟨success, run⟩ | ⟨failed, ⟨cut, err, run⟩ | run⟩
      · rw [run]
        simp only [success, ne_eq, not_true, false_and, or_false]
        exact Bool.or_eq_true_iff
      · rw [run]
        have cancelled : (w.retried h task number s).cancelled = true := cut.cancelled
        refine iff_of_true cancelled ?_
        rw [retried_cancelled, Bool.or_eq_true_iff, Bool.or_eq_true_iff] at cancelled
        rcases cancelled with (before | inHandle) | inWait
        · exact .inl before
        · exact .inr (.inl inHandle)
        · exact .inr (.inr ⟨failed, .inl inWait⟩)
      · rw [run, ih, retried_cancelled, retried_outcome, retried_cancelInHandle,
          retried_cancelInWait, Bool.or_eq_true_iff, Bool.or_eq_true_iff, or_assoc, or_assoc]
        simp only [failed, ne_eq, not_false_eq_true, true_and]

theorem execAttempts_cancelled (w : Worker) (h : Handler) (task : Task) (s : World Raw) :
    (Service.run (w.execAttempts h task) s).2.cancelled = true ↔
      s.cancelled = true ∨ CancelsWithin s.script.outcome s.script.cancelInHandle
        s.script.cancelInWait w.maxAttempts := by
  rw [execAttempts_eq, attemptsFrom_cancelled, w.maxAttempts_eq]

/-! ## One message -/

/-- The world when the retry loop is entered. -/
def entered (w : Worker) (task : Task) (s : World Raw) : World Raw :=
  (perform .now (perform (.count (.workerTasksInFlight w.workerType) 1)
    (perform (.setStatus task.id .running) s).2).2).2

theorem entered_sameLog (w : Worker) (task : Task) (s : World Raw) :
    World.SameLog s (w.entered task s) :=
  (((World.SameLog.refl s).perform (.setStatus task.id .running) trivial).perform
    (.count (.workerTasksInFlight w.workerType) 1) trivial).perform .now trivial

theorem execute_refuses (msg : Message Raw) (h : Handler) (down : s.fails .setStatus = true) :
    (Service.run (w.execute msg task h) s).1 ≠ none := by
  cases answer : (perform (.setStatus task.id .running) s).1 with
  | none =>
      rw [perform_setStatus_ok.mp answer] at down
      cases down
  | some err =>
      simp only [Service.run, execute, ask, Prog.op_bind, Prog.run_call, answer]
      simp [afterRunning]

/-- A call that gets past `RUNNING` is the retry loop and its end. -/
theorem execute_run (w : Worker) (msg : Message Raw) (task : Task) (h : Handler)
    (up : s.fails .setStatus = false) :
    ∃ start, Service.run (w.execute msg task h) s =
      Service.run (w.finish msg task start
        (Service.run (w.execAttempts h task) (w.entered task s)).1)
        (Service.run (w.execAttempts h task) (w.entered task s)).2 := by
  have answer : (perform (.setStatus task.id .running) s).1 = none := perform_setStatus_ok.mpr up
  simp only [Service.run, execute, ask, Prog.op_bind, Prog.run_call, answer]
  simp only [afterRunning, ask, Prog.op_bind, Prog.run_call, Prog.run_bind]
  exact ⟨_, rfl⟩

/-- What the idempotency check sees: the live status, when the read works. -/
theorem alreadyTerminal_getStatus (s : World Raw) (id : String) :
    alreadyTerminal (perform (.getStatus id) s).1 =
      (!s.fails .getStatus && s.terminal id) := by
  cases down : s.fails .getStatus with
  | true => simp [perform, World.getStatus, World.attempt_of_fails down, alreadyTerminal]
  | false =>
      simp only [perform, World.getStatus, World.attempt_of_works down, World.terminal,
        World.spend]
      cases s.redis.state id <;> rfl

/-- A call whose check does not see a terminal status is the call past the check. -/
theorem processMessage_run {json : Json Raw} {msg : Message Raw}
    (decodes : json.unmarshal msg.value = some task)
    (unseen : alreadyTerminal (perform (.getStatus task.id) s).1 = false) :
    Service.run (w.processMessage json msg) s =
      Service.run (w.processNew msg task) (perform (.getStatus task.id) s).2 := by
  simp only [Service.run, processMessage, decodes, processTask, ask, Prog.op_bind, Prog.run_call,
    unseen]
  rfl

theorem processMessage_skips {json : Json Raw} {msg : Message Raw}
    (decodes : json.unmarshal msg.value = some task)
    (seen : alreadyTerminal (perform (.getStatus task.id) s).1 = true) :
    Service.run (w.processMessage json msg) s = (none, (perform (.getStatus task.id) s).2) := by
  simp only [Service.run, processMessage, decodes, processTask, ask, Prog.op_bind, Prog.run_call,
    seen]
  rfl

/-! ## What a call writes about its task -/

/-- The copy of the task that `finishSuccess` or `finishFailure` stores. -/
def closing (task : Task) (now : Time) : Option Error → Task
  | none => { task with completedAt := some now, status := .done, updatedAt := now }
  | some _ => { task with status := .dead, updatedAt := now }

theorem closing_terminal (task : Task) (now : Time) (execErr : Option Error) :
    (closing task now execErr).status.isTerminal = true := by
  cases execErr <;> rfl

theorem closing_attempts (task : Task) (now : Time) (execErr : Option Error) :
    (closing task now execErr).attempts = task.attempts := by
  cases execErr <;> rfl

/-- The reading of `UpdateStatus`, when the first reading is the time of the execution:
`RecordExecution` reads the clock once more for a zero time. -/
def updateReading (clock : Nat → Time) : Time := clock (if clock 0 = zeroTime then 2 else 1)

theorem record_dossier (w : Worker) (task : Task) (durationMs : Int) (error : String) (now : Time)
    (up : s.StoresUp) :
    ∃ exec, (Service.run (w.record task durationMs error now) s).2.dossier task.id =
      (s.dossier task.id).close task (s.script.clock (if now = zeroTime then 1 else 0)) exec := by
  rw [record_eq]
  let s₁ := (perform (.setStatus task.id task.status) s).2
  let s₂ := (perform (.setTaskMeta task) s₁).2
  let filled : TaskExecution :=
    { id := "", taskID := task.id, workerID := w.workerID, attempt := task.attempts,
      status := task.status, durationMs, error, executedAt := now }
  let s₃ := (perform (.recordExecution filled) s₂).2
  have up₁ : s₁.StoresUp := up.keep _ (by simp) (by simp)
  have up₂ : s₂.StoresUp := up₁.keep _ (by simp) (by simp)
  have up₃ : s₃.StoresUp := up₂.keep _ (by simp) (by simp)
  have d₁ : s₁.dossier task.id = { s.dossier task.id with live := some task.status } :=
    up.setStatus_dossier ..
  have d₂ : s₂.dossier task.id = { s₁.dossier task.id with cached := some task } :=
    up₁.setTaskMeta_dossier task
  obtain ⟨exec, _, d₃⟩ := up₂.recordExecution_dossier filled
  have d₄ := up₃.updateStatus_dossier task.id task.status
  have clock : s₃.script.clock 0 = s.script.clock (if now = zeroTime then 1 else 0) := by
    have early : s₂.script.clock = s.script.clock := (perform_clock rfl).trans (perform_clock rfl)
    rw [show s₃.script.clock = _ from perform_recordExecution_clock filled s₂, early]
    show (if now = zeroTime then _ else _ : Nat → Time) 0 = _
    split <;> rfl
  refine ⟨exec, ?_⟩
  show (perform (.updateStatus task.id task.status) s₃).2.dossier task.id = _
  rw [d₄, show s₃.dossier task.id = _ from d₃, show s₂.dossier filled.taskID = _ from d₂, d₁, clock]
  unfold Dossier.close
  split
  · rfl
  · rfl

/-- Either finisher closes the dossier with a terminal copy of the task. -/
theorem settle_dossier (w : Worker) (raw : Raw) (task : Task) (durationMs : Int)
    (execErr : Option Error) (up : s.StoresUp) :
    ∃ exec, (Service.run (w.settle raw task durationMs execErr) s).2.dossier task.id =
      (s.dossier task.id).close (closing task (s.script.clock 0) execErr)
        (updateReading s.script.clock) exec := by
  have dated : (perform .now s).2.StoresUp := up.keep _ (by simp) (by simp)
  have reading : (perform .now s).2.script.clock
      (if s.script.clock 0 = zeroTime then 1 else 0) = updateReading s.script.clock := by
    unfold updateReading
    split <;> rfl
  cases execErr with
  | none =>
      obtain ⟨exec, recorded⟩ := w.record_dossier (closing task (s.script.clock 0) none)
        durationMs "" (s.script.clock 0) dated
      rw [reading] at recorded
      refine ⟨exec, ?_⟩
      simp only [settle, finishSuccess_eq, Service.run, Prog.run_call, Prog.run_bind,
        Prog.run_mk_pure, perform_count_dossier]
      exact recorded
  | some taskErr =>
      obtain ⟨exec, recorded⟩ := w.record_dossier (closing task (s.script.clock 0) (some taskErr))
        durationMs taskErr.error (s.script.clock 0) dated
      rw [reading] at recorded
      refine ⟨exec, ?_⟩
      simp only [settle, finishFailure_eq, Service.run, Prog.run_call, Prog.run_bind,
        Prog.run_mk_pure, perform_count_dossier, perform_publish_dossier]
      exact recorded

theorem finish_dossier (w : Worker) (msg : Message Raw) (task : Task) (start : Time)
    (result : Option Error × Nat) (up : s.StoresUp) :
    ∃ exec, (Service.run (w.finish msg task start result) s).2.dossier task.id =
      (s.dossier task.id).close
        (closing { task with attempts := (result.2 : Int) } (s.script.clock 1) result.1)
        (updateReading (rest s.script.clock)) exec := by
  obtain ⟨execErr, attempts⟩ := result
  have dated : (perform .now s).2.StoresUp := up.keep _ (by simp) (by simp)
  obtain ⟨exec, settled⟩ := w.settle_dossier msg.value { task with attempts := (attempts : Int) }
    (milliseconds (Time.sub (perform .now s).1 start)) execErr dated
  refine ⟨exec, ?_⟩
  simp only [finish_eq, Service.run, Prog.run_call, Prog.run_bind, Prog.run_mk_pure,
    perform_count_dossier]
  exact settled

/-- The retry loop writes to the live status alone. -/
theorem execAttempts_dossier (w : Worker) (h : Handler) (task : Task) (s : World Raw) :
    ∃ live, (Service.run (w.execAttempts h task) s).2.dossier task.id =
      { s.dossier task.id with live := live } := by
  refine attemptsFrom_all.run_invariant (I := fun s' : World Raw =>
      ∃ live, s'.dossier task.id = { s.dossier task.id with live := live })
    (fun op s' attempts same => ?_) ⟨_, rfl⟩
  obtain ⟨live, same⟩ := same
  cases op with
  | setStatus id status =>
      obtain ⟨rfl, _⟩ := attempts
      obtain ⟨live', _, written⟩ := perform_setStatus_dossier task.id status s'
      exact ⟨live', written.trans (by rw [same])⟩
  | handle _ _ | count _ _ | wait _ =>
      exact ⟨live, (perform_dossier (by simp [Op.Writes])).trans same⟩
  | _ => exact attempts.elim

/-- The retry loop does not read the clock. -/
theorem execAttempts_clock (w : Worker) (h : Handler) (task : Task) (s : World Raw) :
    (Service.run (w.execAttempts h task) s).2.script.clock = s.script.clock := by
  refine attemptsFrom_all.run_invariant
    (I := fun s' : World Raw => s'.script.clock = s.script.clock)
    (fun op s' attempts same => ?_) rfl
  refine (perform_clock ?_).trans same
  cases op with
  | setStatus _ _ | handle _ _ | count _ _ | wait _ => rfl
  | _ => exact attempts.elim

theorem entered_clock (w : Worker) (task : Task) (s : World Raw) :
    (w.entered task s).script.clock = rest s.script.clock :=
  congrArg rest ((perform_clock rfl).trans (perform_clock rfl))

/-- The check and the start of the execution write to the live status alone. -/
theorem entered_dossier (w : Worker) (task : Task) (s : World Raw) :
    ∃ live, (w.entered task s).dossier task.id = { s.dossier task.id with live := live } := by
  obtain ⟨live, _, written⟩ := perform_setStatus_dossier task.id .running s
  unfold entered
  rw [perform_now_dossier, perform_count_dossier]
  exact ⟨live, written⟩

end Worker

end TaskFlow
