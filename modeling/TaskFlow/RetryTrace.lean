import TaskFlow.Effect.Prog
import TaskFlow.Retry

/-!
# The conduct of `retry.Do`

`Retry.call` is `retryDo` with its three callbacks left open: the attempt, the
`OnRetry` hook and the wait are calls of a program, answered by an arbitrary
`perform` over an arbitrary state.  So `fn` may be any stateful function, the hook
may change what later attempts see, and each wait may end either way.

`Retry.Conduct` describes the whole ordered transcript: the rounds of failed
attempts whose waits ran out, the last attempt, and what follows it.
-/

namespace TaskFlow

open Effect

/-- What `Do` calls. -/
inductive RetryCall : Type
  | fn
  | onRetry (attempt : Nat) (err : Error)
  | wait (delay : Int64)
deriving DecidableEq

/-- The error of an attempt, nothing from the hook, and from a wait the context's
error if the wait was cancelled. -/
abbrev RetryCall.Ans : RetryCall → Type
  | .fn => Option Error
  | .onRetry _ _ => Unit
  | .wait _ => Option Error

namespace Retry

abbrev Event := Sigma RetryCall.Ans

def config (maxAttempts baseDelay : Int64) (hooked : Bool) :
    RetryConfig (Prog RetryCall RetryCall.Ans) where
  maxAttempts := maxAttempts
  baseDelay := baseDelay
  onRetry :=
    if hooked then some fun attempt err => Prog.op (RetryCall.onRetry attempt err) else none

/-- `Do` with open callbacks; `hooked` tells whether `OnRetry` is set. -/
def call (maxAttempts baseDelay : Int64) (hooked : Bool) :
    Prog RetryCall RetryCall.Ans (Option Error) :=
  retryDo (fun delay => Prog.op (RetryCall.wait delay)) (config maxAttempts baseDelay hooked)
    (Prog.op RetryCall.fn)

/-! ## Events -/

def returned (result : Option Error) : Event := ⟨.fn, result⟩

def waited (delay : Int64) (result : Option Error) : Event := ⟨.wait delay, result⟩

/-- The call of the hook, if there is one. -/
def notified (hooked : Bool) (attempt : Nat) (err : Error) : List Event :=
  if hooked then [⟨.onRetry attempt err, ()⟩] else []

/-- Failed attempts from number `attempt` on, each followed by the hook and a wait
that ran out. -/
def rounds (baseDelay : Int64) (hooked : Bool) : Nat → List Error → List Event
  | _, [] => []
  | attempt, err :: errors =>
      returned (some err) :: notified hooked attempt err ++
        waited (retryDelay baseDelay attempt) none :: rounds baseDelay hooked (attempt + 1) errors

/-- A loop that starts at number `attempt` with `left` attempts after it: `errors`
are those of the attempts it went on from, `last` is the result of the last one and
`tail` the events after that. -/
structure Conduct (baseDelay : Int64) (hooked : Bool) (attempt left : Nat)
    (events : List Event) (result : Option Error)
    (errors : List Error) (last : Option Error) (tail : List Event) : Prop where
  within : errors.length ≤ left
  events : events = rounds baseDelay hooked attempt errors ++ returned last :: tail
  succeeded : last = none → tail = [] ∧ result = none
  exhausted : ∀ err, last = some err → errors.length = left → tail = [] ∧ result = some err
  cancelled : ∀ err, last = some err → errors.length < left → ∃ ctxErr,
    tail = notified hooked (attempt + errors.length) err ++
      [waited (retryDelay baseDelay (attempt + errors.length)) (some ctxErr)] ∧
    result = some (.wrap ("retry cancelled after attempt " ++
      toString (attempt + errors.length)) ctxErr)

/-! ## The loop -/

/-- The loop at number `attempt`, with `left` attempts after it. -/
def loop (maxAttempts baseDelay : Int64) (hooked : Bool) (attempt left : Nat) :
    Prog RetryCall RetryCall.Ans (Option Error) :=
  retryFrom (fun delay => Prog.op (RetryCall.wait delay)) (config maxAttempts baseDelay hooked)
    (Prog.op RetryCall.fn) attempt left

/-- The hook, if there is one, and then the rest. -/
def notifying (hooked : Bool) (attempt : Nat) (err : Error)
    (rest : Prog RetryCall RetryCall.Ans (Option Error)) :
    Prog RetryCall RetryCall.Ans (Option Error) :=
  if hooked then .call (.onRetry attempt err) fun _ => rest else rest

/-- The loop after a wait. -/
def afterWait (maxAttempts baseDelay : Int64) (hooked : Bool) (attempt left : Nat) :
    Option Error → Prog RetryCall RetryCall.Ans (Option Error)
  | none => loop maxAttempts baseDelay hooked (attempt + 1) left
  | some ctxErr =>
      .pure (some (.wrap ("retry cancelled after attempt " ++ toString attempt) ctxErr))

/-- The loop after an attempt that is not the last it is entitled to. -/
def afterAttempt (maxAttempts baseDelay : Int64) (hooked : Bool) (attempt left : Nat) :
    Option Error → Prog RetryCall RetryCall.Ans (Option Error)
  | none => .pure none
  | some err =>
      notifying hooked attempt err
        (.call (.wait (retryDelay baseDelay attempt))
          (afterWait maxAttempts baseDelay hooked attempt left))

variable {W : Type} {maxAttempts baseDelay : Int64} {hooked : Bool} {attempt left : Nat}

theorem loop_zero : loop maxAttempts baseDelay hooked attempt 0 = .call .fn .pure := by
  refine congrArg (Prog.call RetryCall.fn) (funext fun result => ?_)
  cases result <;> rfl

theorem loop_succ : loop maxAttempts baseDelay hooked attempt (left + 1) =
    .call .fn (afterAttempt maxAttempts baseDelay hooked attempt left) := by
  refine congrArg (Prog.call RetryCall.fn) (funext fun result => ?_)
  cases result with
  | none => rfl
  | some err =>
      cases hooked with
      | false =>
          refine congrArg (Prog.call (RetryCall.wait _)) (funext fun ended => ?_)
          cases ended <;> rfl
      | true =>
          refine congrArg (Prog.call (RetryCall.onRetry attempt err)) (funext fun _ => ?_)
          refine congrArg (Prog.call (RetryCall.wait _)) (funext fun ended => ?_)
          cases ended <;> rfl

/-- The hook adds its event and may change the state the rest runs from. -/
theorem notifying_spec (perform : (o : RetryCall) → W → o.Ans × W) (err : Error)
    (rest : Prog RetryCall RetryCall.Ans (Option Error)) (w : W) :
    ∃ w', (notifying hooked attempt err rest).run perform w = rest.run perform w' ∧
      (notifying hooked attempt err rest).transcript perform w =
        notified hooked attempt err ++ rest.transcript perform w' := by
  cases hooked with
  | false => exact ⟨w, rfl, rfl⟩
  | true => exact ⟨(perform (.onRetry attempt err) w).2, rfl, rfl⟩

/-! ## The whole transcript -/

/-- Going on from a failed attempt whose wait ran out. -/
theorem Conduct.round {events : List Event} {result : Option Error} {errors : List Error}
    {last : Option Error} {tail : List Event} (err : Error)
    (rest : Conduct baseDelay hooked (attempt + 1) left events result errors last tail) :
    Conduct baseDelay hooked attempt (left + 1)
      (returned (some err) :: notified hooked attempt err ++
        waited (retryDelay baseDelay attempt) none :: events)
      result (err :: errors) last tail where
  within := Nat.succ_le_succ rest.within
  events := by simp only [rest.events, rounds, List.cons_append, List.append_assoc]
  succeeded := rest.succeeded
  exhausted := fun lastErr failed final => rest.exhausted lastErr failed (Nat.succ.inj final)
  cancelled := fun lastErr failed early => by
    have number : attempt + (err :: errors).length = attempt + 1 + errors.length := by
      rw [List.length_cons]
      omega
    rw [number]
    exact rest.cancelled lastErr failed (Nat.lt_of_succ_lt_succ early)

/-- An attempt that succeeds ends the loop. -/
theorem Conduct.success :
    Conduct baseDelay hooked attempt left [returned none] none [] none [] where
  within := Nat.zero_le left
  events := rfl
  succeeded := fun _ => ⟨rfl, rfl⟩
  exhausted := fun err failed => absurd failed.symm (Option.some_ne_none err)
  cancelled := fun err failed => absurd failed.symm (Option.some_ne_none err)

/-- So does the last attempt when it fails. -/
theorem Conduct.exhaustion (err : Error) :
    Conduct baseDelay hooked attempt 0 [returned (some err)] (some err) [] (some err) [] where
  within := Nat.le_refl 0
  events := rfl
  succeeded := fun none => absurd none (Option.some_ne_none err)
  exhausted := fun _ failed _ => ⟨rfl, failed⟩
  cancelled := fun _ _ early => absurd early (Nat.lt_irrefl 0)

/-- And a cancelled wait. -/
theorem Conduct.cancellation (err ctxErr : Error) :
    Conduct baseDelay hooked attempt (left + 1)
      (returned (some err) :: notified hooked attempt err ++
        [waited (retryDelay baseDelay attempt) (some ctxErr)])
      (some (.wrap ("retry cancelled after attempt " ++ toString attempt) ctxErr))
      [] (some err)
      (notified hooked attempt err ++ [waited (retryDelay baseDelay attempt) (some ctxErr)]) where
  within := Nat.zero_le _
  events := rfl
  succeeded := fun none => absurd none (Option.some_ne_none err)
  exhausted := fun _ _ final => absurd final (Nat.succ_ne_zero left).symm
  cancelled := fun lastErr failed _ => by
    cases failed
    exact ⟨ctxErr, rfl, rfl⟩

theorem loop_conduct (perform : (o : RetryCall) → W → o.Ans × W) (w : W)
    (maxAttempts baseDelay : Int64) (hooked : Bool) (attempt left : Nat) : ∃ errors last tail,
    Conduct baseDelay hooked attempt left
      ((loop maxAttempts baseDelay hooked attempt left).transcript perform w)
      ((loop maxAttempts baseDelay hooked attempt left).run perform w).1 errors last tail := by
  -- The induction is on the attempts left; the hook and the wait move the state on.
  induction left generalizing attempt w with
  | zero =>
      rw [loop_zero, Prog.transcript_call, Prog.run_call]
      cases (perform RetryCall.fn w).1 with
      | none => exact ⟨[], none, [], Conduct.success⟩
      | some err => exact ⟨[], some err, [], Conduct.exhaustion err⟩
  | succ left ih =>
      rw [loop_succ, Prog.transcript_call, Prog.run_call]
      cases (perform RetryCall.fn w).1 with
      | none => exact ⟨[], none, [], Conduct.success⟩
      | some err =>
          dsimp only [afterAttempt]
          obtain ⟨noticed, ran, written⟩ := notifying_spec perform err
            (.call (.wait (retryDelay baseDelay attempt))
              (afterWait maxAttempts baseDelay hooked attempt left)) (perform RetryCall.fn w).2
          rw [ran, written, Prog.transcript_call, Prog.run_call]
          cases (perform (.wait (retryDelay baseDelay attempt)) noticed).1 with
          | none =>
              obtain ⟨errors, last, tail, rest⟩ := ih
                (perform (.wait (retryDelay baseDelay attempt)) noticed).2 (attempt + 1)
              exact ⟨err :: errors, last, tail, rest.round err⟩
          | some ctxErr => exact ⟨[], some err, _, Conduct.cancellation err ctxErr⟩

/-- `Do` ends, after `k = errors.length + 1` attempts, at most as many as it is
entitled to.  All but possibly the last of them failed, and each failed one was
followed by the hook with its number and error and by a wait of `BaseDelay * i²`
that ran out.  If the last one succeeded, nothing follows and the result is nil; if
it failed and was the last allowed, nothing follows and the result is its error; and
otherwise the hook and a cancelled wait follow, and the result is the cancellation. -/
theorem retryDo_conduct {W : Type} (perform : (o : RetryCall) → W → o.Ans × W) (w : W)
    (maxAttempts baseDelay : Int64) (hooked : Bool) :
    ∃ (errors : List Error) (last : Option Error) (tail : List Event),
      errors.length + 1 ≤ entitled maxAttempts ∧
      (call maxAttempts baseDelay hooked).transcript perform w =
        rounds baseDelay hooked 1 errors ++ returned last :: tail ∧
      (((call maxAttempts baseDelay hooked).run perform w).1 = none ↔ last = none) ∧
      (last = none → tail = []) ∧
      (∀ err, last = some err → errors.length + 1 = entitled maxAttempts →
        tail = [] ∧ ((call maxAttempts baseDelay hooked).run perform w).1 = some err) ∧
      (∀ err, last = some err → errors.length + 1 < entitled maxAttempts → ∃ ctxErr,
        tail = notified hooked (errors.length + 1) err ++
          [waited (retryDelay baseDelay (errors.length + 1)) (some ctxErr)] ∧
        ((call maxAttempts baseDelay hooked).run perform w).1 = some
          (.wrap ("retry cancelled after attempt " ++ toString (errors.length + 1)) ctxErr)) := by
  have positive := entitled_pos maxAttempts
  obtain ⟨errors, last, tail, conduct⟩ := loop_conduct perform w maxAttempts baseDelay hooked 1
    (entitled maxAttempts - 1)
  have within := conduct.within
  have cancelled := conduct.cancelled
  rw [Nat.add_comm 1 errors.length] at cancelled
  refine ⟨errors, last, tail, by omega, conduct.events, ⟨?_, fun ok => (conduct.succeeded ok).2⟩,
    fun ok => (conduct.succeeded ok).1, ?_, ?_⟩
  · intro nil
    cases last with
    | none => rfl
    | some err =>
        have failed : ∃ result, ((call maxAttempts baseDelay hooked).run perform w).1 =
            some result := by
          rcases Nat.lt_or_eq_of_le within with early | final
          · obtain ⟨_, _, result⟩ := cancelled err rfl early
            exact ⟨_, result⟩
          · exact ⟨err, (conduct.exhausted err rfl final).2⟩
        obtain ⟨_, some⟩ := failed
        exact absurd (nil.symm.trans some).symm (Option.some_ne_none _)
  · intro err failed final
    exact conduct.exhausted err failed (by omega)
  · intro err failed early
    exact cancelled err failed (by omega)

end Retry

end TaskFlow
