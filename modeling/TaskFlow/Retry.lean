import TaskFlow.Domain

/-!
# `pkg/retry`

`retryDo` is `retry.Do` in any monad: the attempt, the `OnRetry` callback and
the wait are actions of it.  The loop counter runs from 1 to `MaxAttempts`, which
is a positive 64-bit number once it is clamped, so it is counted in `Nat` and the
recursion is on the attempts left; only the delay is computed in the wrapping
arithmetic of `time.Duration`.
-/

namespace TaskFlow

/-- `retry.Config`. -/
structure RetryConfig (m : Type → Type) : Type where
  maxAttempts : Int64
  baseDelay : Int64
  onRetry : Option (Nat → Error → m Unit)

/-- The attempts `Do` is entitled to: `MaxAttempts`, or 1 when it is not positive. -/
def entitled (maxAttempts : Int64) : Nat :=
  if maxAttempts ≤ 0 then 1 else maxAttempts.toInt.toNat

theorem entitled_pos (maxAttempts : Int64) : 0 < entitled maxAttempts := by
  unfold entitled
  split
  · exact Nat.one_pos
  · rename_i positive
    have : ¬ maxAttempts.toInt ≤ 0 := fun le => positive (Int64.le_iff_toInt_le.mpr le)
    omega

/-- The wait after an attempt, in 64-bit arithmetic. -/
def retryDelay (baseDelay : Int64) (attempt : Nat) : Int64 :=
  baseDelay * (Int64.ofNat attempt * Int64.ofNat attempt)

variable {m : Type → Type}

/-- `cfg.BaseDelay * time.Duration(attempt*attempt)`. -/
def RetryConfig.delay (cfg : RetryConfig m) (attempt : Nat) : Int64 :=
  retryDelay cfg.baseDelay attempt

variable [Monad m]

/-- The loop of `Do` at attempt number `attempt`, with `left` attempts after it.
`wait` is the `select` between the timer and the context. -/
def retryFrom (wait : Int64 → m (Option Error)) (cfg : RetryConfig m)
    (fn : m (Option Error)) (attempt : Nat) : Nat → m (Option Error)
  | 0 => do
      match ← fn with
      | none => pure none
      | some lastErr => pure (some lastErr)
  | left + 1 => do
      match ← fn with
      | none => pure none
      | some lastErr => do
          match cfg.onRetry with
          | none => pure ()
          | some onRetry => onRetry attempt lastErr
          match ← wait (cfg.delay attempt) with
          | none => retryFrom wait cfg fn (attempt + 1) left
          | some ctxErr =>
              pure (some (.wrap ("retry cancelled after attempt " ++ toString attempt) ctxErr))

/-- `retry.Do`. -/
def retryDo (wait : Int64 → m (Option Error)) (cfg : RetryConfig m)
    (fn : m (Option Error)) : m (Option Error) :=
  retryFrom wait cfg fn 1 (entitled cfg.maxAttempts - 1)

end TaskFlow
