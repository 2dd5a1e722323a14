import Mathlib.Logic.Basic

/-!
# Tasks, their states and errors

The entities of `internal/domain`: the task, its status, the record of an
execution, and the errors the services pass around.  A Go error is the value of
`Error`; `Error.wrap` is `fmt.Errorf` with a trailing `%w`.
-/

namespace TaskFlow

/-- An instant of a UTC clock in nanoseconds since the zero `time.Time`
(January 1 of year 1). -/
abbrev Time : Type := Int

/-- The zero `time.Time`. -/
def zeroTime : Time := 0

/-- One second of `time.Duration`. -/
def second : Time := 1000000000

/-- `t.Sub(u)`: the difference as a 64-bit `time.Duration`, at its bounds where it is too
large. -/
def Time.sub (t u : Time) : Int :=
  max (-9223372036854775808) (min (t - u) 9223372036854775807)

/-- `domain.Status`: the states a task can be in. -/
inductive Status : Type
  | pending | queued | running | done | failed | retrying | dead
deriving DecidableEq, Repr

/-- `Status.IsTerminal`: no further state transitions are possible. -/
def Status.isTerminal (s : Status) : Bool :=
  s == .done || s == .dead || s == .failed

/-- `domain.Task`.  The columns of the `tasks` table are the same fields. -/
structure Task : Type where
  id : String
  type : String
  payload : List UInt8
  status : Status
  priority : Int
  attempts : Int
  maxRetries : Int
  createdAt : Time
  updatedAt : Time
  scheduledAt : Option Time
  completedAt : Option Time
deriving DecidableEq

/-- `domain.TaskExecution`: a row of `task_executions`. -/
structure TaskExecution : Type where
  id : String
  taskID : String
  workerID : String
  attempt : Int
  status : Status
  durationMs : Int
  error : String
  executedAt : Time
deriving DecidableEq

/-- The error values of the services. -/
inductive Error : Type
  | new (text : String)
  | canceled
  | taskNotFound (taskID : String)
  | invalidTaskType (taskType : String)
  | wrap (text : String) (cause : Error)
deriving DecidableEq

/-- The `Error()` text. -/
def Error.error : Error → String
  | .new text => text
  | .canceled => "context canceled"
  | .taskNotFound taskID => "task not found: " ++ taskID
  | .invalidTaskType taskType => "no handler registered for task type \"" ++ taskType ++ "\""
  | .wrap text cause => text ++ ": " ++ cause.error

/-- `errors.As` against `*domain.TaskNotFoundError`: search the wrapped chain. -/
def Error.isNotFound : Error → Bool
  | .taskNotFound _ => true
  | .wrap _ cause => cause.isNotFound
  | _ => false

end TaskFlow
