import Mathlib.Algebra.Group.Nat.Defs
import TaskFlow.Dispatcher

/-!
# `services/api-gateway/handler`

Submission and status lookup of the REST and the gRPC handler.  The two
submissions validate and decode on their own and then do the same (`submit`,
`enqueue`); the lookups read three places (`lookup`) and render a response.
-/

namespace TaskFlow

open Effect

/-- Seconds from the zero `time.Time` to the Unix epoch. -/
def unixEpoch : Int := 62135596800

/-- `time.Unix(sec, 0).UTC()`. -/
def ofUnix (sec : Int) : Time := (sec + unixEpoch) * second

/-- `Time.Unix()`. -/
def unix (t : Time) : Int := t / second - unixEpoch

/-- `unicode.IsSpace`. -/
def isSpace (c : Char) : Bool :=
  c.toNat ∈ [0x09, 0x0A, 0x0B, 0x0C, 0x0D, 0x20, 0x85, 0xA0, 0x1680, 0x2028, 0x2029, 0x202F,
    0x205F, 0x3000] || (0x2000 ≤ c.toNat && c.toNat ≤ 0x200A)

/-- `strings.TrimSpace(s) == ""`. -/
def isBlank (s : String) : Bool := s.toList.all isSpace

/-- The bytes of `null`. -/
def nullText : List UInt8 := [110, 117, 108, 108]

/-- The fields of a submission, REST and gRPC. -/
structure SubmitTaskRequest : Type where
  type : String
  payload : List UInt8
  priority : Int
  scheduledAt : Option Time

/-- `SubmitTaskResponse`. -/
structure SubmitTaskResponse : Type where
  taskID : String
  status : Status
  createdAt : Time
deriving DecidableEq

/-- How a request ends without a result: rejected as invalid, not found, or an
internal error, each with its text. -/
inductive Failure : Type
  | invalid (text : String)
  | notFound (text : String)
  | internal (text : String)
deriving DecidableEq

namespace Gateway

variable {Raw : Type}

/-- The task a submission creates. -/
def newTask (req : SubmitTaskRequest) (taskID : String) (now : Time) : Task where
  id := taskID
  type := req.type
  payload := req.payload
  status := .pending
  priority := req.priority
  attempts := 0
  maxRetries := 3
  createdAt := now
  updatedAt := now
  scheduledAt := req.scheduledAt
  completedAt := none

/-- The calls of both `SubmitTask`s, and the failure they report.  Only the
insert is allowed to fail.  Marshalling has succeeded in `SetTaskMeta` already. -/
def enqueue (json : Json Raw) (task : Task) : Service Raw (Option Failure) := do
  match ← ask (.setTaskMeta task) with
  | some _ => pure (some (.internal "failed to create task"))
  | none => do
      match ← ask (.setStatus task.id .pending) with
      | some _ => pure (some (.internal "failed to create task"))
      | none => do
          let _ ← ask (.create task)
          match ← ask (.publish topicPending task.id (json.marshal task) .gateway) with
          | some _ => pure (some (.internal "failed to enqueue task"))
          | none => pure none

/-- Both `SubmitTask`s past their validation: name the task, enqueue it, answer. -/
def submit {α : Type} (json : Json Raw) (req : SubmitTaskRequest)
    (answer : String → Time → Option Failure → Service Raw α) : Service Raw α := do
  let taskID ← ask .newUUID
  let now ← ask .now
  let failed ← enqueue json (newTask req taskID now)
  answer taskID now failed

/-- The answer of `REST.SubmitTask`; an accepted task is counted. -/
def restAnswer (req : SubmitTaskRequest) (taskID : String) (now : Time) :
    Option Failure → Service Raw (Except Failure SubmitTaskResponse)
  | some failure => pure (.error failure)
  | none => do
      let _ ← ask (.count (.apiTasksSubmitted req.type) 1)
      pure (.ok ⟨taskID, .pending, now⟩)

/-- `REST.SubmitTask` on the decoded body, `none` when it does not decode. -/
def restSubmitTask (json : Json Raw) :
    Option SubmitTaskRequest → Service Raw (Except Failure SubmitTaskResponse)
  | none => pure (.error (.invalid "invalid request body"))
  | some req =>
      if isBlank req.type then
        pure (.error (.invalid "field 'type' is required"))
      else if req.payload = [] ∨ req.payload = nullText then
        pure (.error (.invalid "field 'payload' is required"))
      else submit json req (restAnswer req)

/-- The request of `GRPC.SubmitTask`: `scheduled_at` in seconds, 0 for none. -/
structure GRPCRequest : Type where
  type : String
  payload : List UInt8
  priority : Int
  scheduledAt : Int

/-- The fields a gRPC request stands for. -/
def GRPCRequest.fields (req : GRPCRequest) : SubmitTaskRequest where
  type := req.type
  payload := req.payload
  priority := req.priority
  scheduledAt := if req.scheduledAt = 0 then none else some (ofUnix req.scheduledAt)

/-- The response of `GRPC.SubmitTask`: `created_at` in seconds. -/
structure GRPCResponse : Type where
  taskID : String
  status : Status
  createdAt : Int
deriving DecidableEq

/-- The answer of `GRPC.SubmitTask`. -/
def grpcAnswer (taskID : String) (now : Time) :
    Option Failure → Service Raw (Except Failure GRPCResponse)
  | some failure => pure (.error failure)
  | none => pure (.ok ⟨taskID, .pending, unix now⟩)

/-- `GRPC.SubmitTask`. -/
def grpcSubmitTask (json : Json Raw) (req : GRPCRequest) :
    Service Raw (Except Failure GRPCResponse) :=
  if req.type = "" then
    pure (.error (.invalid "field 'type' is required"))
  else if req.payload = [] then
    pure (.error (.invalid "field 'payload' is required"))
  else submit json req.fields grpcAnswer

/-! ## Status lookup -/

/-- The fast path and the fallback of `GetTaskStatus`, before the live status is
read. -/
def find (id : String) : Service Raw (Except Failure Task) := do
  match ← ask (.getTaskMeta id) with
  | .ok task => pure (.ok task)
  | .error err =>
      if err.isNotFound then do
        match ← ask (.getByID id) with
        | .ok task => pure (.ok task)
        | .error err =>
            if err.isNotFound then pure (.error (.notFound "task not found"))
            else pure (.error (.internal "failed to retrieve task"))
      else pure (.error (.internal "failed to retrieve task"))

/-- The task `GetTaskStatus` reports: the record found, with the live status when
there is one. -/
def lookup (id : String) : Service Raw (Except Failure Task) := do
  match ← find id with
  | .error failure => pure (.error failure)
  | .ok task => do
      match ← ask (.getStatus id) with
      | .ok status => pure (.ok { task with status })
      | .error _ => pure (.ok task)

/-- `CompletedAt.Sub(CreatedAt).Milliseconds()`, 0 while not completed. -/
def durationMs (task : Task) : Int :=
  match task.completedAt with
  | none => 0
  | some completedAt => (Time.sub completedAt task.createdAt).tdiv 1000000

/-- `TaskStatusResponse` of the REST handler. -/
structure TaskStatusResponse : Type where
  taskID : String
  type : String
  status : Status
  priority : Int
  attempts : Int
  createdAt : Time
  completedAt : Option Time
  durationMs : Int
deriving DecidableEq

/-- The response of `REST.GetTaskStatus` for a task. -/
def statusResponse (task : Task) : TaskStatusResponse where
  taskID := task.id
  type := task.type
  status := task.status
  priority := task.priority
  attempts := task.attempts
  createdAt := task.createdAt
  completedAt := task.completedAt
  durationMs := durationMs task

/-- `REST.GetTaskStatus`. -/
def restGetTaskStatus (id : String) : Service Raw (Except Failure TaskStatusResponse) :=
  if id = "" then pure (.error (.invalid "task ID is required"))
  else do
    match ← lookup id with
    | .error failure => pure (.error failure)
    | .ok task => pure (.ok (statusResponse task))

/-- `int32(n)`. -/
def int32 (n : Int) : Int := n.bmod (2 ^ 32)

/-- `taskv1.TaskStatusResponse`: times in seconds, 0 while not completed. -/
structure GRPCStatusResponse : Type where
  taskID : String
  type : String
  status : Status
  attempts : Int
  createdAt : Int
  completedAt : Int
  durationMs : Int
deriving DecidableEq

/-- The response of `GRPC.GetTaskStatus` for a task. -/
def grpcStatusResponse (task : Task) : GRPCStatusResponse where
  taskID := task.id
  type := task.type
  status := task.status
  attempts := int32 task.attempts
  createdAt := unix task.createdAt
  completedAt := task.completedAt.elim 0 unix
  durationMs := durationMs task

/-- `GRPC.GetTaskStatus`. -/
def grpcGetTaskStatus (id : String) : Service Raw (Except Failure GRPCStatusResponse) :=
  if id = "" then pure (.error (.invalid "task_id is required"))
  else do
    match ← lookup id with
    | .error failure => pure (.error failure)
    | .ok task => pure (.ok (grpcStatusResponse task))

end Gateway

end TaskFlow
