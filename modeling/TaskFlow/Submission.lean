import TaskFlow.Pipeline

/-!
# The two submissions

`REST.SubmitTask` and `GRPC.SubmitTask` validate on their own and then do the same
(`submit_equivalent`).  They part on a type of blanks only, on the payload `null` and
on `scheduled_at` at the epoch, which stands for no time in gRPC; with other fields they
do the same under every failure (`submissions_equivalent`).
`Submission` is a request to either of them, and `Submission.submit_eq` reduces it to
the part they share.
-/

namespace TaskFlow

open Effect

/-- A REST response in the form of the gRPC handler. -/
def SubmitTaskResponse.toGRPC (response : SubmitTaskResponse) : Gateway.GRPCResponse :=
  ⟨response.taskID, response.status, unix response.createdAt⟩

namespace Gateway

variable {Raw : Type} {json : Json Raw} {w : World Raw}

/-- A whole second that has a JSON text, in Unix seconds: the UTC years 0 to 9999. -/
structure WholeSecond : Type where
  sec : Int
  written : -62167219200 ≤ sec ∧ sec < 253402300800
deriving DecidableEq

/-- The decoded body of a REST submission. -/
def restRequest (type : String) (payload : List UInt8) (priority : Int)
    (scheduledAt : Option WholeSecond) : SubmitTaskRequest :=
  ⟨type, payload, priority, scheduledAt.map (ofUnix ·.sec)⟩

/-- The gRPC submission of the same fields. -/
def grpcRequest (type : String) (payload : List UInt8) (priority : Int)
    (scheduledAt : Option WholeSecond) : GRPCRequest :=
  ⟨type, payload, priority, scheduledAt.elim 0 (·.sec)⟩

/-- The Unix epoch, the value of a gRPC field that is not set. -/
def epoch : WholeSecond := ⟨0, by decide⟩

/-- Both reject the request, both fail, or both accept it. -/
inductive SameOutcome : Except Failure SubmitTaskResponse → Except Failure GRPCResponse → Prop
  | invalid (text : String) : SameOutcome (.error (.invalid text)) (.error (.invalid text))
  | internal (text : String) : SameOutcome (.error (.internal text)) (.error (.internal text))
  | accepted (response : SubmitTaskResponse) : SameOutcome (.ok response) (.ok response.toGRPC)

/-- The two submissions end alike and have written the same. -/
structure Equivalent (rest : Except Failure SubmitTaskResponse × World Raw)
    (grpc : Except Failure GRPCResponse × World Raw) : Prop where
  outcome : SameOutcome rest.1 grpc.1
  redis : rest.2.redis = grpc.2.redis
  db : rest.2.db = grpc.2.db
  kafka : rest.2.kafka = grpc.2.kafka

/-- Enqueueing fails with an internal error or not at all. -/
theorem enqueue_failure (json : Json Raw) (task : Task) (w : World Raw) :
    (Service.run (enqueue json task) w).1 = none ∨
      ∃ text, (Service.run (enqueue json task) w).1 = some (.internal text) := by
  simp only [Service.run, enqueue, ask, Prog.op_bind, Prog.run_call]
  split
  · exact .inr ⟨_, rfl⟩
  · rw [Prog.run_call]
    split
    · exact .inr ⟨_, rfl⟩
    · rw [Prog.run_call, Prog.run_call]
      split
      · exact .inr ⟨_, rfl⟩
      · exact .inl rfl

/-- Past the validation the submissions differ in the answer and the metric alone. -/
theorem submit_equivalent (json : Json Raw) (req : SubmitTaskRequest) (w : World Raw) :
    Equivalent (Service.run (submit json req (restAnswer req)) w)
      (Service.run (submit json req grpcAnswer) w) := by
  rw [submit_eq, submit_eq]
  dsimp only
  rcases enqueue_failure json (newTask req (w.script.uuid 0) (w.script.clock 0)) w.draw.tick with
    accepted | ⟨text, failed⟩
  · rw [accepted]
    exact ⟨.accepted ⟨_, .pending, _⟩, rfl, rfl, rfl⟩
  · rw [failed]
    exact ⟨.internal text, rfl, rfl, rfl⟩

/-- The fields on which the two handlers do the same: no type, which both reject, or
none of the values that only one of them takes for absent. -/
def Alike (type : String) (payload : List UInt8) (scheduledAt : Option WholeSecond) : Prop :=
  type = "" ∨ isBlank type = false ∧ payload ≠ nullText ∧ scheduledAt ≠ some epoch

theorem grpcRequest_fields {type : String} {payload : List UInt8} {priority : Int}
    {scheduledAt : Option WholeSecond} (real : scheduledAt ≠ some epoch) :
    (grpcRequest type payload priority scheduledAt).fields =
      restRequest type payload priority scheduledAt := by
  cases scheduledAt with
  | none => rfl
  | some moment =>
      have nonzero : moment.sec ≠ 0 := by
        intro zero
        apply real
        cases moment
        cases zero
        rfl
      simp [grpcRequest, GRPCRequest.fields, restRequest, nonzero]

theorem isBlank_empty : isBlank "" = true := rfl

/-- **The two submissions.**  For a payload that is not empty and fields that are alike,
they do the same under every failure. -/
theorem submissions_equivalent (json : Json Raw) (type : String) (payload : List UInt8)
    (priority : Int) (scheduledAt : Option WholeSecond) (filled : payload ≠ [])
    (alike : Alike type payload scheduledAt) (w : World Raw) : Equivalent
      (Service.run (restSubmitTask json (some (restRequest type payload priority scheduledAt))) w)
      (Service.run (grpcSubmitTask json (grpcRequest type payload priority scheduledAt)) w) := by
  rcases alike with rfl | ⟨named, notNull, real⟩
  · exact ⟨.invalid _, rfl, rfl, rfl⟩
  · have nonempty : type ≠ "" := by
      rintro rfl
      rw [isBlank_empty] at named
      cases named
    have rest : restSubmitTask json (some (restRequest type payload priority scheduledAt)) =
        submit json (restRequest type payload priority scheduledAt)
          (restAnswer (restRequest type payload priority scheduledAt)) := by
      simp [restSubmitTask, restRequest, named, filled, notNull]
    have grpc : grpcSubmitTask json (grpcRequest type payload priority scheduledAt) =
        submit json (restRequest type payload priority scheduledAt) grpcAnswer := by
      rw [← grpcRequest_fields real]
      simp [grpcSubmitTask, grpcRequest, nonempty, filled]
    rw [rest, grpc]
    exact submit_equivalent json _ w

theorem submissions_equivalent_email : Equivalent
    (Service.run (restSubmitTask plainJson (some (restRequest "email" [123, 125] 1 none)))
      (World.fresh .calm))
    (Service.run (grpcSubmitTask plainJson (grpcRequest "email" [123, 125] 1 none))
      (World.fresh .calm)) :=
  submissions_equivalent plainJson "email" [123, 125] 1 none (by decide) (.inr (by decide))
    (World.fresh .calm)

theorem not_equivalent_of_invalid {rest : Except Failure SubmitTaskResponse × World Raw}
    {grpc : Except Failure GRPCResponse × World Raw} (text : String) {response : GRPCResponse}
    (rejected : rest.1 = .error (.invalid text)) (accepted : grpc.1 = .ok response) :
    ¬ Equivalent rest grpc := by
  intro same
  have outcome := same.outcome
  rw [rejected, accepted] at outcome
  cases outcome

/-- A blank type and the payload `null` are rejected by one handler alone, and the epoch
is a time for one handler alone. -/
theorem submissions_differ :
    (¬ Equivalent
      (Service.run (restSubmitTask plainJson (some (restRequest " " [123, 125] 1 none)))
        (World.fresh .calm))
      (Service.run (grpcSubmitTask plainJson (grpcRequest " " [123, 125] 1 none))
        (World.fresh .calm))) ∧
    (¬ Equivalent
      (Service.run (restSubmitTask plainJson (some (restRequest "email" nullText 1 none)))
        (World.fresh .calm))
      (Service.run (grpcSubmitTask plainJson (grpcRequest "email" nullText 1 none))
        (World.fresh .calm))) ∧
    ¬ Equivalent
      (Service.run (restSubmitTask plainJson (some (restRequest "email" [123, 125] 1 (some epoch))))
        (World.fresh .calm))
      (Service.run (grpcSubmitTask plainJson (grpcRequest "email" [123, 125] 1 (some epoch)))
        (World.fresh .calm)) := by
  refine ⟨not_equivalent_of_invalid "field 'type' is required" (by decide) rfl,
    not_equivalent_of_invalid "field 'payload' is required" (by decide) rfl, fun same => ?_⟩
  have cached := congrFun (congrArg Redis.metas same.redis) "0"
  revert cached
  decide

end Gateway

/-! ## A request to either handler -/

/-- A request to the gateway. -/
inductive Submission : Type
  | rest (body : Option SubmitTaskRequest)
  | grpc (req : Gateway.GRPCRequest)

namespace Submission

variable {Raw : Type} {req : SubmitTaskRequest}

/-- The failure an answer reports. -/
def failure {α : Type} : Except Failure α → Option Failure
  | .error failure => some failure
  | .ok _ => none

/-- The submission, with the failure it reports. -/
def submit (json : Json Raw) : Submission → Service Raw (Option Failure)
  | .rest body => Gateway.restSubmitTask json body >>= fun answer => pure (failure answer)
  | .grpc req => Gateway.grpcSubmitTask json req >>= fun answer => pure (failure answer)

/-- The fields of a request that passes the validation of its handler. -/
def fields : Submission → Option SubmitTaskRequest
  | .rest none => none
  | .rest (some req) =>
      if isBlank req.type then none
      else if req.payload = [] ∨ req.payload = nullText then none
      else some req
  | .grpc req =>
      if req.type = "" then none else if req.payload = [] then none else some req.fields

/-- The answer reports the failure it is given. -/
def Reports (answer : String → Time → Option Failure → Service Raw (Option Failure)) : Prop :=
  ∀ id now failed (w : World Raw), (Service.run (answer id now failed) w).1 = failed

/-- The requests that pass the validation. -/
theorem fields_cases {r : Submission} (valid : r.fields = some req) :
    (r = .rest (some req) ∧ ¬ isBlank req.type = true ∧
      ¬ (req.payload = [] ∨ req.payload = nullText)) ∨
    ∃ body, r = .grpc body ∧ body.fields = req ∧ body.type ≠ "" ∧ body.payload ≠ [] := by
  cases r with
  | rest body =>
      cases body with
      | none => cases valid
      | some body =>
          simp only [fields, Option.ite_none_left_eq_some, Option.some.injEq] at valid
          obtain ⟨named, filled, rfl⟩ := valid
          exact .inl ⟨rfl, named, filled⟩
  | grpc body =>
      simp only [fields, Option.ite_none_left_eq_some, Option.some.injEq] at valid
      obtain ⟨named, filled, rfl⟩ := valid
      exact .inr ⟨body, rfl, rfl, named, filled⟩

/-- A request that passes is submitted; its answer at most counts. -/
theorem submit_eq (json : Json Raw) {r : Submission} (valid : r.fields = some req) :
    ∃ answer, Gateway.Counts answer ∧ Reports answer ∧
      r.submit json = Gateway.submit json req answer := by
  rcases fields_cases valid with ⟨rfl, named, filled⟩ | ⟨body, rfl, rfl, named, filled⟩
  · refine ⟨fun id now failed => Gateway.restAnswer req id now failed >>= fun answer =>
      pure (failure answer), fun id now failed => ?_, fun id now failed w => ?_, ?_⟩
    · exact (Gateway.restAnswer_counts req id now failed).bind fun _ => trivial
    · cases failed <;> rfl
    · simp only [submit, Gateway.restSubmitTask, if_neg named, if_neg filled, Gateway.submit,
        Prog.bind_assoc]
  · refine ⟨fun id now failed => Gateway.grpcAnswer id now failed >>= fun answer =>
      pure (failure answer), fun id now failed => ?_, fun id now failed w => ?_, ?_⟩
    · exact (Gateway.grpcAnswer_counts id now failed).bind fun _ => trivial
    · cases failed <;> rfl
    · simp only [submit, Gateway.grpcSubmitTask, if_neg named, if_neg filled, Gateway.submit,
        Prog.bind_assoc]

/-- Any other request is answered at once. -/
theorem submit_invalid (json : Json Raw) {r : Submission} (invalid : r.fields = none) :
    ∃ failed, r.submit json = .pure failed := by
  cases r with
  | rest body =>
      cases body with
      | none => exact ⟨_, rfl⟩
      | some body =>
          dsimp only [fields] at invalid
          simp only [submit, Gateway.restSubmitTask]
          split at invalid
          · rename_i blank
            exact ⟨_, by rw [if_pos blank]; rfl⟩
          · rename_i named
            split at invalid
            · rename_i empty
              exact ⟨_, by rw [if_neg named, if_pos empty]; rfl⟩
            · cases invalid
  | grpc body =>
      dsimp only [fields] at invalid
      simp only [submit, Gateway.grpcSubmitTask]
      split at invalid
      · rename_i blank
        exact ⟨_, by rw [if_pos blank]; rfl⟩
      · rename_i named
        split at invalid
        · rename_i empty
          exact ⟨_, by rw [if_neg named, if_pos empty]; rfl⟩
        · cases invalid

/-- A request that passes the validation has a type. -/
theorem fields_typed {r : Submission} (valid : r.fields = some req) : req.type ≠ "" := by
  rcases fields_cases valid with ⟨_, named, _⟩ | ⟨body, _, rfl, named, _⟩
  · intro empty
    rw [empty] at named
    exact named Gateway.isBlank_empty
  · exact named

end Submission

end TaskFlow
