import TaskFlow.Effect.Machine
import TaskFlow.Residue

/-!
# `GRPC.BulkSubmitTasks`

The handler receives requests until the stream ends, submits each as `SubmitTask`
does, counts the outcomes in 32-bit counters and collects the ids.

* `bulkSubmitTasks_run`: it does what separate calls of `SubmitTask` do, one after
  the other, and reports their outcomes.
* `grpcSubmitTask_spec`: one call appends the message of the id it answers with, or
  fails and appends nothing.
-/

namespace TaskFlow

open Effect

namespace Gateway

variable {Raw : Type}

/-- `taskv1.BulkSubmitResponse`. -/
structure BulkSubmitResponse : Type where
  submitted : Int
  failed : Int
  taskIDs : List String
deriving DecidableEq

/-- The loop of `BulkSubmitTasks` over the requests still to come.  `ended` is the
error of `Recv` after them, none for `io.EOF`. -/
def bulkSubmitFrom (json : Json Raw) (ended : Option Error) :
    Int → Int → List String → List GRPCRequest → Service Raw (Except Failure BulkSubmitResponse)
  | submitted, failed, taskIDs, [] =>
      match ended with
      | none => pure (.ok ⟨submitted, failed, taskIDs⟩)
      | some err => pure (.error (.internal ("stream recv: " ++ err.error)))
  | submitted, failed, taskIDs, req :: requests => do
      match ← grpcSubmitTask json req with
      | .error _ => bulkSubmitFrom json ended submitted (int32 (failed + 1)) taskIDs requests
      | .ok resp =>
          bulkSubmitFrom json ended (int32 (submitted + 1)) failed (taskIDs ++ [resp.taskID])
            requests

/-- `GRPC.BulkSubmitTasks`. -/
def bulkSubmitTasks (json : Json Raw) (requests : List GRPCRequest) (ended : Option Error) :
    Service Raw (Except Failure BulkSubmitResponse) :=
  bulkSubmitFrom json ended 0 0 [] requests

/-- Separate calls of `SubmitTask`, one after the other: their outcomes and the world
after them. -/
def submitEach (json : Json Raw) :
    List GRPCRequest → World Raw → List (Except Failure GRPCResponse) × World Raw :=
  serveAll fun req w => Service.run (grpcSubmitTask json req) w

/-- The ids of the accepted requests. -/
def acceptedIDs (outcomes : List (Except Failure GRPCResponse)) : List String :=
  outcomes.filterMap fun outcome => outcome.toOption.map (·.taskID)

/-- The number of the others. -/
def failures (outcomes : List (Except Failure GRPCResponse)) : Nat :=
  outcomes.countP fun outcome => outcome.toOption.isNone

section Outcomes

variable (outcomes : List (Except Failure GRPCResponse)) (failure : Failure) (resp : GRPCResponse)

@[simp] theorem acceptedIDs_error :
    acceptedIDs (.error failure :: outcomes) = acceptedIDs outcomes := rfl

@[simp] theorem acceptedIDs_ok :
    acceptedIDs (.ok resp :: outcomes) = resp.taskID :: acceptedIDs outcomes := rfl

@[simp] theorem failures_error :
    failures (.error failure :: outcomes) = failures outcomes + 1 := by
  simp [failures, Except.toOption]

@[simp] theorem failures_ok : failures (.ok resp :: outcomes) = failures outcomes := by
  simp [failures, Except.toOption]

/-- Every outcome is counted once. -/
theorem accepted_add_failures :
    (acceptedIDs outcomes).length + failures outcomes = outcomes.length := by
  induction outcomes with
  | nil => rfl
  | cons outcome outcomes ih =>
      cases outcome with
      | error failure =>
          rw [acceptedIDs_error, failures_error, List.length_cons]
          omega
      | ok resp =>
          rw [acceptedIDs_ok, failures_ok, List.length_cons, List.length_cons]
          omega

end Outcomes

theorem submitEach_cons (json : Json Raw) (req : GRPCRequest) (requests : List GRPCRequest)
    (w : World Raw) :
    submitEach json (req :: requests) w =
      ((Service.run (grpcSubmitTask json req) w).1 ::
          (submitEach json requests (Service.run (grpcSubmitTask json req) w).2).1,
        (submitEach json requests (Service.run (grpcSubmitTask json req) w).2).2) := rfl

theorem submitEach_length (json : Json Raw) (requests : List GRPCRequest) (w : World Raw) :
    (submitEach json requests w).1.length = requests.length := by
  induction requests generalizing w with
  | nil => rfl
  | cons req requests ih =>
      rw [submitEach_cons, List.length_cons, List.length_cons, ih]

/-! ## The loop -/

theorem int32_of_lt {n : Nat} (small : n < 2 ^ 31) : int32 n = n := by
  unfold int32
  rw [Int.bmod_def]
  omega

/-- The loop after one submission. -/
def afterSubmit (json : Json Raw) (ended : Option Error) (submitted failed : Int)
    (taskIDs : List String) (requests : List GRPCRequest) :
    Except Failure GRPCResponse → Service Raw (Except Failure BulkSubmitResponse)
  | .error _ => bulkSubmitFrom json ended submitted (int32 (failed + 1)) taskIDs requests
  | .ok resp =>
      bulkSubmitFrom json ended (int32 (submitted + 1)) failed (taskIDs ++ [resp.taskID]) requests

theorem bulkSubmitFrom_cons (json : Json Raw) (ended : Option Error) (submitted failed : Int)
    (taskIDs : List String) (req : GRPCRequest) (requests : List GRPCRequest) :
    bulkSubmitFrom json ended submitted failed taskIDs (req :: requests) =
      grpcSubmitTask json req >>= afterSubmit json ended submitted failed taskIDs requests := by
  refine congrArg (grpcSubmitTask json req >>= ·) (funext fun outcome => ?_)
  cases outcome <;> rfl

/-- The loop, with counters that do not overflow: the outcomes of separate calls. -/
theorem bulkSubmitFrom_run (json : Json Raw) (requests : List GRPCRequest) (w : World Raw)
    (submitted failed : Nat) (taskIDs : List String)
    (short : submitted + failed + requests.length < 2 ^ 31) :
    Service.run (bulkSubmitFrom json none submitted failed taskIDs requests) w =
      (.ok ⟨(submitted + (acceptedIDs (submitEach json requests w).1).length : Nat),
          (failed + failures (submitEach json requests w).1 : Nat),
          taskIDs ++ acceptedIDs (submitEach json requests w).1⟩,
        (submitEach json requests w).2) := by
  induction requests generalizing w submitted failed taskIDs with
  | nil =>
      simp [bulkSubmitFrom, submitEach, serveAll, acceptedIDs, failures, Service.run]
  | cons req requests ih =>
      rw [List.length_cons] at short
      have run : Service.run (bulkSubmitFrom json none submitted failed taskIDs (req :: requests))
          w = Service.run
            (afterSubmit json none submitted failed taskIDs requests
              (Service.run (grpcSubmitTask json req) w).1)
            (Service.run (grpcSubmitTask json req) w).2 := by
        rw [bulkSubmitFrom_cons]
        exact Prog.run_bind ..
      rw [run, submitEach_cons]
      cases (Service.run (grpcSubmitTask json req) w).1 with
      | error failure =>
          have next : int32 ((failed : Int) + 1) = ((failed + 1 : Nat) : Int) :=
            int32_of_lt (n := failed + 1) (by omega)
          rw [afterSubmit, next, ih _ submitted (failed + 1) taskIDs (by omega), acceptedIDs_error,
            failures_error, Nat.add_right_comm failed 1, Nat.add_assoc failed]
      | ok resp =>
          have next : int32 ((submitted : Int) + 1) = ((submitted + 1 : Nat) : Int) :=
            int32_of_lt (n := submitted + 1) (by omega)
          rw [afterSubmit, next, ih _ (submitted + 1) failed (taskIDs ++ [resp.taskID]) (by omega),
            acceptedIDs_ok, failures_ok, List.append_assoc, List.singleton_append,
            List.length_cons, Nat.add_right_comm submitted 1, Nat.add_assoc submitted]

/-! ## One submission -/

/-- How the calls of a submission end, by what fails. -/
def enqueueOutcome (w : World Raw) : Option Failure :=
  if w.fails .setTaskMeta then some (.internal "failed to create task")
  else if w.fails .setStatus then some (.internal "failed to create task")
  else if w.fails .publish then some (.internal "failed to enqueue task")
  else none

theorem enqueue_outcome (json : Json Raw) (task : Task) (w : World Raw) :
    (Service.run (enqueue json task) w).1 = enqueueOutcome w := by
  unfold enqueueOutcome
  rcases enqueue_cases json task w with ⟨first, run⟩ | ⟨first, second, run⟩ |
    ⟨first, second, third, run⟩ | ⟨first, second, third, run⟩
  · simp [run, first]
  · simp [run, first, second]
  · simp [run, first, second, third]
  · simp [run, first, second, third]

/-- The log grows by the message of an accepted task. -/
theorem enqueue_log (json : Json Raw) (task : Task) (w : World Raw) :
    (Service.run (enqueue json task) w).2.kafka = w.kafka ++
      if enqueueOutcome w = none then [⟨⟨topicPending, task.id, json.marshal task⟩, .gateway⟩]
      else [] := by
  have cachedKafka : (cached task w).kafka = w.kafka := perform_kafka (by simp)
  have markedKafka : (marked task w).kafka = w.kafka :=
    (perform_kafka (by simp)).trans cachedKafka
  have publishedKafka : (published json task w).kafka = w.kafka ++
      if w.fails .publish then [] else
        [⟨⟨topicPending, task.id, json.marshal task⟩, .gateway⟩] := by
    unfold published
    rw [perform_publish_kafka, marked_fails_publish, perform_kafka (by simp), markedKafka]
  unfold enqueueOutcome
  rcases enqueue_cases json task w with ⟨first, run⟩ | ⟨first, second, run⟩ |
    ⟨first, second, third, run⟩ | ⟨first, second, third, run⟩
  · simp [run, first, cachedKafka]
  · simp [run, first, second, markedKafka]
  · simp [run, first, second, third, publishedKafka]
  · simp [run, first, second, third, publishedKafka]

/-- Enqueueing draws no identifier. -/
theorem enqueue_uuid (json : Json Raw) (task : Task) (w : World Raw) :
    (Service.run (enqueue json task) w).2.script.uuid = w.script.uuid := by
  have quiet : Prog.All (fun op => op ≠ .newUUID ∧ ∀ exec, op ≠ .recordExecution exec)
      (enqueue json task) := enqueue_calls (by simp) (by simp) (by simp) (by simp)
  refine quiet.run_invariant (I := fun w' : World Raw => w'.script.uuid = w.script.uuid) ?_ rfl
  intro op w' quiet same
  exact (perform_uuid_same quiet.1 quiet.2).trans same

/-- The answer of `GRPC.SubmitTask` to a task, by how its calls ended. -/
def grpcOutcome (taskID : String) (now : Time) : Option Failure → Except Failure GRPCResponse
  | some failure => .error failure
  | none => .ok ⟨taskID, .pending, unix now⟩

/-- A request that passes the validation. -/
theorem grpcSubmitTask_valid (json : Json Raw) {req : GRPCRequest} (named : req.type ≠ "")
    (filled : req.payload ≠ []) (w : World Raw) :
    Service.run (grpcSubmitTask json req) w =
      (grpcOutcome (w.script.uuid 0) (w.script.clock 0) (enqueueOutcome w.draw.tick),
        (Service.run (enqueue json
          (newTask req.fields (w.script.uuid 0) (w.script.clock 0))) w.draw.tick).2) := by
  rw [grpcSubmitTask, if_neg named, if_neg filled, submit_eq]
  dsimp only
  rw [enqueue_outcome]
  cases enqueueOutcome w.draw.tick <;> rfl

/-- A request that does not. -/
theorem grpcSubmitTask_invalid (json : Json Raw) {req : GRPCRequest}
    (invalid : req.type = "" ∨ req.payload = []) :
    ∃ failure, ∀ w, Service.run (grpcSubmitTask json req) w = (.error failure, w) := by
  unfold grpcSubmitTask
  by_cases named : req.type = ""
  · exact ⟨.invalid "field 'type' is required", fun w => by rw [if_pos named]; rfl⟩
  · have empty : req.payload = [] := invalid.resolve_left named
    exact ⟨.invalid "field 'payload' is required", fun w => by
      rw [if_neg named, if_pos empty]
      rfl⟩

/-- The outcome of a submission is decided by its surroundings alone. -/
theorem grpcSubmitTask_surroundings (json : Json Raw) (req : GRPCRequest) {v w : World Raw}
    (script : v.script = w.script) (cancelled : v.cancelled = w.cancelled) :
    (Service.run (grpcSubmitTask json req) v).1 = (Service.run (grpcSubmitTask json req) w).1 := by
  by_cases invalid : req.type = "" ∨ req.payload = []
  · obtain ⟨failure, run⟩ := grpcSubmitTask_invalid json invalid
    rw [run v, run w]
  · obtain ⟨named, filled⟩ := not_or.mp invalid
    have same : ∀ c, v.draw.tick.fails c = w.draw.tick.fails c := by
      intro c
      simp only [World.fails, World.draw, World.tick, script, cancelled]
    have outcome : enqueueOutcome v.draw.tick = enqueueOutcome w.draw.tick := by
      unfold enqueueOutcome
      rw [same, same, same]
    rw [grpcSubmitTask_valid json named filled, grpcSubmitTask_valid json named filled, outcome,
      script]

/-- A submission that fails appends nothing; one that succeeds appends the message of
the task whose id it answers with, the next identifier drawn. -/
theorem grpcSubmitTask_spec (json : Json Raw) (req : GRPCRequest) (w : World Raw) :
    (∃ failure, (Service.run (grpcSubmitTask json req) w).1 = .error failure ∧
      (Service.run (grpcSubmitTask json req) w).2.kafka = w.kafka) ∨
    ∃ resp value, (Service.run (grpcSubmitTask json req) w).1 = .ok resp ∧
      resp.taskID = w.script.uuid 0 ∧
      (Service.run (grpcSubmitTask json req) w).2.script.uuid = rest w.script.uuid ∧
      (Service.run (grpcSubmitTask json req) w).2.kafka =
        w.kafka ++ [⟨⟨topicPending, resp.taskID, value⟩, .gateway⟩] := by
  by_cases invalid : req.type = "" ∨ req.payload = []
  · obtain ⟨failure, run⟩ := grpcSubmitTask_invalid json invalid
    exact .inl ⟨failure, by rw [run w], by rw [run w]⟩
  · obtain ⟨named, filled⟩ := not_or.mp invalid
    rw [grpcSubmitTask_valid json named filled]
    have log := enqueue_log json
      (newTask req.fields (w.script.uuid 0) (w.script.clock 0)) w.draw.tick
    cases outcome : enqueueOutcome w.draw.tick with
    | some failure =>
        rw [outcome, if_neg (Option.some_ne_none failure), List.append_nil] at log
        exact .inl ⟨failure, rfl, log⟩
    | none =>
        rw [outcome, if_pos rfl] at log
        exact .inr ⟨_, _, rfl, rfl, enqueue_uuid .., log⟩

/-! ## The ids and the messages -/

/-- The ids of separate submissions are drawn one after the other. -/
theorem submitEach_ids (json : Json Raw) (requests : List GRPCRequest) (w : World Raw) :
    ∃ draws : List Nat, draws.Pairwise (· < ·) ∧
      acceptedIDs (submitEach json requests w).1 = draws.map w.script.uuid := by
  induction requests generalizing w with
  | nil => exact ⟨[], List.Pairwise.nil, rfl⟩
  | cons req requests ih =>
      obtain ⟨draws, ordered, ids⟩ := ih (Service.run (grpcSubmitTask json req) w).2
      rw [submitEach_cons]
      rcases grpcSubmitTask_spec json req w with ⟨failure, failed, _⟩ |
        ⟨resp, value, accepted, named, drawn, _⟩
      · obtain ⟨n, shifted⟩ := Service.run_uuid (grpcSubmitTask json req) w
        refine ⟨draws.map (· + n), ?_, ?_⟩
        · rw [List.pairwise_map]
          exact ordered.imp fun less => Nat.add_lt_add_right less n
        · rw [failed, acceptedIDs_error, ids, List.map_map]
          exact List.map_congr_left fun m _ => shifted m
      · refine ⟨0 :: draws.map (· + 1), ?_, ?_⟩
        · rw [List.pairwise_cons, List.pairwise_map]
          refine ⟨fun m member => ?_, ordered.imp fun less => Nat.add_lt_add_right less 1⟩
          obtain ⟨k, _, rfl⟩ := List.mem_map.mp member
          exact Nat.succ_pos k
        · rw [accepted, acceptedIDs_ok, named, ids, drawn, List.map_cons, List.map_map]
          rfl

/-- The messages of separate submissions are those of the accepted requests. -/
theorem submitEach_kafka (json : Json Raw) (requests : List GRPCRequest) (w : World Raw) :
    ∃ appended, (submitEach json requests w).2.kafka = w.kafka ++ appended ∧
      (∀ r ∈ appended, r.message.topic = topicPending) ∧
      appended.map (·.message.key) = acceptedIDs (submitEach json requests w).1 := by
  induction requests generalizing w with
  | nil => exact ⟨[], (List.append_nil _).symm, by simp, rfl⟩
  | cons req requests ih =>
      obtain ⟨appended, log, topics, keys⟩ := ih (Service.run (grpcSubmitTask json req) w).2
      rw [submitEach_cons]
      rcases grpcSubmitTask_spec json req w with ⟨failure, failed, kafka⟩ |
        ⟨resp, value, accepted, _, _, kafka⟩
      · exact ⟨appended, by rw [log, kafka], topics, by rw [keys, failed, acceptedIDs_error]⟩
      · refine ⟨⟨⟨topicPending, resp.taskID, value⟩, .gateway⟩ :: appended, ?_, ?_, ?_⟩
        · rw [log, kafka, List.append_assoc, List.singleton_append]
        · intro r member
          rcases List.mem_cons.mp member with rfl | later
          · rfl
          · exact topics r later
        · rw [List.map_cons, keys, accepted, acceptedIDs_ok]

/-- A stream of fewer than 2³¹ requests that ends in `io.EOF`, with identifiers that
are all different: every request is counted once, the ids are as many as the accepted
requests, all different, and those of the messages appended, in order; and the handler
has done what separate submissions do, each with the outcome that it has in any world
with the same failures. -/
theorem bulkSubmitTasks_accounts (json : Json Raw) (requests : List GRPCRequest) (w : World Raw)
    (short : requests.length < 2 ^ 31) (distinct : Function.Injective w.script.uuid) :
    ∃ response,
      Service.run (bulkSubmitTasks json requests none) w =
        (.ok response, (submitEach json requests w).2) ∧
      response.submitted + response.failed = requests.length ∧
      response.submitted = response.taskIDs.length ∧
      response.taskIDs.Nodup ∧
      (∃ appended, (submitEach json requests w).2.kafka = w.kafka ++ appended ∧
        (∀ r ∈ appended, r.message.topic = topicPending) ∧
        appended.map (·.message.key) = response.taskIDs) ∧
      response.taskIDs = acceptedIDs (submitEach json requests w).1 ∧
      response.failed = failures (submitEach json requests w).1 ∧
      ∀ before req after, requests = before ++ req :: after →
        ∀ v : World Raw, v.script = (submitEach json before w).2.script →
          v.cancelled = (submitEach json before w).2.cancelled →
          (submitEach json requests w).1[before.length]? =
            some (Service.run (grpcSubmitTask json req) v).1 := by
  have run := bulkSubmitFrom_run json requests w 0 0 [] (by omega)
  have counted := accepted_add_failures (submitEach json requests w).1
  rw [submitEach_length] at counted
  obtain ⟨draws, ordered, ids⟩ := submitEach_ids json requests w
  refine ⟨_, run, ?_, ?_, ?_, ?_, ?_, ?_, ?_⟩
  · dsimp only
    omega
  · dsimp only
    rw [Nat.zero_add, List.nil_append]
  · dsimp only
    rw [List.nil_append, ids]
    exact (ordered.imp Nat.ne_of_lt).map _ fun m n differs same => differs (distinct same)
  · dsimp only
    rw [List.nil_append]
    exact submitEach_kafka json requests w
  · rfl
  · dsimp only
    rw [Nat.zero_add]
  · rintro before req after rfl v script cancelled
    rw [grpcSubmitTask_surroundings json req script cancelled]
    exact serveAll_answer (fun req w => Service.run (grpcSubmitTask json req) w) before req after w

/-- Three requests, of which the second has no type. -/
def mixedRequests : List GRPCRequest :=
  [⟨"email", [123, 125], 1, 0⟩, ⟨"", [123, 125], 1, 0⟩, ⟨"email", [123, 125], 1, 0⟩]

theorem bulkSubmitTasks_accounts_three : ∃ response,
    Service.run (bulkSubmitTasks plainJson mixedRequests none)
        (World.fresh { Script.calm with uuid := countedIDs }) =
      (.ok response, (submitEach plainJson mixedRequests
        (World.fresh { Script.calm with uuid := countedIDs })).2) ∧
    response.submitted + response.failed = 3 := by
  obtain ⟨response, run, counted, _⟩ := bulkSubmitTasks_accounts plainJson mixedRequests
    (World.fresh { Script.calm with uuid := countedIDs }) (by decide) countedIDs_injective
  exact ⟨response, run, counted⟩

end Gateway

end TaskFlow
