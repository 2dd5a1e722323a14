import TaskFlow.StatusCauses

/-!
# What a client that watches a task is told

`StreamTaskUpdates` asks for the status of a task at every tick of its ticker and sends the
answer, while submissions, dispatchers and workers go on.  One answer is made of several
reads at different moments: the copy, its fallback and the live status.  So the stream is
taken call by call, each call at a moment of its own of a run of the pipeline (`Viewing`).

What the client is told is true (`stream_truthful`): all responses are about one task as it
was requested, every status that is sent has its cause in the past (`Caused`), and nothing
follows a terminal one.
-/

namespace TaskFlow

open Effect

variable {Raw ι α β : Type}

/-! ## The stream -/

/-- What `select` found ready: the context is done, or the ticker ticked. -/
inductive Ready : Type
  | done | tick
deriving DecidableEq

/-- The calls of a stream: `select`, those of `GetTaskStatus`, and `stream.Send`. -/
inductive StreamOp (Raw : Type) : Type
  | select
  | store (op : Op Raw)
  | send (resp : Gateway.GRPCStatusResponse)

abbrev StreamOp.Ans : StreamOp Raw → Type
  | .select => Ready
  | .store op => op.Ans
  | .send _ => Option Error

/-- A stream: a program over these calls. -/
abbrev Streaming (Raw : Type) : Type → Type := Prog (StreamOp Raw) StreamOp.Ans

/-- The stream that makes one call. -/
abbrev onStream (op : StreamOp Raw) : Streaming Raw op.Ans := Prog.op op

/-- The calls of a service, made by a stream. -/
def Service.streamed : Service Raw α → Streaming Raw α
  | .pure value => .pure value
  | .call op next => .call (.store op) fun answer => streamed (next answer)

theorem Service.streamed_bind (p : Service Raw α) (f : α → Service Raw β) :
    (p >>= f).streamed = p.streamed >>= fun value => (f value).streamed := by
  induction p with
  | pure value => rfl
  | call op next ih => exact congrArg (Prog.call _) (funext ih)

/-- The error a stream returns: that of `GetTaskStatus`, or that of `Send`. -/
inductive StreamError : Type
  | status (failure : Failure)
  | send (err : Error)
deriving DecidableEq

/-- How far a stream got: it returned, or it is still waiting for a tick. -/
inductive StreamEnd : Type
  | returned (err : Option StreamError)
  | polling
deriving DecidableEq

namespace Gateway

/-- One answer of `GetTaskStatus` is sent; `again` is the loop. -/
def sendStatus (again : Streaming Raw StreamEnd) :
    Except Failure GRPCStatusResponse → Streaming Raw StreamEnd
  | .error failure => pure (.returned (some (.status failure)))
  | .ok resp => do
      match ← onStream (.send resp) with
      | some err => pure (.returned (some (.send err)))
      | none => if resp.status.isTerminal then pure (.returned none) else again

/-- The loop of `GRPC.StreamTaskUpdates`, for the given number of rounds. -/
def pollStatus (id : String) : Nat → Streaming Raw StreamEnd
  | 0 => pure .polling
  | n + 1 => do
      match ← onStream .select with
      | .done => pure (.returned none)
      | .tick => do
          let answer ← Service.streamed (grpcGetTaskStatus id)
          sendStatus (pollStatus id n) answer

/-- `GRPC.StreamTaskUpdates`, for the given number of rounds of its loop. -/
def streamTaskUpdates (id : String) (n : Nat) : Streaming Raw StreamEnd :=
  if id = "" then pure (.returned (some (.status (.invalid "task_id is required"))))
  else pollStatus id n

end Gateway

/-- A call that returns a value was made. -/
theorem World.attempt_ok {w : World Raw} {c : Call} {failure : Error → Error}
    {effect : World Raw → Except Error α × World Raw} {value : α}
    (ok : (w.attempt c (fun err => .error (failure err)) effect).1 = .ok value) :
    (effect (w.spend c)).1 = .ok value := by
  cases down : w.fails c with
  | true =>
      rw [World.attempt_of_fails down] at ok
      cases ok
  | false =>
      rw [World.attempt_of_works down] at ok
      exact ok

/-! ## A stream beside a run of the pipeline -/

/-- What a stream meets: its `n`-th call is made after the steps `past n` of the pipeline,
on a connection and with a context of its own. -/
structure Viewing (ι : Type) [DecidableEq ι] (json : Json Raw) (w : World Raw) : Type where
  past : Nat → List (PipelineStep Raw ι)
  pool : Nat → PipelinePool Raw ι
  run : ∀ n, Trace (pipeline ι json).Step ⟨w, fun _ => none⟩ (past n) (pool n)
  onwards : ∀ n, past n <+: past (n + 1)
  fails : Nat → Call → Bool
  cancelled : Nat → Bool
  ready : Nat → Ready
  send : Nat → Option Error

/-- The calls a stream has made, and what it handed to `Send`. -/
structure Watcher : Type where
  calls : Nat
  sent : List Gateway.GRPCStatusResponse
deriving DecidableEq

namespace Viewing

variable [DecidableEq ι] {json : Json Raw} {w : World Raw}

/-- The world as the `n`-th call finds it. -/
def finds (v : Viewing ι json w) (n : Nat) : World Raw :=
  { (v.pool n).world with
    cancelled := v.cancelled n
    script.fails := fun call _ => v.fails n call }

/-- What the stores hold about a task at the `n`-th call. -/
def dossier (v : Viewing ι json w) (n : Nat) (id : String) : Dossier :=
  (v.pool n).world.dossier id

/-- Answer one call of the stream. -/
def perform (v : Viewing ι json w) : (op : StreamOp Raw) → Watcher → op.Ans × Watcher
  | .select, s => (v.ready s.calls, { s with calls := s.calls + 1 })
  | .store op, s =>
      ((TaskFlow.perform op (v.finds s.calls)).1, { s with calls := s.calls + 1 })
  | .send resp, s => (v.send s.calls, { calls := s.calls + 1, sent := s.sent ++ [resp] })

/-- Execute a stream from its first call on. -/
def stream (v : Viewing ι json w) (id : String) (n : Nat) : StreamEnd × Watcher :=
  Prog.run v.perform (Gateway.streamTaskUpdates id n) ⟨0, []⟩

variable {v : Viewing ι json w} {id : String} {k m n : Nat} {s : Watcher}

theorem past_mono (le : m ≤ n) : v.past m <+: v.past n := by
  induction n, le using Nat.le_induction with
  | base => exact List.prefix_rfl
  | succ n _ ih => exact ih.trans (v.onwards n)

/-! ## Reading a status -/

/-- The copy of the task in the cache, or its row. -/
def Record (v : Viewing ι json w) (n : Nat) (id : String) (task : Task) : Prop :=
  (v.dossier n id).cached = some task ∨ (v.dossier n id).row = some task

/-- The copy cannot be read, or is not there. -/
def Missing (v : Viewing ι json w) (n : Nat) (id : String) : Prop :=
  (v.finds n).fails .getTaskMeta = true ∨ (v.dossier n id).cached = none

theorem record_of_copy {task : Task}
    (read : (TaskFlow.perform (.getTaskMeta id) (v.finds n)).1 = .ok task) :
    v.Record n id task := by
  have found := World.attempt_ok read
  split at found
  · cases found
  · cases found
    exact .inl (by assumption)

theorem record_of_row {task : Task}
    (read : (TaskFlow.perform (.getByID id) (v.finds n)).1 = .ok task) :
    v.Record n id task := by
  have found := World.attempt_ok read
  split at found
  · split at found
    · cases found
    · cases found
      exact .inr (by assumption)
  · cases found

theorem live_of_read {status : Status}
    (read : (TaskFlow.perform (.getStatus id) (v.finds n)).1 = .ok status) :
    (v.dossier n id).live = some status := by
  have found := World.attempt_ok read
  split at found
  · cases found
  · cases found
    assumption

theorem missing_of_read {err : Error}
    (read : (TaskFlow.perform (.getTaskMeta id) (v.finds n)).1 = .error err) :
    v.Missing n id := by
  cases down : (v.finds n).fails .getTaskMeta with
  | true => exact .inl down
  | false =>
      simp only [TaskFlow.perform, World.getTaskMeta, World.attempt_of_works down] at read
      split at read
      · exact .inr (by assumption)
      · cases read

/-- What a lookup between two calls gives: a value as described, or an error because the copy
was missing at its first call. -/
inductive Lookup (v : Viewing ι json w) (id : String) (first k : Nat) (Good : α → Prop) :
    Except Failure α → Prop
  | ok {value : α} : first < k → Good value → Lookup v id first k Good (.ok value)
  | error {failure : Failure} : first < k → v.Missing first id →
    Lookup v id first k Good (.error failure)

theorem run_find (v : Viewing ι json w) (id : String) (s : Watcher) : ∃ found k,
    Prog.run v.perform (Gateway.find id).streamed s = (found, ⟨k, s.sent⟩) ∧
    v.Lookup id s.calls k (fun task => ∃ m < k, v.Record m id task) found := by
  cases copy : (TaskFlow.perform (.getTaskMeta id) (v.finds s.calls)).1 with
  | ok task =>
      refine ⟨.ok task, s.calls + 1, ?_, .ok (by omega) ⟨_, by omega, record_of_copy copy⟩⟩
      simp only [Gateway.find, Prog.op_bind, Service.streamed, Prog.run_call, perform, copy]
      rfl
  | error err =>
      have missing := missing_of_read copy
      by_cases absent : err.isNotFound = true
      · cases row : (TaskFlow.perform (.getByID id) (v.finds (s.calls + 1))).1 with
        | ok task =>
            refine ⟨.ok task, s.calls + 2, ?_, .ok (by omega) ⟨_, by omega, record_of_row row⟩⟩
            simp only [Gateway.find, Prog.op_bind, Service.streamed, Prog.run_call, perform, copy,
              absent, if_true, row]
            rfl
        | error err' =>
            refine ⟨.error (if err'.isNotFound then .notFound "task not found"
              else .internal "failed to retrieve task"), s.calls + 2, ?_,
              .error (by omega) missing⟩
            simp only [Gateway.find, Prog.op_bind, Service.streamed, Prog.run_call, perform, copy,
              absent, if_true, row]
            split
            · rfl
            · rfl
      · refine ⟨.error (.internal "failed to retrieve task"), s.calls + 1, ?_,
          .error (by omega) missing⟩
        simp only [Gateway.find, Prog.op_bind, Service.streamed, Prog.run_call, perform, copy,
          absent]
        rfl

/-- The task is a record found at one call with a status that showed at one. -/
def Shown (v : Viewing ι json w) (k : Nat) (id : String) (task : Task) : Prop :=
  ∃ m < k, ∃ m' < k, ∃ record status, v.Record m id record ∧
    (v.dossier m' id).Shows status ∧ task = { record with status }

theorem Record.shows {task : Task} (record : v.Record n id task) :
    (v.dossier n id).Shows task.status := by
  rcases record with cached | row
  · rw [Dossier.Shows, cached]
    exact .inr (.inl rfl)
  · rw [Dossier.Shows, row]
    exact .inr (.inr rfl)

theorem run_lookup (v : Viewing ι json w) (id : String) (s : Watcher) : ∃ found k,
    Prog.run v.perform (Gateway.lookup id).streamed s = (found, ⟨k, s.sent⟩) ∧
    v.Lookup id s.calls k (v.Shown k id) found := by
  obtain ⟨found, k, run, looked⟩ := v.run_find id s
  cases looked with
  | @error failure later missing =>
      refine ⟨.error failure, k, ?_, .error later missing⟩
      rw [Gateway.lookup, Service.streamed_bind, Prog.run_bind, run]
      rfl
  | @ok task later good =>
      obtain ⟨m, before, record⟩ := good
      cases live : (TaskFlow.perform (.getStatus id) (v.finds k)).1 with
      | ok status =>
          refine ⟨.ok { task with status }, k + 1, ?_, .ok (by omega) ⟨m, by omega, k, by omega,
            task, status, record, .inl (live_of_read live), rfl⟩⟩
          rw [Gateway.lookup, Service.streamed_bind, Prog.run_bind, run]
          simp only [Prog.op_bind, Service.streamed, Prog.run_call, perform, live]
          rfl
      | error err =>
          refine ⟨.ok task, k + 1, ?_, .ok (by omega) ⟨m, by omega, m, by omega, task,
            task.status, record, record.shows, rfl⟩⟩
          rw [Gateway.lookup, Service.streamed_bind, Prog.run_bind, run]
          simp only [Prog.op_bind, Service.streamed, Prog.run_call, perform, live]
          rfl

theorem run_status (v : Viewing ι json w) (named : id ≠ "") (s : Watcher) : ∃ answer k,
    Prog.run v.perform (Gateway.grpcGetTaskStatus id).streamed s = (answer, ⟨k, s.sent⟩) ∧
    v.Lookup id s.calls k
      (fun resp => ∃ task, v.Shown k id task ∧ resp = Gateway.grpcStatusResponse task) answer := by
  obtain ⟨found, k, run, looked⟩ := v.run_lookup id s
  rw [Gateway.grpcGetTaskStatus, if_neg named, Service.streamed_bind, Prog.run_bind, run]
  cases looked with
  | @error failure later missing => exact ⟨.error failure, k, rfl, .error later missing⟩
  | @ok task later good => exact ⟨.ok _, k, rfl, .ok later ⟨task, good, rfl⟩⟩

/-! ## The loop -/

/-- Why a stream is where it is. -/
def Ending (v : Viewing ι json w) (id : String) (rounds : Nat) (s : Watcher) : StreamEnd → Prop
  | .polling => s.sent.length = rounds ∧ ∀ resp ∈ s.sent, resp.status.isTerminal = false
  | .returned none => (∃ m < s.calls, v.ready m = .done) ∨
      ∃ resp ∈ s.sent.getLast?, resp.status.isTerminal = true
  | .returned (some (.status _)) => ∃ m < s.calls, v.Missing m id
  | .returned (some (.send err)) => ∃ m < s.calls, v.send m = some err

/-- Every response so far is what the stores showed. -/
def Honest (v : Viewing ι json w) (id : String) (s : Watcher) : Prop :=
  ∀ resp ∈ s.sent, ∃ task, v.Shown s.calls id task ∧ resp = Gateway.grpcStatusResponse task

/-- Only the last response may be terminal, and the stream is where it is for a reason. -/
structure Conduct (v : Viewing ι json w) (id : String) (rounds : Nat) (ended : StreamEnd)
    (s : Watcher) : Prop where
  honest : v.Honest id s
  unfinished : ∀ resp ∈ s.sent.dropLast, resp.status.isTerminal = false
  ending : v.Ending id rounds s ended

theorem Shown.mono {task : Task} (shown : v.Shown k id task) (le : k ≤ n) :
    v.Shown n id task := by
  obtain ⟨m, before, m', before', found⟩ := shown
  exact ⟨m, by omega, m', by omega, found⟩

theorem Honest.wait (honest : v.Honest id s) (le : s.calls ≤ k) : v.Honest id ⟨k, s.sent⟩ := by
  intro resp member
  obtain ⟨task, found, same⟩ := honest resp member
  exact ⟨task, found.mono le, same⟩

theorem Honest.send {task : Task} (honest : v.Honest id s) (le : s.calls ≤ k)
    (shown : v.Shown k id task) :
    v.Honest id ⟨k + 1, s.sent ++ [Gateway.grpcStatusResponse task]⟩ := by
  intro resp member
  rcases List.mem_append.mp member with early | last
  · exact honest.wait (Nat.le_succ_of_le le) resp early
  · exact ⟨task, shown.mono (Nat.le_succ k), List.mem_singleton.mp last⟩

/-- The loop, from a state in which nothing terminal was sent. -/
theorem run_poll (v : Viewing ι json w) (named : id ≠ "") (n : Nat) (s : Watcher)
    (honest : v.Honest id s)
    (unfinished : ∀ resp ∈ s.sent, resp.status.isTerminal = false) :
    v.Conduct id (s.sent.length + n) (Prog.run v.perform (Gateway.pollStatus id n) s).1
      (Prog.run v.perform (Gateway.pollStatus id n) s).2 := by
  induction n generalizing s with
  | zero =>
      exact ⟨honest, fun resp member => unfinished resp ((List.dropLast_sublist _).subset member),
        rfl, unfinished⟩
  | succ n ih =>
      have before : ∀ resp ∈ s.sent.dropLast, resp.status.isTerminal = false :=
        fun resp member => unfinished resp ((List.dropLast_sublist _).subset member)
      cases ready : v.ready s.calls with
      | done =>
          have ran : Prog.run v.perform (Gateway.pollStatus id (n + 1)) s =
              (.returned none, ⟨s.calls + 1, s.sent⟩) := by
            rw [Gateway.pollStatus, Prog.op_bind, Prog.run_call]
            simp only [perform, ready]
            rfl
          rw [ran]
          exact ⟨honest.wait (Nat.le_succ _), before, .inl ⟨_, Nat.lt_succ_self _, ready⟩⟩
      | tick =>
          obtain ⟨answer, k, run, looked⟩ := v.run_status named ⟨s.calls + 1, s.sent⟩
          have ran : Prog.run v.perform (Gateway.pollStatus id (n + 1)) s =
              Prog.run v.perform (Gateway.sendStatus (Gateway.pollStatus id n) answer)
                ⟨k, s.sent⟩ := by
            rw [Gateway.pollStatus, Prog.op_bind, Prog.run_call]
            simp only [perform, ready, Prog.run_bind, run]
          rw [ran]
          cases looked with
          | error later missing =>
              dsimp only at later
              exact ⟨honest.wait (by omega), before, s.calls + 1, later, missing⟩
          | @ok resp later good =>
              dsimp only at later
              obtain ⟨task, shown, rfl⟩ := good
              have told := honest.send (by omega) shown
              have kept : ∀ resp ∈ (s.sent ++ [Gateway.grpcStatusResponse task]).dropLast,
                  resp.status.isTerminal = false := by
                rw [List.dropLast_concat]
                exact unfinished
              rw [Gateway.sendStatus, Prog.op_bind, Prog.run_call]
              cases failed : v.send k with
              | some err =>
                  simp only [perform, failed]
                  exact ⟨told, kept, k, Nat.lt_succ_self k, failed⟩
              | none =>
                  simp only [perform, failed]
                  split
                  · rename_i terminal
                    refine ⟨told, kept, .inr ⟨_, ?_, terminal⟩⟩
                    exact List.getLast?_concat
                  · rename_i more
                    have next := ih ⟨k + 1, s.sent ++ [Gateway.grpcStatusResponse task]⟩ told ?_
                    · rw [List.length_append, List.length_singleton, Nat.add_assoc,
                        Nat.add_comm 1 n] at next
                      exact next
                    · intro resp member
                      rcases List.mem_append.mp member with early | last
                      · exact unfinished resp early
                      · rw [List.mem_singleton.mp last]
                        exact Bool.eq_false_iff.mpr more

/-! ## The truth -/

/-- What a client that watches a task is told. -/
structure Truthful (v : Viewing ι json w) (id : String) (rounds : Nat) (ended : StreamEnd)
    (s : Watcher) : Prop where
  requested : ∃ content, ∀ resp ∈ s.sent, Requested (v.past s.calls) id content ∧
    resp.taskID = id ∧ resp.type = content.type ∧
    resp.createdAt = unix content.createdAt
  caused : ∀ resp ∈ s.sent, ∃ m < s.calls, Caused json (v.past m) id resp.status
  unfinished : ∀ resp ∈ s.sent.dropLast, resp.status.isTerminal = false
  ending : v.Ending id rounds s ended

/-- A record is a copy of the task at that moment. -/
theorem Record.hasCopy {task : Task} (record : v.Record n id task) :
    (v.pool n).world.HasCopy json id task := by
  rcases record with cached | row
  · exact .cached cached
  · exact .row row

/-- The records of a task found before the `n`-th call have one content. -/
theorem one_record (v : Viewing ι json w) (empty : w.Empty) (idle : w.handled = [])
    (distinct : Function.Injective w.script.uuid) (n : Nat) (id : String) :
    ∃ content, ∀ m < n, ∀ task, v.Record m id task →
      task.content = content ∧ Requested (v.past n) id content := by
  obtain ⟨_, lineages⟩ := lineage_run distinct (v.run n)
  obtain ⟨content, single⟩ := (v.run n).one_content (fun _ => empty.holds idle)
    fun e member => (lineages e member).replicates ((v.run n).taken member)
  refine ⟨content id, fun m before task record => ?_⟩
  have holds : Holds json (v.pool m) id task.content := .inl ⟨task, record.hasCopy, rfl⟩
  obtain ⟨later, whole⟩ := v.past_mono (Nat.le_of_lt before)
  have ever := Ever.of_earlier (P := fun s => Holds json s id task.content) (v.run m)
    (whole ▸ v.run n) holds
  rw [whole] at ever
  have same := single id _ ever
  have requested := (sourced_run empty idle distinct (v.run m)).requested id _ holds
  rw [← whole]
  exact ⟨same, same ▸ requested.mono⟩

end Viewing

/-- **Watchers are told the truth.**  However the calls of a stream fall between the steps
of a run of the pipeline from an empty deployment, under any faults on either side: all
responses are about the task as one request asked for it, what each status says has
happened before it was sent, only the last status may be terminal, and the stream returns
without an error only after a terminal one or when its context is done. -/
theorem stream_truthful [DecidableEq ι] (json : Json Raw) (w : World Raw) (empty : w.Empty)
    (idle : w.handled = []) (distinct : Function.Injective w.script.uuid)
    (v : Viewing ι json w) (id : String) (named : id ≠ "") (n : Nat) :
    v.Truthful id n (v.stream id n).1 (v.stream id n).2 := by
  have conduct : v.Conduct id n (v.stream id n).1 (v.stream id n).2 := by
    rw [Viewing.stream, Gateway.streamTaskUpdates, if_neg named]
    have polled := v.run_poll named n ⟨0, []⟩ (fun _ => nofun) (fun _ => nofun)
    rwa [List.length_nil, Nat.zero_add] at polled
  obtain ⟨content, single⟩ := v.one_record empty idle distinct (v.stream id n).2.calls id
  refine ⟨⟨content, ?_⟩, ?_, conduct.unfinished, conduct.ending⟩
  · intro resp member
    obtain ⟨task, ⟨m, before, _, _, record, status, found, _, rfl⟩, rfl⟩ :=
      conduct.honest resp member
    obtain ⟨rfl, requested⟩ := single m before record found
    have own : record.id = id := by
      obtain ⟨_, _, _, _, req, now, _, _, same⟩ := requested
      exact congrArg Content.id same
    exact ⟨requested, own, rfl, rfl⟩
  · intro resp member
    obtain ⟨task, ⟨_, _, m, before, record, status, _, shows, rfl⟩, rfl⟩ :=
      conduct.honest resp member
    exact ⟨m, before, caused_of_shows empty idle distinct (v.run m) shows⟩

/-- The steps of the pipeline before each call of a stream: an email is submitted and routed
before the first poll, and handled before the second. -/
def emailBetween (n : Nat) : List (Move (World Task) Bool (Job Task)) :=
  submitAndRoute ⟨"email", [123, 125], 1, 0⟩ ++
    if n < 4 then [] else takeEmail 13 ++ takeEmail 1

/-- The steps before each call are a run of the pipeline. -/
theorem emailBetween_run (n : Nat) :
    Trace (pipeline Bool plainJson).Step (undeployed .calm)
      ((pipeline Bool plainJson).play (undeployed .calm) (emailBetween n))
      ((pipeline Bool plainJson).final (undeployed .calm) (emailBetween n)) := by
  apply System.play_trace
  · unfold emailBetween
    split
    · decide
    · decide
  · unfold emailBetween
    split
    · simp [submitAndRoute]
    · simp [submitAndRoute, takeEmail]

/-- The steps before a call go on with those before the call ahead of it. -/
theorem emailBetween_onwards (n : Nat) :
    (pipeline Bool plainJson).play (undeployed .calm) (emailBetween n) <+:
      (pipeline Bool plainJson).play (undeployed .calm) (emailBetween (n + 1)) := by
  unfold emailBetween
  split
  · rw [List.append_nil]
    exact System.play_append _ _ _ _
  · split
    · omega
    · exact List.prefix_rfl

/-- A stream beside those steps, on a connection that never fails. -/
def watchedEmail : Viewing Bool plainJson (undeployed .calm).world where
  past n := (pipeline Bool plainJson).play (undeployed .calm) (emailBetween n)
  pool n := (pipeline Bool plainJson).final (undeployed .calm) (emailBetween n)
  run := emailBetween_run
  onwards := emailBetween_onwards
  fails _ _ := false
  cancelled _ := false
  ready _ := .tick
  send _ := none

theorem stream_truthful_email :
    ((watchedEmail.stream "x" 3).2.sent.map fun resp => resp.status) = [.queued, .done] ∧
      watchedEmail.Truthful "x" 3 (watchedEmail.stream "x" 3).1 (watchedEmail.stream "x" 3).2 :=
  ⟨by decide, stream_truthful plainJson _ (undeployed_empty .calm) rfl countedIDs_injective
    watchedEmail "x" (by decide) 3⟩

end TaskFlow
