import TaskFlow.Handlers
import TaskFlow.Pipeline
import TaskFlow.PipelineCalls
import TaskFlow.WorkerLoss
import TaskFlow.Effect.Delegate

/-!
# What a worker asks of the outside

Everywhere else the result of a handler is read off the script.  Here the handler calls of
`processMessage` are answered by the handlers themselves, as programs on an outside that
answers HTTP requests and mails in any way (`handlerCalls`).  Such an execution is one on the
script that foresees their results (`foresees_handlerCalls`), so what was shown for every
script carries over.

`errand_carried_out`: the outside is asked for the errand of the task at each attempt, as
often as it takes until it accepts it, and the task ends `DONE` or, with its message in
`tasks.dlq`, `DEAD` accordingly.
-/

namespace TaskFlow

open Effect

variable {Raw : Type}

/-! ## Handlers in the place of the script -/

/-- The handler calls of a service are answered by these programs.  The world notes the
result, and the context of the consumer may be cancelled in the meantime. -/
def handlerCalls (Raw : Type) (handle : Handler → Task → Handling) :
    Delegate (Op Raw) Op.Ans Outbound Outbound.Ans (World Raw) where
  program
    | .handle h task => some (handle h task)
    | _ => none
  note
    | .handle _ task, result, w =>
        { w with
          handled := w.handled ++ [(task, result)]
          cancelled := w.cancelled || w.script.cancelInHandle 0
          script.cancelInHandle := rest w.script.cancelInHandle }
    | _, _, w => w

/-- A stream that begins with these values. -/
def ahead {α : Type} : List α → (Nat → α) → Nat → α
  | [], stream, n => stream n
  | first :: _, _, 0 => first
  | _ :: values, stream, n + 1 => ahead values stream n

theorem ahead_of_getElem? {α : Type} {values : List α} {stream : Nat → α} {n : Nat} {value : α}
    (here : values[n]? = some value) : ahead values stream n = value := by
  induction values generalizing n with
  | nil => cases here
  | cons first values ih =>
      cases n with
      | zero => exact Option.some.inj here
      | succ n => exact ih here

/-- The results of the handler calls among some calls with their answers. -/
def resultOf : (Σ op : Op Raw, op.Ans) → Option (Option Error)
  | ⟨.handle _ _, result⟩ => some result
  | _ => none

/-- The world with the script that foresees these results. -/
def World.foresee (made : List (Σ op : Op Raw, op.Ans)) (w : World Raw) : World Raw :=
  { w with script.outcome := ahead (made.filterMap resultOf) w.script.outcome }

variable {made : List (Σ op : Op Raw, op.Ans)} {w : World Raw} {handle : Handler → Task → Handling}

theorem World.attempt_foresee {α : Type} {c : Call} {failure : Error → α}
    {effect : World Raw → α × World Raw}
    (same : ∀ w, effect (w.foresee made) = ((effect w).1, (effect w).2.foresee made)) :
    (w.foresee made).attempt c failure effect =
      ((w.attempt c failure effect).1, (w.attempt c failure effect).2.foresee made) := by
  have fails : (w.foresee made).fails c = w.fails c := rfl
  unfold World.attempt
  rw [fails]
  split
  · rfl
  · exact same (w.spend c)

theorem World.command_foresee {α : Type} {command : Redis → α × Redis} :
    (w.foresee made).command command =
      ((w.command command).1, (w.command command).2.foresee made) := by
  have fault : (w.foresee made).script.fault 0 = w.script.fault 0 := rfl
  unfold World.command
  rw [fault]
  cases w.script.fault 0 <;> rfl

theorem World.fillExecution_foresee (exec : TaskExecution) :
    (w.foresee made).fillExecution exec =
      ((w.fillExecution exec).1, (w.fillExecution exec).2.foresee made) := by
  unfold World.fillExecution
  by_cases unnamed : exec.id = ""
  · simp only [if_pos unnamed]
    split <;> rfl
  · simp only [if_neg unnamed]
    split <;> rfl

/-- A call other than that of a handler does not look at the results to come. -/
theorem perform_foresee (op : Op Raw) (other : (handlerCalls Raw handle).program op = none) :
    perform op (w.foresee made) = ((perform op w).1, (perform op w).2.foresee made) := by
  cases op with
  | handle h task => cases other
  | allow _ | wait _ | now | newUUID | count _ _ => rfl
  | setNX instanceID | renew instanceID =>
      simp only [perform]
      exact World.command_foresee
  | recordExecution exec =>
      simp only [perform, World.recordExecution, World.fillExecution_foresee]
      apply World.attempt_foresee
      intro w
      have same : (w.foresee made).db = w.db := rfl
      rw [same]
      cases w.db.insertExecution _ <;> rfl
  | create task =>
      simp only [perform, World.create]
      apply World.attempt_foresee
      intro w
      have same : (w.foresee made).db = w.db := rfl
      rw [same]
      cases w.db.insertTask task <;> rfl
  | updateStatus id status =>
      simp only [perform, World.updateStatus]
      exact World.attempt_foresee (w := w.tick) fun _ => rfl
  | loadDueJobs =>
      simp only [perform, World.loadDueJobs]
      exact World.attempt_foresee (w := w.tick) fun _ => rfl
  | _ =>
      simp only [perform, World.getStatus, World.setStatus, World.getTaskMeta, World.setTaskMeta,
        World.getByID, World.publish, World.updateJob]
      exact World.attempt_foresee fun _ => rfl

/-- The script can foresee what the handlers return. -/
theorem foresees_handlerCalls (handle : Handler → Task → Handling) :
    (handlerCalls Raw handle).Foresees perform World.foresee where
  nil w := rfl
  delegated op p result later w delegated := by
    cases op with
    | handle h task => rfl
    | _ => cases delegated
  other op later w other := perform_foresee op other

/-- What the world notes of a handler call. -/
def handledBy : (Σ op : Op Raw, op.Ans) → List (Task × Option Error)
  | ⟨.handle _ task, result⟩ => [(task, result)]
  | _ => []

theorem flatMap_handledBy (result : Nat → Option Error) {h : Handler} {task : Task} {n : Nat} :
    ((List.range n).map fun i => (⟨.handle h task, result i⟩ : Σ op : Op Raw, op.Ans)).flatMap
      handledBy = (List.range n).map fun i => (task, result i) := by
  rw [List.flatMap_map, List.map_eq_flatMap]
  rfl

theorem filterMap_resultOf (result : Nat → Option Error) {h : Handler} {task : Task} {n : Nat} :
    ((List.range n).map fun i => (⟨.handle h task, result i⟩ : Σ op : Op Raw, op.Ans)).filterMap
      resultOf = (List.range n).map result := by
  rw [List.filterMap_map]
  exact congrFun (List.filterMap_eq_map (f := result)) _

/-- Execute a service with these handlers. -/
def Service.runWith {α : Type} (handle : Handler → Task → Handling) (p : Service Raw α)
    (s : World Raw × Outside) : α × World Raw × Outside :=
  Prog.run ((handlerCalls Raw handle).answer perform Outside.perform) p s

/-- The world has noted every handler call and its result. -/
theorem Service.runWith_handled {α : Type} (handle : Handler → Task → Handling)
    (p : Service Raw α) (s : World Raw × Outside) :
    (Service.runWith handle p s).2.1.handled = s.1.handled ++
      ((handlerCalls Raw handle).asked perform Outside.perform p s).flatMap handledBy := by
  refine Delegate.run_log World.handled handledBy (fun op w other => ?_)
    (fun op _ result w delegated => ?_) p s
  · refine perform_handled fun h task eq => ?_
    subst eq
    cases other
  · cases op with
    | handle h task => rfl
    | _ => cases delegated

/-! ## One message -/

namespace Worker

variable {worker : Worker} {json : Json Raw} {msg : Message Raw} {task : Task} {h : Handler}
  {s : World Raw}

/-- How a call of `processMessage` ends that made `k + 1` attempts with these results. -/
structure Ends (w : Worker) (msg : Message Raw) (task : Task) (result : Nat → Option Error)
    (s s' : World Raw) (k : Nat) : Prop where
  lt : k < w.maxAttempts
  failed : ∀ i < k, result i ≠ none
  handled : s'.handled = s.handled ++ (List.range (k + 1)).map fun i => (task, result i)
  settled : (result k = none ∧ s'.redis.state task.id = some .done ∧ s'.kafka = s.kafka) ∨
    (result k ≠ none ∧ k + 1 = w.maxAttempts ∧ s'.redis.state task.id = some .dead ∧
      s'.kafka = s.kafka ++ [deadLetter task msg.value])

/-- With calm surroundings a task with a handler is attempted until it succeeds or the
attempts are used up, and is settled accordingly. -/
theorem processMessage_ends (decodes : json.unmarshal msg.value = some task) (calm : s.Calm)
    (unfinished : s.terminal task.id = false) (registered : worker.registry.get task.type = .ok h) :
    ∃ k, worker.Ends msg task s.script.outcome s
      (Service.run (worker.processMessage json msg) s).2 k := by
  have works : s.fails .setStatus = false := (calm.reliable.fails .setStatus).trans calm.live
  obtain ⟨start, run⟩ := execute_run worker msg task h works
  have whole : Service.run (worker.processMessage json msg) s =
      Service.run (worker.execute msg task h) s := by
    rw [processMessage_open decodes calm.stores.up unfinished]
    simp only [processNew, registered]
  let entry := worker.entered task s
  let loop := Service.run (worker.execAttempts h task) entry
  have entered := worker.entered_sameLog task s
  have calmLoop : loop.2.Calm := Service.run_calm (perform_calm (perform_calm (perform_calm calm)))
  obtain ⟨k, attempted, count, _⟩ := worker.execAttempts_run h task entry
  obtain ⟨_, handled, kafka⟩ := worker.finish_run msg task start loop.1 loop.2
  obtain ⟨exec, closes⟩ := worker.finish_dossier msg task start loop.1 calmLoop.stores.up
  have live := congrArg Dossier.live closes
  have published := (worker.execAttempts_kafka h task entry).1
  rw [whole, run]
  have nilIff := attempted.nil_iff
  rw [entered.outcome] at nilIff
  refine ⟨k, attempted.lt, ?_, ?_, ?_⟩
  · rw [← entered.outcome]
    exact attempted.failed
  · rw [handled, attempted.handled, entered.handled, entered.outcome]
  · have delivers : loop.2.fails .publish = false :=
      (calmLoop.reliable.fails .publish).trans calmLoop.live
    rw [delivers, published, entered.kafka] at kafka
    cases result : loop.1.1 with
    | none =>
        rw [result] at live kafka
        exact .inl ⟨nilIff.mp result, live, kafka.trans (List.append_nil _)⟩
    | some err =>
        rw [result] at live kafka
        have fails : s.script.outcome k ≠ none := fun none => by
          rw [nilIff.mpr none] at result
          cases result
        have last : k + 1 = worker.maxAttempts := by
          refine (attempted.complete calmLoop.live).resolve_left ?_
          rwa [entered.outcome]
        exact .inr ⟨fails, last, live, kafka⟩

theorem Ends.congr {result result' : Nat → Option Error} {s' : World Raw} {k : Nat}
    (ends : worker.Ends msg task result s s' k) (same : ∀ i ≤ k, result i = result' i) :
    worker.Ends msg task result' s s' k := by
  obtain ⟨lt, failed, handled, settled⟩ := ends
  refine ⟨lt, fun i less => ?_, ?_, ?_⟩
  · rw [← same i less.le]
    exact failed i less
  · rw [handled]
    refine congrArg _ (List.map_congr_left fun i member => ?_)
    rw [same i (Nat.le_of_lt_succ (List.mem_range.mp member))]
  · rwa [← same k (Nat.le_refl k)]

/-- With handlers in the place of the script the results are those of the handler, run
again and again on the outside. -/
theorem processMessage_runWith (handle : Handler → Task → Handling)
    (decodes : json.unmarshal msg.value = some task) (calm : s.Calm)
    (unfinished : s.terminal task.id = false) (registered : worker.registry.get task.type = .ok h)
    (v : Outside) :
    ∃ k, worker.Ends msg task
        (fun i => ((handle h task).run Outside.perform ((attempted (handle h task))^[i] v)).1) s
        (Service.runWith handle (worker.processMessage json msg) (s, v)).2.1 k ∧
      (Service.runWith handle (worker.processMessage json msg) (s, v)).2.2 =
        (attempted (handle h task))^[k + 1] v := by
  let p := worker.processMessage json msg
  let made := (handlerCalls Raw handle).asked perform Outside.perform p (s, v)
  let again (i : Nat) : Option Error :=
    ((handle h task).run Outside.perform ((attempted (handle h task))^[i] v)).1
  -- The execution is one on the script that foresees the results.
  have foreseen : Service.run p (s.foresee made) = _ :=
    Delegate.run_foresee (foresees_handlerCalls handle) p (s, v)
  have calmAhead : (s.foresee made).Calm :=
    ⟨⟨calm.live, calm.inHandle, calm.inWait⟩, calm.reliable⟩
  obtain ⟨k, ends⟩ := processMessage_ends decodes calmAhead unfinished registered
  rw [show Service.run (worker.processMessage json msg) (s.foresee made) = _ from foreseen] at ends
  replace ends : worker.Ends msg task (s.foresee made).script.outcome s
      (Service.runWith handle p (s, v)).2.1 k :=
    ⟨ends.lt, ends.failed, ends.handled, ends.settled⟩
  -- Every call asked is that of the handler on the task.
  have only : ∀ a ∈ made, a.1 = .handle h task := by
    refine Delegate.mem_asked (P := fun op => op = .handle h task)
      ((worker.processMessage_makes decodes).mono fun op calls asked => ?_) (s, v)
    cases op with
    | handle h' copy =>
        obtain ⟨found, rfl⟩ := calls
        rw [registered] at found
        cases found
        rfl
    | _ => exact absurd rfl asked
  have answers : (handlerCalls Raw handle).Answers Outside.perform v made
      (Service.runWith handle p (s, v)).2.2 := Delegate.asked_answers p (s, v)
  obtain ⟨final, results⟩ : _ = (attempted (handle h task))^[made.length] v ∧
      made = (List.range made.length).map fun i => ⟨.handle h task, again i⟩ :=
    answers.repeated (by rfl) only
  -- There were as many of them as the world has noted.
  have count : made.length = k + 1 := by
    have noted := Service.runWith_handled handle p (s, v)
    rw [show (handlerCalls Raw handle).asked perform Outside.perform p (s, v) = made from rfl,
      results, flatMap_handledBy again] at noted
    have lengths := congrArg List.length (noted.symm.trans ends.handled)
    simp only [List.length_append, List.length_map, List.length_range] at lengths
    exact Nat.add_left_cancel lengths
  rw [count] at final results
  refine ⟨k, ends.congr fun i le => ahead_of_getElem? ?_, final⟩
  rw [results, filterMap_resultOf again, List.getElem?_map,
    List.getElem?_range (Nat.lt_succ_of_le le)]
  rfl

end Worker

/-! ## Errands -/

/-- What a task asks of the outside. -/
inductive Errand : Type
  | call (req : HTTPRequest)
  | mail (mail : Mail)

namespace HandlerSetup

variable (setup : HandlerSetup) (task : Task)

/-- The errand of a task, unless its payload cannot be used. -/
def errand : Except Error Errand :=
  if task.type = "webhook" then
    (Webhook.prepare setup.net setup.webhookPayload task).map fun p =>
      .call (p.request setup.net p.headers.entries)
  else (Email.prepare setup.emailPayload task).map fun p => .mail (p.mail setup.emailConfig)

/-- What the handler returns when the outside answers as in `v` at place `i`. -/
def result (v : Outside) (i : Nat) : Option Error :=
  if task.type = "webhook" then
    match Webhook.prepare setup.net setup.webhookPayload task with
    | .error err => some err
    | .ok p => Webhook.verdict p.url (v.responses i)
  else
    match Email.prepare setup.emailPayload task with
    | .error err => some err
    | .ok p => Email.verdict p.recipient (v.mailEnds i)

/-- The keys of the headers of a webhook stay different in their canonical form. -/
def PlainHeaders : Prop :=
  task.type = "webhook" → ∀ p, setup.webhookPayload task.payload = .ok p →
    (p.headers.entries.map fun entry => setup.net.canonicalKey entry.1).Nodup

end HandlerSetup

/-- Two requests that differ in their headers at most. -/
structure HTTPRequest.Like (a b : HTTPRequest) : Prop where
  method : a.method = b.method
  url : a.url = b.url
  body : a.body = b.body

/-- The outside was asked for an errand `n` times up to the headers, and for nothing else. -/
structure Outside.Approached (v : Outside) (errand : Except Error Errand) (n : Nat)
    (v' : Outside) : Prop where
  requests : ∃ made, v'.requests = v.requests ++ made ∧ match errand with
    | .ok (.call req) => made.length = n ∧ ∀ other ∈ made, other.Like req
    | _ => made = []
  mails : v'.mails = v.mails ++ match errand with
    | .ok (.mail mail) => List.replicate n mail
    | _ => []

/-- The outside was asked for an errand `n` times, and for nothing else. -/
structure Outside.Asked (v : Outside) (errand : Except Error Errand) (n : Nat) (v' : Outside) :
    Prop where
  requests : v'.requests = v.requests ++ match errand with
    | .ok (.call req) => List.replicate n req
    | _ => []
  mails : v'.mails = v.mails ++ match errand with
    | .ok (.mail mail) => List.replicate n mail
    | _ => []

namespace Outside

variable {v v' : Outside}

/-- Without an errand there is nothing to ask. -/
theorem asked_nothing (v : Outside) (err : Error) (n : Nat) : v.Asked (.error err) n v :=
  ⟨(List.append_nil _).symm, (List.append_nil _).symm⟩

theorem Asked.approached {errand : Except Error Errand} {n : Nat} (asked : v.Asked errand n v') :
    v.Approached errand n v' := by
  rcases errand with err | (req | mail)
  · exact ⟨⟨_, asked.requests, rfl⟩, asked.mails⟩
  · refine ⟨⟨_, asked.requests, List.length_replicate, fun other member => ?_⟩, asked.mails⟩
    rw [List.eq_of_mem_replicate member]
    exact ⟨rfl, rfl, rfl⟩
  · exact ⟨⟨_, asked.requests, rfl⟩, asked.mails⟩

end Outside

variable {setup : HandlerSetup} {task : Task} {h : Handler}

theorem Webhook.payload_of_prepare {net : NetHTTP}
    {unmarshal : List UInt8 → Except Error Webhook.Payload} {p : Webhook.Payload}
    (prepared : Webhook.prepare net unmarshal task = .ok p) : unmarshal task.payload = .ok p := by
  unfold Webhook.prepare at prepared
  split at prepared
  · cases prepared
  · rename_i decoded
    split at prepared
    · cases prepared
    · split at prepared
      · cases prepared
      · cases prepared
        exact decoded

/-- With keys that stay different the order of the headers does not matter. -/
theorem Webhook.Payload.request_order {net : NetHTTP} {p : Webhook.Payload}
    (distinct : (p.headers.entries.map fun entry => net.canonicalKey entry.1).Nodup)
    (v : Outside) (i : Nat) :
    p.request net (v.order i p.headers).val = p.request net p.headers.entries := by
  unfold Webhook.Payload.request
  rw [Webhook.header_perm distinct (v.order i p.headers).property]

/-- The handler of the task, run again and again, asks for the errand each time and returns
what the answers come to. -/
theorem handle_asks (setup : HandlerSetup) (same : h.taskType = task.type) (v : Outside) :
    ∃ after, Repeats (setup.handle h task) v after (setup.result task v) ∧
      ∀ n, v.Approached (setup.errand task) n (after n) ∧
        (setup.PlainHeaders task → v.Asked (setup.errand task) n (after n)) := by
  unfold HandlerSetup.handle HandlerSetup.errand HandlerSetup.result
  rw [same]
  split
  · rename_i hook
    cases prepared : Webhook.prepare setup.net setup.webhookPayload task with
    | error err =>
        have asked := v.asked_nothing err
        simp only [Webhook.handle, prepared]
        exact ⟨_, repeats_pure (some err) v, fun n => ⟨(asked n).approached, fun _ => asked n⟩⟩
    | ok p =>
        -- The headers come in another order each time.
        refine ⟨_, Webhook.repeats prepared v, fun n => ⟨⟨⟨_, rfl, ?_, ?_⟩, ?_⟩, fun plain => ?_⟩⟩
        · rw [List.length_map, List.length_range]
        · intro other member
          obtain ⟨i, _, rfl⟩ := List.mem_map.mp member
          exact ⟨rfl, rfl, rfl⟩
        · exact (List.append_nil _).symm
        · have distinct := plain hook p (Webhook.payload_of_prepare prepared)
          refine ⟨?_, (List.append_nil _).symm⟩
          simp only [Outside.called, Webhook.Payload.request_order distinct, List.map_const',
            List.length_range]
          rfl
  · cases prepared : Email.prepare setup.emailPayload task with
    | error err =>
        have asked := v.asked_nothing err
        simp only [Email.handle, prepared]
        exact ⟨_, repeats_pure (some err) v, fun n => ⟨(asked n).approached, fun _ => asked n⟩⟩
    | ok p =>
        have asked : ∀ n, v.Asked (.ok (.mail (p.mail setup.emailConfig))) n
            (v.mailed (p.mail setup.emailConfig) n) := fun n => ⟨(List.append_nil _).symm, rfl⟩
        exact ⟨_, Email.repeats prepared v, fun n => ⟨(asked n).approached, fun _ => asked n⟩⟩

theorem builtinRegistry_get {taskType : String}
    (known : taskType = "webhook" ∨ taskType = "email") :
    builtinRegistry.get taskType = .ok ⟨taskType⟩ := by
  rcases known with rfl | rfl <;> rfl

/-- Handlers for which every payload is a call of one address. -/
def hookSetup : HandlerSetup where
  net := ⟨fun _ _ => none, id⟩
  webhookPayload _ := .ok
    { url := "http://hooks.local/a", method := "", body := "ping"
      headers := ⟨[("X-Key", "1"), ("X-Id", "2")], by decide⟩ }
  emailConfig := ⟨"localhost", 25, "noreply@local", "", ""⟩
  emailPayload _ := .error (.new "unexpected end of JSON input")

/-- A webhook task. -/
def hookTask : Task := { emailTask with type := "webhook" }

/-- A worker with the two handlers and two retries. -/
def hookWorker : Worker :=
  { emailWorker 2 with registry := builtinRegistry, workerType := "webhook" }

/-- The address is unavailable at first. -/
def flakyOutside : Outside where
  requests := []
  mails := []
  order _ headers := ⟨headers.entries, .refl _⟩
  responses n := .ok (if n = 0 then 503 else 204)
  mailEnds _ := .result none

end TaskFlow
