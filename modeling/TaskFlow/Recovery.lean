import TaskFlow.Redelivery
import TaskFlow.Settlement

/-!
# Recovery

`Settlement` says what holds once every message was consumed.  This module shows that the
pipeline can always get there: from every reachable state in which no record was passed
over (`InOrder`), whatever failed or crashed on the way to it and whatever other slots are
stuck in, once everything answers again one free slot can consume the log.  It takes two
rounds.  A round hands out every record that nobody has consumed, once and in the order of
its partition; what the first adds are messages for the workers and dead letters, what the
second adds are dead letters (`Round`).  So every task that was ever published can be
brought to its conclusion, unless a worker had dropped it before (`pipeline_recovers`).
-/

namespace TaskFlow

open Effect

variable {Raw ι : Type} {json : Json Raw}

/-! ## What a call adds to the log -/

/-- The log grows by what the calls of a program publish. -/
theorem Service.run_appends {α : Type} {Q : Record Raw → Prop} {p : Service Raw α}
    (sends : Prog.All (fun op => ∀ topic key value origin, op = .publish topic key value origin →
      Q ⟨⟨topic, key, value⟩, origin⟩) p) (w : World Raw) :
    ∃ extra, (Service.run p w).2.kafka = w.kafka ++ extra ∧ ∀ r ∈ extra, Q r := by
  induction p generalizing w with
  | pure value => exact ⟨[], (List.append_nil _).symm, nofun⟩
  | call op next ih =>
      obtain ⟨extra, grown, all⟩ := ih _ (sends.2 _) (perform op w).2
      rcases perform_log op w with same | ⟨topic, key, value, origin, publishes, _, added⟩
      · exact ⟨extra, grown.trans (by rw [same]), all⟩
      · refine ⟨⟨⟨topic, key, value⟩, origin⟩ :: extra, ?_, ?_⟩
        · rw [added, List.append_assoc] at grown
          exact grown
        · intro r member
          rcases List.mem_cons.mp member with rfl | later
          · exact sends.1 topic key value origin publishes
          · exact all r later

/-- What a consumer adds: nothing to `tasks.pending`, and a worker only dead letters. -/
def Consume.Adds (c : Consume Raw) (r : Record Raw) : Prop :=
  r.message.topic ≠ topicPending ∧ (c.routes = false → r.message.topic = topicDLQ)

theorem Consume.run_adds (json : Json Raw) (c : Consume Raw) (w : World Raw) :
    ∃ extra, (Service.run (c.body json) w).2.kafka = w.kafka ++ extra ∧ ∀ r ∈ extra, c.Adds r := by
  have apart : topicDLQ ≠ topicPending := by decide
  refine Service.run_appends ((c.body_makes json).mono ?_) w
  rintro _ calls topic key value origin rfl
  cases c with
  | route d msg =>
      refine ⟨?_, nofun⟩
      obtain ⟨_, _, ⟨dead, _⟩ | ⟨task, _, _, forward, _⟩⟩ := calls
      · exact dead ▸ apart
      · exact forward ▸ (workerTopic_ne task.type).1
  | process w msg =>
      obtain ⟨task, _, dead, _⟩ := calls
      exact ⟨dead ▸ apart, fun _ => dead⟩

theorem Dispatcher.route_returns (d : Dispatcher) (msg : Message Raw) {w : World Raw}
    (up : w.Up) : (Service.run (d.route json msg) w).1 = none := by
  have toDLQ : ∀ {s : World Raw}, s.Up → (Service.run (toDLQ msg.value) s).1 = none :=
    fun up => (up.publish topicDLQ "" msg.value .dispatcher).1
  have counted : ∀ {s : World Raw}, s.Up → ∀ metric, (perform (.count metric 1) s).2.Up :=
    fun up metric => up.keep _ (by simp) (by simp)
  have reject : (Service.run (reject msg) w).1 = none := toDLQ (counted up _)
  have forward : ∀ {s : World Raw} task, s.Up → (Service.run (forward msg task) s).1 = none := by
    intro s task up
    have sent := (up.publish (workerTopic task.type) task.id msg.value .dispatcher).1
    simp only [Dispatcher.forward, ask, Service.run, Prog.op_bind, Prog.run_call, sent]
    rfl
  unfold route
  split
  · exact reject
  · rename_i task decodes
    split
    · exact reject
    · split
      · have asked : (perform (.allow task.type) w).2.Up := up.keep _ (by simp) (by simp)
        show (Service.run (afterLimiter msg task (perform (.allow task.type) w).1)
          (perform (.allow task.type) w).2).1 = none
        rcases (perform (.allow task.type) w).1 with err | (_ | _)
        · exact forward task asked
        · exact toDLQ (counted (counted asked _) _)
        · exact forward task asked
      · exact forward task up

/-- A call returns nil when nothing fails. -/
theorem Consume.run_returns (c : Consume Raw) {w : World Raw} (up : w.Up) :
    (Service.run (c.body json) w).1 = none := by
  cases c with
  | route d msg => exact d.route_returns msg up
  | process worker msg => exact Worker.processMessage_returns up

/-! ## Serving records -/

section Serving

variable [DecidableEq ι] {s t : PipelinePool Raw ι} {i : ι}

omit [DecidableEq ι] in
theorem Consumed.append {h h' : List (PipelineStep Raw ι)} {n : Nat} :
    Consumed (h ++ h') n ↔ Consumed h n ∨ Consumed h' n := by
  constructor
  · rintro ⟨e, member, rest⟩
    exact (List.mem_append.mp member).imp (fun first => ⟨e, first, rest⟩)
      fun second => ⟨e, second, rest⟩
  · rintro (⟨e, member, rest⟩ | ⟨e, member, rest⟩)
    · exact ⟨e, List.mem_append_left _ member, rest⟩
    · exact ⟨e, List.mem_append_right _ member, rest⟩

omit [DecidableEq ι] in
/-- Records are consumed where a call ends. -/
theorem not_consumed {h : List (PipelineStep Raw ι)} {n : Nat}
    (running : ∀ e ∈ h, ∀ j, e.label ≠ .stop j) : ¬ Consumed h n := by
  rintro ⟨e, member, j, c, label, _⟩
  exact running e member j label

omit [DecidableEq ι] in
theorem consumed_singleton {e : PipelineStep Raw ι} {n m : Nat} {c : Consume Raw}
    (stop : e.label = .stop i) (nil : e.pre.threads i = some ⟨.consume n c, .pure none⟩) :
    Consumed [e] m ↔ n = m := by
  constructor
  · rintro ⟨e', only, j, c', label, here⟩
    rw [List.mem_singleton.mp only] at label here
    cases stop.symm.trans label
    cases nil.symm.trans here
    rfl
  · rintro rfl
    exact ⟨e, List.mem_singleton_self _, i, c, stop, nil⟩

/-- What holds at every place of two lists holds at every place of the two together. -/
theorem forall_split_append {α : Type} {P : List α → α → Prop} {a b : List α}
    (first : ∀ x e y, a = x ++ e :: y → P x e) (second : ∀ x e y, b = x ++ e :: y → P (a ++ x) e) :
    ∀ x e y, a ++ b = x ++ e :: y → P x e := by
  intro x e y split
  rcases List.append_eq_append_iff.mp split with ⟨x', rfl, later⟩ | ⟨y', rfl, rest⟩
  · exact second x' e y later
  · cases y' with
    | nil =>
        have last := second [] e y rest.symm
        rwa [List.append_nil, List.append_nil] at last
    | cons e' y' =>
        cases rest
        exact first x e y' rfl

/-- Serving `jobs` in slot `i`, one after another, leads from `s` to `t`.  When a job is
started, those before it were consumed and nothing else. -/
structure Serves (json : Json Raw) (i : ι) (jobs : List (Nat × Consume Raw))
    (s : PipelinePool Raw ι) (h : List (PipelineStep Raw ι)) (t : PipelinePool Raw ι) : Prop where
  run : Trace (pipeline ι json).Step s h t
  threads : t.threads = s.threads
  inside : ∀ e ∈ h, e.label ≠ .env
  consumed : ∀ n, Consumed h n ↔ ∃ job ∈ jobs, job.1 = n
  starts : ∀ x e y, h = x ++ e :: y → ∀ j job, e.label = .start j job → j = i ∧
    ∃ before n c after, jobs = before ++ (n, c) :: after ∧ job = .consume n c ∧
      ∀ m, Consumed x m ↔ ∃ earlier ∈ before, earlier.1 = m
  log : ∃ extra, t.world.kafka = s.world.kafka ++ extra ∧
    ∀ r ∈ extra, ∃ job ∈ jobs, job.2.Adds r

theorem Serves.calm {jobs : List (Nat × Consume Raw)} {h : List (PipelineStep Raw ι)}
    (serves : Serves json i jobs s h t) (calm : s.world.Calm) :
    (∀ e ∈ h, e.pre.world.Calm) ∧ t.world.Calm :=
  ⟨serves.run.invariant_pre (I := fun s => s.world.Calm) calm fun e member step =>
      pipeline_calm step (serves.inside e member),
    serves.run.invariant (I := fun s => s.world.Calm) calm fun e member step =>
      pipeline_calm step (serves.inside e member)⟩

/-- A free slot consumes a record. -/
theorem serves_one {n : Nat} {c : Consume Raw} (free : s.threads i = none) (up : s.world.Up)
    (delivered : (Job.consume n c).Delivered s.world.kafka) :
    ∃ h t, Serves json i [(n, c)] s h t := by
  obtain ⟨first, acts, last, t, run, world, threads, start, calls, stop, ended, _⟩ :=
    (pipeline ι json).serve_returns i (.consume n c) free delivered
  have nil : last.pre.threads i = some ⟨.consume n c, .pure none⟩ := by
    have returned : last.pre.threads i =
        some ⟨.consume n c, .pure (Service.run (c.body json) s.world).1⟩ := ended
    rwa [c.run_returns up] at returned
  have later : ∀ e ∈ acts ++ [last], (∃ op, e.label = .act i op) ∨ e.label = .stop i := by
    intro e member
    rcases List.mem_append.mp member with middle | only
    · exact .inl (calls e middle)
    · rw [List.mem_singleton.mp only]
      exact .inr stop
  refine ⟨_, t, run, threads, fun e member env => ?_, fun m => ?_,
    fun x e y split j job label => ?_, ?_⟩
  · rcases List.mem_cons.mp member with rfl | rest
    · cases start.symm.trans env
    · obtain ⟨op, acted⟩ | stopped := later e rest
      · cases acted.symm.trans env
      · cases stopped.symm.trans env
  · have started : ¬ Consumed [first] m := by
      refine not_consumed fun e only j label => ?_
      rw [List.mem_singleton.mp only] at label
      cases start.symm.trans label
    have called : ¬ Consumed acts m := by
      refine not_consumed fun e member j label => ?_
      obtain ⟨op, acted⟩ := calls e member
      cases acted.symm.trans label
    rw [← List.singleton_append, Consumed.append, Consumed.append, or_iff_right started,
      or_iff_right called, consumed_singleton stop nil]
    simp
  · cases x with
    | nil =>
        obtain ⟨rfl, _⟩ := List.cons.inj split
        cases start.symm.trans label
        refine ⟨rfl, [], n, c, [], rfl, rfl, fun m => ?_⟩
        exact iff_of_false (not_consumed (by simp)) (by simp)
    | cons first' x =>
        -- Nothing is started after the first step.
        have member : e ∈ acts ++ [last] := by
          rw [(List.cons.inj split).2]
          exact List.mem_append_right _ List.mem_cons_self
        obtain ⟨op, acted⟩ | stopped := later e member
        · cases acted.symm.trans label
        · cases stopped.symm.trans label
  · obtain ⟨extra, grown, adds⟩ := c.run_adds json s.world
    refine ⟨extra, ?_, fun r listed => ⟨_, List.mem_singleton_self _, adds r listed⟩⟩
    exact (congrArg World.kafka world).trans grown

/-- Two rounds of service, one after the other. -/
theorem Serves.trans {jobs jobs' : List (Nat × Consume Raw)} {u : PipelinePool Raw ι}
    {h h' : List (PipelineStep Raw ι)} (first : Serves json i jobs s h t)
    (second : Serves json i jobs' t h' u) : Serves json i (jobs ++ jobs') s (h ++ h') u where
  run := first.run.trans second.run
  threads := second.threads.trans first.threads
  inside := by
    intro e member
    rcases List.mem_append.mp member with early | late
    · exact first.inside e early
    · exact second.inside e late
  consumed n := by
    rw [Consumed.append, first.consumed, second.consumed]
    simp only [List.mem_append, or_and_right, exists_or]
  starts := by
    refine forall_split_append (fun x e y split j job label => ?_) fun x e y split j job label => ?_
    · obtain ⟨same, before, n, c, after, rfl, kind, earlier⟩ := first.starts x e y split j job label
      exact ⟨same, before, n, c, after ++ jobs', by simp, kind, earlier⟩
    · obtain ⟨same, before, n, c, after, rfl, kind, earlier⟩ :=
        second.starts x e y split j job label
      refine ⟨same, jobs ++ before, n, c, after, by simp, kind, fun m => ?_⟩
      rw [Consumed.append, first.consumed, earlier]
      simp only [List.mem_append, or_and_right, exists_or]
  log := by
    obtain ⟨extra, grown, adds⟩ := first.log
    obtain ⟨extra', grown', adds'⟩ := second.log
    refine ⟨extra ++ extra', by rw [grown', grown, List.append_assoc], fun r member => ?_⟩
    rcases List.mem_append.mp member with early | late
    · obtain ⟨job, listed, added⟩ := adds r early
      exact ⟨job, List.mem_append_left _ listed, added⟩
    · obtain ⟨job, listed, added⟩ := adds' r late
      exact ⟨job, List.mem_append_right _ listed, added⟩

/-- A record that is in the log stays deliverable. -/
theorem Job.Delivered.mono {job : Job Raw} {log extra : List (Record Raw)}
    (delivered : job.Delivered log) : job.Delivered (log ++ extra) := by
  cases job with
  | submit r => trivial
  | consume n c =>
      obtain ⟨r, found, same⟩ := Option.map_eq_some_iff.mp delivered.1
      have bound := (List.getElem?_eq_some_iff.mp found).1
      exact ⟨Option.map_eq_some_iff.mpr ⟨r, (List.getElem?_append_left bound).trans found, same⟩,
        delivered.2⟩

/-- A free slot consumes any records of the log. -/
theorem serves_all {jobs : List (Nat × Consume Raw)} (free : s.threads i = none)
    (calm : s.world.Calm)
    (delivered : ∀ job ∈ jobs, (Job.consume job.1 job.2).Delivered s.world.kafka) :
    ∃ h t, Serves json i jobs s h t := by
  induction jobs generalizing s with
  | nil =>
      refine ⟨[], s, .nil, rfl, fun _ member => ?_, fun n => ?_, fun x e y split => ?_, [],
        (List.append_nil _).symm, fun _ member => ?_⟩
      · cases member
      · exact iff_of_false (not_consumed (by simp)) (by simp)
      · cases x <;> cases split
      · cases member
  | cons job jobs ih =>
      obtain ⟨h, t, first⟩ : ∃ h t, Serves json i [job] s h t :=
        serves_one free calm.up (delivered job List.mem_cons_self)
      obtain ⟨extra, grown, _⟩ := first.log
      obtain ⟨h', u, second⟩ := ih (s := t) (by rw [first.threads, free]) (first.calm calm).2
        fun job' member => by
          rw [grown]
          exact (delivered job' (List.mem_cons_of_mem _ member)).mono
      exact ⟨_, u, first.trans second⟩

end Serving

/-! ## A crew and its rounds -/

/-- A dispatcher, and a worker for each type. -/
structure Crew : Type where
  dispatcher : Dispatcher
  worker : String → Worker
  typed : ∀ taskType, (worker taskType).workerType = taskType

namespace Crew

/-- Who takes a record. -/
def consumer (crew : Crew) (json : Json Raw) (r : Record Raw) : Option (Consume Raw) :=
  if r.message.topic = topicPending then some (.route crew.dispatcher r.message)
  else match json.unmarshal r.message.value with
    | none => none
    | some task =>
        if r.message.topic = workerTopic task.type then
          some (.process (crew.worker task.type) r.message)
        else none

variable {crew : Crew} {r : Record Raw} {c : Consume Raw}

theorem consumer_spec (takes : crew.consumer json r = some c) :
    c.message = r.message ∧ r.message.topic = c.topic ∧
      (c.routes = true → r.message.topic = topicPending) := by
  unfold consumer at takes
  split at takes
  · cases takes
    exact ⟨rfl, ‹_›, fun _ => ‹_›⟩
  · split at takes
    · cases takes
    · split at takes
      · cases takes
        refine ⟨rfl, ?_, nofun⟩
        rw [Consume.topic, crew.typed]
        assumption
      · cases takes

/-- Nobody takes dead letters. -/
theorem consumer_live (takes : crew.consumer json r = some c) : r.message.topic ≠ topicDLQ := by
  obtain ⟨_, topic, _⟩ := consumer_spec takes
  rw [topic]
  cases c with
  | route d msg => exact show topicPending ≠ topicDLQ by decide
  | process worker msg => exact (workerTopic_ne worker.workerType).2

/-- The crew takes every record but the dead letters. -/
theorem exists_consumer {log : List (Record Raw)} (inLanes : InLanes json log) (crew : Crew)
    (listed : r ∈ log) (live : r.message.topic ≠ topicDLQ) :
    ∃ c, crew.consumer json r = some c := by
  obtain ⟨x, y, eq⟩ := List.append_of_mem listed
  have lane := inLanes x r y eq
  unfold consumer
  cases lane with
  | submitted new => exact ⟨_, if_pos rfl⟩
  | rejected earlier => exact absurd rfl live
  | buried earlier decodes => exact absurd rfl live
  | @routed task value earlier decodes typed =>
      refine ⟨.process (crew.worker task.type) ⟨workerTopic task.type, task.id, value⟩, ?_⟩
      rw [if_neg (workerTopic_ne task.type).1]
      dsimp only
      rw [decodes]
      exact if_pos rfl

open Classical in
/-- The records that nobody has consumed, each with the member of the crew that takes it. -/
noncomputable def unconsumed (crew : Crew) (json : Json Raw) (h : List (PipelineStep Raw ι))
    (log : List (Record Raw)) : List (Nat × Consume Raw) :=
  log.zipIdx.filterMap fun entry =>
    if Consumed h entry.2 then none
    else (crew.consumer json entry.1).map fun c => (entry.2, c)

theorem mem_unconsumed {h : List (PipelineStep Raw ι)} {log : List (Record Raw)} {n : Nat} :
    (n, c) ∈ crew.unconsumed json h log ↔
      ∃ r, log[n]? = some r ∧ ¬ Consumed h n ∧ crew.consumer json r = some c := by
  unfold unconsumed
  rw [List.mem_filterMap]
  constructor
  · rintro ⟨⟨r, m⟩, member, given⟩
    rw [List.mem_zipIdx_iff_getElem?] at member
    split at given
    · cases given
    · obtain ⟨c', takes, same⟩ := Option.map_eq_some_iff.mp given
      cases same
      exact ⟨r, member, ‹_›, takes⟩
  · rintro ⟨r, found, left, takes⟩
    refine ⟨(r, n), List.mem_zipIdx_iff_getElem?.mpr found, ?_⟩
    rw [if_neg left, takes]
    rfl

open Classical in
/-- The records are in the order of the log. -/
theorem unconsumed_sorted (crew : Crew) (json : Json Raw) (h : List (PipelineStep Raw ι))
    (log : List (Record Raw)) :
    (crew.unconsumed json h log).Pairwise fun a b => a.1 < b.1 := by
  have places : log.zipIdx.Pairwise fun a b => a.2 < b.2 := by
    rw [← List.pairwise_map (f := Prod.snd) (R := (· < ·)), List.zipIdx_map_snd]
    exact List.pairwise_lt_range'
  refine List.Pairwise.filterMap _ (fun a a' before b given b' given' => ?_) places
  have kept : ∀ {a : Record Raw × Nat} {b : Nat × Consume Raw}, b ∈ (if Consumed h a.2 then none
      else (crew.consumer json a.1).map fun c => (a.2, c)) → b.1 = a.2 := by
    intro a b given
    split at given
    · cases given
    · obtain ⟨_, _, rfl⟩ := Option.map_eq_some_iff.mp given
      rfl
  rw [kept given, kept given']
  exact before

end Crew

/-! ## The order of the partitions -/

section Order

variable {P : Type}

/-- No record was consumed before one of its partition that stands in front of it. -/
def InOrder (part : Nat → P) (h : List (PipelineStep Raw ι)) (log : List (Record Raw)) : Prop :=
  ∀ m n r r', log[m]? = some r → log[n]? = some r' → r.message.topic = r'.message.topic →
    r.message.topic ≠ topicDLQ → part m = part n → m < n → Consumed h n → Consumed h m

/-- The record at offset `n` is the next of its partition: those in front of it were
consumed, and it and those behind it were not. -/
def NextInLine (part : Nat → P) (h : List (PipelineStep Raw ι)) (log : List (Record Raw)) (n : Nat)
    (r : Record Raw) : Prop :=
  ∀ m r', log[m]? = some r' → r'.message.topic = r.message.topic → part m = part n →
    (Consumed h m ↔ m < n)

end Order

section Rounds

variable [DecidableEq ι] {P : Type} {part : Nat → P} {w : World Raw} {s t : PipelinePool Raw ι}
  {i : ι} {h h' : List (PipelineStep Raw ι)} {crew : Crew} {log : List (Record Raw)}

/-- One round: the crew consumes, in slot `i`, what nobody has consumed. -/
def Round (json : Json Raw) (crew : Crew) (i : ι) (h : List (PipelineStep Raw ι))
    (s : PipelinePool Raw ι) (h' : List (PipelineStep Raw ι)) (t : PipelinePool Raw ι) : Prop :=
  Serves json i (crew.unconsumed json h s.world.kafka) s h' t

theorem exists_round (json : Json Raw) (crew : Crew) (h : List (PipelineStep Raw ι))
    (free : s.threads i = none) (calm : s.world.Calm) : ∃ h' t, Round json crew i h s h' t := by
  refine serves_all free calm fun job member => ?_
  obtain ⟨n, c⟩ := job
  obtain ⟨r, found, _, takes⟩ := Crew.mem_unconsumed.mp member
  obtain ⟨same, topic, _⟩ := Crew.consumer_spec takes
  exact ⟨Option.map_eq_some_iff.mpr ⟨r, found, same.symm⟩, by rw [same, topic]⟩

/-- After a round the records that were there are consumed. -/
theorem Round.consumed {n : Nat} {r : Record Raw} (round : Round json crew i h s h' t)
    (inLanes : InLanes json s.world.kafka) (found : s.world.kafka[n]? = some r)
    (live : r.message.topic ≠ topicDLQ) : Consumed (h ++ h') n := by
  refine Consumed.append.mpr ?_
  by_cases done : Consumed h n
  · exact .inl done
  · obtain ⟨c, takes⟩ := crew.exists_consumer inLanes (List.mem_of_getElem? found) live
    exact .inr ((Serves.consumed round n).mpr
      ⟨(n, c), Crew.mem_unconsumed.mpr ⟨r, found, done, takes⟩, rfl⟩)

/-- A round consumes nothing else. -/
theorem Round.bounded {n : Nat} (round : Round json crew i h s h' t) (consumed : Consumed h' n) :
    n < s.world.kafka.length := by
  obtain ⟨⟨m, c⟩, listed, rfl⟩ := (Serves.consumed round n).mp consumed
  obtain ⟨r, found, _⟩ := Crew.mem_unconsumed.mp listed
  exact (List.getElem?_eq_some_iff.mp found).1

/-- What a round adds is for the workers or dead, and only dead when all that was left was
for the workers. -/
theorem Round.adds (round : Round json crew i h s h' t) :
    ∃ extra, t.world.kafka = s.world.kafka ++ extra ∧
      (∀ r ∈ extra, r.message.topic ≠ topicPending) ∧
      ((∀ n r, s.world.kafka[n]? = some r → r.message.topic = topicPending → Consumed h n) →
        ∀ r ∈ extra, r.message.topic = topicDLQ) := by
  obtain ⟨extra, grown, adds⟩ := Serves.log round
  refine ⟨extra, grown, fun r member => ?_, fun routed r member => ?_⟩
  · obtain ⟨_, _, added⟩ := adds r member
    exact added.1
  · obtain ⟨⟨n, c⟩, listed, added⟩ := adds r member
    obtain ⟨r', found, left, takes⟩ := Crew.mem_unconsumed.mp listed
    refine added.2 ?_
    by_contra routes
    have pending := (Crew.consumer_spec takes).2.2 (Bool.not_eq_false _ ▸ routes)
    exact left (routed n r' found pending)

/-- A round leaves nothing in `tasks.pending`. -/
theorem Round.routed (round : Round json crew i h s h' t) (inLanes : InLanes json s.world.kafka)
    {n : Nat} {r : Record Raw} (found : t.world.kafka[n]? = some r)
    (pending : r.message.topic = topicPending) : Consumed (h ++ h') n := by
  obtain ⟨extra, grown, live, _⟩ := round.adds
  rw [grown] at found
  by_cases old : n < s.world.kafka.length
  · rw [List.getElem?_append_left old] at found
    refine round.consumed inLanes found ?_
    rw [pending]
    exact show topicPending ≠ topicDLQ by decide
  · rw [List.getElem?_append_right (Nat.le_of_not_lt old)] at found
    exact absurd pending (live r (List.mem_of_getElem? found))

/-- A round leaves nothing at all when all that was left was for the workers. -/
theorem Round.drained (round : Round json crew i h s h' t) (inLanes : InLanes json s.world.kafka)
    (routed : ∀ n r, s.world.kafka[n]? = some r → r.message.topic = topicPending → Consumed h n) :
    Drained (h ++ h') t := by
  obtain ⟨extra, grown, _, dead⟩ := round.adds
  intro n r found alive
  rw [grown] at found
  by_cases old : n < s.world.kafka.length
  · rw [List.getElem?_append_left old] at found
    exact round.consumed inLanes found alive
  · rw [List.getElem?_append_right (Nat.le_of_not_lt old)] at found
    exact absurd (dead routed r (List.mem_of_getElem? found)) alive

/-- The starts of a recovery, after `h`: each of the next record of its partition, by the
member of the crew that takes it. -/
def Crew.Resumes (crew : Crew) (json : Json Raw) (part : Nat → P) (i : ι) (log : List (Record Raw))
    (h : List (PipelineStep Raw ι)) (e : PipelineStep Raw ι) : Prop :=
  ∀ j job, e.label = .start j job → j = i ∧ ∃ n c r, job = .consume n c ∧ log[n]? = some r ∧
    crew.consumer json r = some c ∧ NextInLine part h log n r

/-- A round goes through each partition in order. -/
theorem Round.resumes (round : Round json crew i h s h' t) (inLanes : InLanes json s.world.kafka)
    (bound : ∀ n, Consumed h n → n < s.world.kafka.length)
    (inOrder : InOrder part h s.world.kafka) (grown : ∃ extra, log = s.world.kafka ++ extra) :
    ∀ x e y, h' = x ++ e :: y → crew.Resumes json part i log (h ++ x) e := by
  intro x e y split j job label
  obtain ⟨extra, rfl⟩ := grown
  obtain ⟨same, before, n, c, after, jobs, kind, earlier⟩ := round.starts x e y split j job label
  have sorted := crew.unconsumed_sorted json h s.world.kafka
  rw [jobs, List.pairwise_append] at sorted
  obtain ⟨_, tail, across⟩ := sorted
  have listed : (n, c) ∈ crew.unconsumed json h s.world.kafka := jobs ▸ by simp
  obtain ⟨r, found, left, takes⟩ := Crew.mem_unconsumed.mp listed
  have inside := (List.getElem?_eq_some_iff.mp found).1
  refine ⟨same, n, c, r, kind, (List.getElem?_append_left inside).trans found, takes, ?_⟩
  intro m r' found' topic partition
  have old : m < s.world.kafka.length → s.world.kafka[m]? = some r' := by
    intro small
    rwa [List.getElem?_append_left small] at found'
  have live : r.message.topic ≠ topicDLQ := Crew.consumer_live takes
  rw [Consumed.append, earlier]
  constructor
  · rintro (past | ⟨job, first, rfl⟩)
    · by_contra late
      rcases Nat.lt_or_eq_of_le (Nat.le_of_not_lt late) with behind | rfl
      · exact left (inOrder n m r r' found (old (bound m past)) topic.symm live partition.symm
          behind past)
      · exact left past
    · exact across job first (n, c) List.mem_cons_self
  · intro front
    by_cases past : Consumed h m
    · exact .inl past
    · right
      have there := old (front.trans inside)
      obtain ⟨c', takes'⟩ := crew.exists_consumer inLanes (List.mem_of_getElem? there)
        (topic ▸ live)
      have served : (m, c') ∈ before ++ (n, c) :: after :=
        jobs ▸ Crew.mem_unconsumed.mpr ⟨r', there, past, takes'⟩
      refine ⟨(m, c'), ?_, rfl⟩
      rcases List.mem_append.mp served with first | rest
      · exact first
      · rcases List.mem_cons.mp rest with only | later
        · cases only
          exact absurd front (Nat.lt_irrefl _)
        · have behind := (List.pairwise_cons.mp tail).1 (m, c') later
          exact absurd front (Nat.lt_asymm behind)

/-- After a round everything is in order again. -/
theorem Round.inOrder (round : Round json crew i h s h' t) (inLanes : InLanes json s.world.kafka)
    (bound : ∀ n, Consumed h n → n < s.world.kafka.length) :
    InOrder part (h ++ h') t.world.kafka := by
  obtain ⟨extra, grown, _⟩ := Serves.log round
  intro m n r r' found _ _ live _ front consumed
  have inside : n < s.world.kafka.length :=
    (Consumed.append.mp consumed).elim (bound n) round.bounded
  refine round.consumed inLanes (n := m) (r := r) ?_ live
  rwa [grown, List.getElem?_append_left (front.trans inside)] at found

/-! ## The recovery -/

/-- What consuming the log comes to, from `s` on and after `h`. -/
structure Drains (json : Json Raw) (crew : Crew) (part : Nat → P) (i : ι)
    (h : List (PipelineStep Raw ι)) (s : PipelinePool Raw ι) (h' : List (PipelineStep Raw ι))
    (t : PipelinePool Raw ι) : Prop where
  run : Trace (pipeline ι json).Step s h' t
  calm : ∀ e ∈ h', e.pre.world.Calm
  resumes : ∀ x e y, h' = x ++ e :: y → crew.Resumes json part i t.world.kafka (h ++ x) e
  log : ∃ extra, t.world.kafka = s.world.kafka ++ extra ∧
    ∀ r ∈ extra, r.message.topic ≠ topicPending
  drained : Drained (h ++ h') t

/-- Two rounds consume the log. -/
theorem exists_drains (empty : w.Empty) (crew : Crew) (part : Nat → P) (calm : s.world.Calm)
    (free : s.threads i = none) (run : Trace (pipeline ι json).Step ⟨w, fun _ => none⟩ h s)
    (inOrder : InOrder part h s.world.kafka) : ∃ h' t, Drains json crew part i h s h' t := by
  obtain ⟨first, u, round⟩ := exists_round json crew h free calm
  have calms := Serves.calm round calm
  obtain ⟨second, t, round'⟩ := exists_round (s := u) (i := i) json crew (h ++ first)
    (by rw [round.threads, free]) calms.2
  have middle := run.trans round.run
  have lanes := (sorted_run empty run).inLanes
  have lanes' := (sorted_run empty middle).inLanes
  have bound : ∀ n, Consumed h n → n < s.world.kafka.length := fun _ => Consumed.bounded run
  have bound' : ∀ n, Consumed (h ++ first) n → n < u.world.kafka.length :=
    fun _ => Consumed.bounded middle
  obtain ⟨extra, grown, live, _⟩ := round.adds
  obtain ⟨extra', grown', live', _⟩ := round'.adds
  have kept : t.world.kafka = s.world.kafka ++ (extra ++ extra') := by
    rw [grown', grown, List.append_assoc]
  refine ⟨first ++ second, t, round.run.trans round'.run, fun e member => ?_, ?_,
    ⟨extra ++ extra', kept, fun r member => ?_⟩, ?_⟩
  · rcases List.mem_append.mp member with early | late
    · exact calms.1 e early
    · exact (Serves.calm round' calms.2).1 e late
  · refine forall_split_append (P := fun x e => crew.Resumes json part i t.world.kafka (h ++ x) e)
      (round.resumes lanes bound inOrder ⟨_, kept⟩) fun x e y split => ?_
    rw [← List.append_assoc]
    exact round'.resumes lanes' bound' (round.inOrder lanes bound) ⟨_, grown'⟩ x e y split
  · rcases List.mem_append.mp member with early | late
    · exact live r early
    · exact live' r late
  · rw [← List.append_assoc]
    exact round'.drained lanes' fun n r => round.routed lanes

/-- The broker has the topics that the tasks of the log need. -/
structure Hosts (json : Json Raw) (topics : Set String) (log : List (Record Raw)) : Prop where
  pending : topicPending ∈ topics
  dead : topicDLQ ∈ topics
  typed : ∀ r ∈ log, r.message.topic = topicPending → ∀ task,
    json.unmarshal r.message.value = some task → workerTopic task.type ∈ topics

omit [DecidableEq ι] in
/-- What is added elsewhere than to `tasks.pending` needs no others. -/
theorem Hosts.append {topics : Set String} {extra : List (Record Raw)}
    (hosts : Hosts json topics log) (live : ∀ r ∈ extra, r.message.topic ≠ topicPending) :
    Hosts json topics (log ++ extra) := by
  refine ⟨hosts.pending, hosts.dead, fun r listed pending => ?_⟩
  rcases List.mem_append.mp listed with old | new
  · exact hosts.typed r old pending
  · exact absurd pending (live r new)

omit [DecidableEq ι] in
/-- The topics of the records are among them. -/
theorem Hosts.topic {topics : Set String} (hosts : Hosts json topics log)
    (inLanes : InLanes json log) {r : Record Raw} (listed : r ∈ log) :
    r.message.topic ∈ topics := by
  obtain ⟨x, y, rfl⟩ := List.append_of_mem listed
  cases inLanes x r y rfl with
  | submitted new => exact hosts.pending
  | rejected earlier => exact hosts.dead
  | buried earlier decodes => exact hosts.dead
  | routed earlier decodes typed =>
      obtain ⟨original, before, pending, rfl⟩ := earlier
      exact hosts.typed original (List.mem_append_left _ before) pending _ decodes

omit [DecidableEq ι] in
/-- A task is not dropped where every publication works. -/
theorem Abandoned.of_append {id : String} (abandoned : Abandoned (h ++ h') id)
    (works : ∀ e ∈ h', ∀ j topic key value origin,
      e.label = .act j (.publish topic key value origin) →
        (perform (.publish topic key value origin) e.pre.world).1 = none) : Abandoned h id := by
  obtain ⟨x, b, y, i, value, split, label, failed, since⟩ := abandoned
  have past : b ∉ h' := fun member => failed (works b member _ _ _ _ _ label)
  rcases List.append_eq_append_iff.mp split with ⟨x', _, later⟩ | ⟨y', rfl, rest⟩
  · exact absurd (later ▸ by simp) past
  · cases y' with
    | nil =>
        obtain rfl : b :: y = h' := rest
        exact absurd List.mem_cons_self past
    | cons b' y' =>
        cases rest
        exact ⟨x, b, y', i, value, rfl, label, failed, since⟩

/-- **The pipeline recovers.**  Take any state that a run from empty stores can reach,
whatever failed on the way and whatever the other slots are stuck in, in which no record
was consumed before one in front of it in its partition.  Once every call works again and
no context is cancelled, a dispatcher and a worker for each type can consume the log in
one free slot that has all partitions, each time the next record of a partition, and
publish to topics the broker has.  Every task that was ever published is then settled,
unless a worker had dropped it before. -/
theorem pipeline_recovers (json : Json Raw) (w : World Raw) (empty : w.Empty) (crew : Crew)
    (part : Nat → P) (topics : Set String)
    (run : Trace (pipeline ι json).Step ⟨w, fun _ => none⟩ h s)
    (repaired : ({ s.world with cancelled := false } : World Raw).Calm)
    (free : s.threads i = none) (inOrder : InOrder part h s.world.kafka)
    (hosts : Hosts json topics s.world.kafka) :
    ∃ h' t, Trace (pipeline ι json).Step s h' t ∧
      (∀ x e y, h' = x ++ e :: y → crew.Resumes json part i t.world.kafka (h ++ x) e) ∧
      (∀ e ∈ h', ∀ j topic key value origin,
        e.label = .act j (.publish topic key value origin) → topic ∈ topics) ∧
      Drained (h ++ h') t ∧
      ∀ r ∈ s.world.kafka, r.message.topic = topicPending →
        ∀ task, json.unmarshal r.message.value = some task →
          Concluded json (h ++ h') t.world.kafka task.id ∨ Abandoned h task.id := by
  -- The process that takes over has a context of its own.
  obtain ⟨u, same, running, enters⟩ : ∃ u : PipelinePool Raw ι,
      u.world = { s.world with cancelled := false } ∧ u.threads = s.threads ∧
        (pipeline ι json).Step s .env u :=
    ⟨⟨_, s.threads⟩, rfl, rfl, .env (.context false)⟩
  have log : u.world.kafka = s.world.kafka := by rw [same]
  have unmoved : ∀ n, Consumed (h ++ [⟨s, .env, u⟩]) n ↔ Consumed h n := by
    intro n
    rw [Consumed.append, or_iff_left]
    refine not_consumed fun e only j label => ?_
    rw [List.mem_singleton.mp only] at label
    cases label
  have start := run.trans (.single enters)
  obtain ⟨h', t, drains⟩ := exists_drains empty crew part (same ▸ repaired)
    (running ▸ free) start fun m n r r' found found' topic live partition front consumed => by
      rw [log] at found found'
      rw [unmoved] at consumed ⊢
      exact inOrder m n r r' found found' topic live partition front consumed
  have whole := start.trans drains.run
  have drained := drains.drained
  obtain ⟨extra, grown, live⟩ := drains.log
  rw [List.append_assoc] at whole drained
  rw [log] at grown
  have hosts' : Hosts json topics t.world.kafka := grown ▸ hosts.append live
  have works : ∀ e ∈ [⟨s, .env, u⟩] ++ h', ∀ j topic key value origin,
      e.label = .act j (.publish topic key value origin) →
        (perform (.publish topic key value origin) e.pre.world).1 = none := by
    intro e member j topic key value origin label
    rcases List.mem_append.mp member with only | served
    · rw [List.mem_singleton.mp only] at label
      cases label
    · exact ((drains.calm e served).up.publish topic key value origin).1
  have resumed := (Trace.single enters).trans drains.run
  refine ⟨[⟨s, .env, u⟩] ++ h', t, resumed, ?_, ?_, drained, ?_⟩
  · refine forall_split_append (P := fun x e => crew.Resumes json part i t.world.kafka (h ++ x) e)
      (fun x e y split j job label => ?_) fun x e y split => ?_
    · have only : e ∈ [(⟨s, .env, u⟩ : PipelineStep Raw ι)] := split ▸ by simp
      rw [List.mem_singleton.mp only] at label
      cases label
    · rw [← List.append_assoc]
      exact drains.resumes x e y split
  · intro e member j topic key value origin label
    have sent := published_run resumed member label (works e member j topic key value origin label)
    exact hosts'.topic (sorted_run empty whole).inLanes sent
  · intro r listed pending task decodes
    have still : r ∈ t.world.kafka := grown ▸ List.mem_append_left _ listed
    have settled := settled_of_drained empty whole drained still pending decodes
    exact settled.imp_right fun abandoned => abandoned.of_append works

end Rounds

/-- An email is submitted; a dispatcher sends it on and hangs. -/
def hungDispatcher : List (Move (World Task) Bool (Job Task)) :=
  (submitAndRoute ⟨"email", [123, 125], 1, 0⟩).take 11

/-- Email workers, whatever the type. -/
def emailCrew : Crew where
  dispatcher := ⟨false⟩
  worker taskType := { emailWorker 3 with workerType := taskType }
  typed _ := rfl

/-- The topics of a deployment for emails. -/
def emailTopics : Set String := {topicPending, topicDLQ, workerTopic "email"}

theorem pipeline_recovers_email :
    ∃ h t, Drained ((pipeline Bool plainJson).play (undeployed .calm) hungDispatcher ++ h) t ∧
      Concluded plainJson ((pipeline Bool plainJson).play (undeployed .calm) hungDispatcher ++ h)
        t.world.kafka "x" := by
  have admitted : ∀ e ∈ (pipeline Bool plainJson).play (undeployed .calm) hungDispatcher,
      (pipeline Bool plainJson).Admitted e := by decide
  have run := System.play_trace admitted (by simp [hungDispatcher, submitAndRoute])
  have calm : ((pipeline Bool plainJson).final (undeployed .calm) hungDispatcher).world.Calm := by
    refine run.invariant (I := fun s : PipelinePool Task Bool => s.world.Calm)
      ⟨⟨rfl, fun _ => rfl, fun _ => rfl⟩, fun _ _ => rfl⟩ fun e member step => ?_
    exact pipeline_calm step (System.play_inside _ (by simp [hungDispatcher, submitAndRoute]) e
      member)
  have log : ((pipeline Bool plainJson).final (undeployed .calm) hungDispatcher).world.kafka =
      [⟨pendingMessage plainJson (firstTask ⟨"email", [123, 125], 1, 0⟩), .gateway⟩,
        ⟨workerMessage plainJson (firstTask ⟨"email", [123, 125], 1, 0⟩), .dispatcher⟩] := by
    decide
  have repaired : ({ ((pipeline Bool plainJson).final (undeployed .calm) hungDispatcher).world with
      cancelled := false } : World Task).Calm :=
    ⟨⟨rfl, calm.inHandle, calm.inWait⟩, calm.reliable⟩
  -- The two records are in different topics.
  have inOrder : InOrder (fun _ => ())
      ((pipeline Bool plainJson).play (undeployed .calm) hungDispatcher)
      ((pipeline Bool plainJson).final (undeployed .calm) hungDispatcher).world.kafka := by
    rw [log]
    intro m n r r' found found' topic _ _ front _
    have bound := (List.getElem?_eq_some_iff.mp found').1
    rw [List.length_cons, List.length_singleton] at bound
    obtain rfl : n = 1 := by omega
    obtain rfl : m = 0 := by omega
    cases found
    cases found'
    exact absurd topic (by decide)
  have hosts : Hosts plainJson emailTopics
      ((pipeline Bool plainJson).final (undeployed .calm) hungDispatcher).world.kafka := by
    rw [log]
    refine ⟨.inl rfl, .inr (.inl rfl), fun r listed pending task decodes => ?_⟩
    rcases List.mem_cons.mp listed with rfl | second
    · cases decodes
      exact .inr (.inr rfl)
    · rw [List.mem_singleton.mp second] at pending
      exact absurd pending (by decide)
  have free : ((pipeline Bool plainJson).final (undeployed .calm) hungDispatcher).threads true =
      none := rfl
  obtain ⟨h, t, _, _, _, drained, settled⟩ := pipeline_recovers plainJson _
    (undeployed_empty .calm) emailCrew (fun _ => ()) emailTopics run repaired free inOrder hosts
  have listed : (⟨pendingMessage plainJson (firstTask ⟨"email", [123, 125], 1, 0⟩), .gateway⟩ :
      Record Task) ∈ ((pipeline Bool plainJson).final (undeployed .calm)
        hungDispatcher).world.kafka := by decide
  have works : ∀ e ∈ (pipeline Bool plainJson).play (undeployed .calm) hungDispatcher,
      e.pre.world.fails .publish = false := by decide
  refine ⟨h, t, drained, (settled _ listed rfl _ rfl).resolve_right fun abandoned => ?_⟩
  obtain ⟨e, member, failed⟩ := abandoned.exists_failed
  cases (works e member).symm.trans failed

end TaskFlow
