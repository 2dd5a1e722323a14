import TaskFlow.RateLimiter
import TaskFlow.Scheduler
import TaskFlow.Workload

/-!
# How many tasks the dispatchers let through

`RateLimiter` is about the calls of `Allow`, the rest of the development about dispatchers
with any limiter.  Here they are put together: any number of dispatchers route messages at
the same time, and their limiter is the sliding window on one Redis server, whose pipelines
may fail with or without effect.

A permission is good for one task (`Dispatcher.route_within`), and a window has at most
`limit` of them (`RateLimiter.permits_le`), so the tasks sent to the workers of a type are
bounded by the windows that pass (`forwarded_le`).  A limiter that fails lets the task
through, which is why its errors stand in the bound.
-/

namespace TaskFlow

open Effect

variable {Raw ι : Type}

/-! ## Dispatchers on one limiter -/

/-- The Redis server of the limiter, with the clock readings and the ends of the pipelines
to come, in the order in which it executes them.  Its clock is that of the dispatchers. -/
structure LimiterServer : Type where
  sets : SortedSets
  clock : Nat → Nat
  fault : Nat → Fault

namespace LimiterServer

/-- The next call of `Allow`, for a key. -/
def nextCall (l : LimiterServer) (key : String) : AllowCall := ⟨key, l.clock 0, l.clock 0⟩

/-- Whether the server executes the next pipeline. -/
def executes (l : LimiterServer) (cancelled : Bool) : Bool := !cancelled && l.fault 0 != .lost

/-- The next pipeline is over. -/
def spend (l : LimiterServer) : LimiterServer :=
  { l with clock := rest l.clock, fault := rest l.fault }

/-- `slidingWindowLimiter.Allow`. -/
def allow (r : RateLimiter) (cancelled : Bool) (key : String) (l : LimiterServer) :
    Except Error Bool × LimiterServer :=
  let failed (err : Error) : Except Error Bool :=
    .error (.wrap ("rate limiter pipeline for " ++ Scheduler.quote key) err)
  let (ok, sets) := r.allow (l.nextCall key) l.sets
  if cancelled then (failed .canceled, l.spend)
  else
    match l.fault 0 with
    | .none => (.ok ok, { l.spend with sets := sets })
    | .lost => (failed (.new "connection refused"), l.spend)
    | .hidden => (failed (.new "i/o timeout"), { l.spend with sets := sets })

end LimiterServer

/-- Answer one call of a dispatcher, the limiter being this one. -/
def performLimited (r : RateLimiter) :
    (op : Op Raw) → World Raw × LimiterServer → op.Ans × (World Raw × LimiterServer)
  | .allow taskType, (w, l) =>
      let (answer, l') := l.allow r w.cancelled taskType
      (answer, w, l')
  | op, (w, l) => ((perform op w).1, (perform op w).2, l)

/-- The records of the topic of a type. -/
def World.forwarded (w : World Raw) (taskType : String) : Nat :=
  w.kafka.countP fun r => r.message.topic == workerTopic taskType

/-- Dispatchers with a limiter, each routing one message after another.  Other services may
change the world, but they send nothing to a worker and do not call the limiter. -/
def limitedDispatchers (ι : Type) (json : Json Raw) (r : RateLimiter) :
    System (Op Raw) Op.Ans (World Raw × LimiterServer) ι (Message Raw) (Option Error) where
  perform := performLimited r
  body _ msg := (Dispatcher.mk true).route json msg
  Admits _ _ _ := True
  Env s s' := s'.2 = s.2 ∧ ∀ taskType, s'.1.forwarded taskType = s.1.forwarded taskType

/-- The pool of the dispatchers. -/
abbrev LimitedPool (Raw ι : Type) : Type :=
  Pool (Op Raw) Op.Ans (World Raw × LimiterServer) ι (Message Raw) (Option Error)

/-- A step of the dispatchers. -/
abbrev LimitedStep (Raw ι : Type) : Type :=
  Transition (LimitedPool Raw ι) (Label (Op Raw) ι (Message Raw))

/-- The limiter fails on a task of the type. -/
def limiterFailed (r : RateLimiter) (taskType : String) (e : LimitedStep Raw ι) : Bool :=
  match e.label with
  | .act _ (.allow key) =>
      key == taskType && !(e.pre.world.2.allow r e.pre.world.1.cancelled key).1.toBool
  | _ => false

/-! ## One permission for one task -/

/-- A record for the workers of the type. -/
def Op.forwardCost (taskType : String) : Op Raw → Nat
  | .publish topic _ _ _ => if topic = workerTopic taskType then 1 else 0
  | _ => 0

/-- An answer of the limiter that lets a task of the type through. -/
def passGain (taskType : String) : (op : Op Raw) → op.Ans → Nat
  | .allow key, answer =>
      match answer with
      | .ok false => 0
      | _ => if key = taskType then 1 else 0
  | _, _ => 0

theorem Dispatcher.route_within (json : Json Raw) (taskType : String) (msg : Message Raw) :
    Prog.Within (Op.forwardCost taskType) (passGain taskType) 0
      ((Dispatcher.mk true).route json msg) := by
  have elsewhere : Op.forwardCost taskType (.publish topicDLQ "" msg.value .dispatcher) = 0 := by
    rw [Op.forwardCost, if_neg (workerTopic_ne taskType).2.symm]
  have toDLQ : ∀ n, Prog.Within (Op.forwardCost taskType) (passGain taskType) n
      (Dispatcher.toDLQ msg.value) := fun n => .free elsewhere fun _ => trivial
  have reject : Prog.Within (Op.forwardCost taskType) (passGain taskType) 0
      (Dispatcher.reject msg) := .free rfl fun _ => toDLQ 0
  -- Sending a task costs one for its own type and nothing for another.
  have forward : ∀ task, Prog.Within (Op.forwardCost taskType) (passGain taskType)
      (if task.type = taskType then 1 else 0) (Dispatcher.forward msg task) := by
    intro task
    refine ⟨0, ?_, fun answer => ?_⟩
    · unfold Op.forwardCost
      dsimp only
      split
      · rename_i same
        rw [if_pos (workerTopic_injective same)]
      · exact Nat.zero_le _
    · cases answer with
      | some err => trivial
      | none => exact .free rfl fun _ => .free rfl fun _ => trivial
  unfold Dispatcher.route
  split
  · exact reject
  · rename_i task decodes
    split
    · exact reject
    · rw [if_pos rfl]
      refine ⟨0, Nat.le_refl 0, fun answer => ?_⟩
      rw [Nat.zero_add]
      rcases answer with err | (_ | _)
      · exact forward task
      · exact .free rfl fun _ => .free rfl fun _ => toDLQ _
      · exact forward task

theorem performLimited_forwarded (r : RateLimiter) (taskType : String) (op : Op Raw)
    (s : World Raw × LimiterServer) :
    (performLimited r op s).2.1.forwarded taskType ≤
      s.1.forwarded taskType + op.forwardCost taskType := by
  have sent : (perform op s.1).2.forwarded taskType ≤
      s.1.forwarded taskType + op.forwardCost taskType := by
    unfold World.forwarded
    rcases perform_log op s.1 with same | ⟨topic, key, value, origin, rfl, _, grown⟩
    · rw [same]
      exact Nat.le_add_right _ _
    · rw [grown, List.countP_append, List.countP_singleton]
      simp [Op.forwardCost]
  cases op with
  | allow key => exact Nat.le_add_right _ _
  | _ => exact sent

theorem limited_budget (ι : Type) (json : Json Raw) (r : RateLimiter) (taskType : String) :
    Budget (limitedDispatchers ι json r) (Op.forwardCost taskType) (passGain taskType)
      (fun _ => 0) (fun s => s.1.forwarded taskType) where
  body _ msg := Dispatcher.route_within json taskType msg
  call := performLimited_forwarded r taskType
  env _ _ moved := (moved.2 taskType).le

/-! ## What the server executes -/

/-- The transaction of the limiter that a step executes. -/
def limiterEvent (r : RateLimiter) (e : LimitedStep Raw ι) : Option RateLimiter.Event :=
  match e.label with
  | .act _ (.allow key) =>
      let (w, l) := e.pre.world
      if l.executes w.cancelled then
        let (ok, sets) := r.allow (l.nextCall key) l.sets
        some ⟨l.sets, ⟨l.nextCall key, ok⟩, sets⟩
      else none
  | _ => none

/-- The answer is an error or that of the transaction. -/
theorem LimiterServer.allow_answer (r : RateLimiter) (cancelled : Bool) (key : String)
    (l : LimiterServer) :
    (∃ err, (l.allow r cancelled key).1 = .error err) ∨
    l.executes cancelled = true ∧
      (l.allow r cancelled key).1 = .ok (r.allow (l.nextCall key) l.sets).1 := by
  unfold LimiterServer.allow executes
  cases cancelled with
  | true => exact .inl ⟨_, rfl⟩
  | false =>
      cases l.fault 0 with
      | none => exact .inr ⟨rfl, rfl⟩
      | lost => exact .inl ⟨_, rfl⟩
      | hidden => exact .inl ⟨_, rfl⟩

/-- The server executes the transaction of the call or its sets stay as they are. -/
theorem LimiterServer.allow_cases (r : RateLimiter) (cancelled : Bool) (key : String)
    (l : LimiterServer) :
    (l.allow r cancelled key).2 = { l.spend with
      sets := if l.executes cancelled then (r.allow (l.nextCall key) l.sets).2 else l.sets } := by
  unfold LimiterServer.allow executes
  cases cancelled with
  | true => rfl
  | false =>
      cases l.fault 0 with
      | none => rfl
      | lost => rfl
      | hidden => rfl

theorem limiterEvent_of_allow {r : RateLimiter} {e : LimitedStep Raw ι} {i : ι} {key : String}
    (label : e.label = .act i (.allow key)) :
    limiterEvent r e =
      if e.pre.world.2.executes e.pre.world.1.cancelled then
        some ⟨e.pre.world.2.sets, ⟨e.pre.world.2.nextCall key,
          (r.allow (e.pre.world.2.nextCall key) e.pre.world.2.sets).1⟩,
          (r.allow (e.pre.world.2.nextCall key) e.pre.world.2.sets).2⟩
      else none := by
  unfold limiterEvent
  rw [label]

namespace RateLimiter

variable {r : RateLimiter} {events : List Event} {sets : SortedSets}

/-- A call on the key that was allowed. -/
def permits (key : String) (e : Event) : Bool := e.label.ok && e.label.call.key == key

/-- Over any keys, at most `limit` calls on one of them are allowed in a window. -/
theorem permits_le (window : 0 < r.window.toInt) (lasts : r.window.toInt ≤ r.ttl)
    (run : Trace r.Step (fun _ => none) events sets)
    (increasing : events.Pairwise fun a b => a.label.call.now < b.label.call.now)
    (oneClock : ∀ e ∈ events, e.label.call.served = e.label.call.now) (key : String)
    {chosen : Event → Bool} (chosen_permits : ∀ e, chosen e = true → permits key e = true)
    (together : ∀ e e', chosen e = true → chosen e' = true →
      (e.label.call.now : Int) - r.window.toInt < e'.label.call.now) :
    events.countP chosen ≤ r.limit.toInt.toNat := by
  have onKey : ∀ e, chosen e = true → e.label.ok = true ∧ e.label.call.key = key := by
    intro e taken
    obtain ⟨allowed, same⟩ := Bool.and_eq_true_iff.mp (chosen_permits e taken)
    exact ⟨allowed, beq_iff_eq.mp same⟩
  apply countP_le_of_recent r.recent events
  · intro x e y eq taken
    subst eq
    obtain ⟨before, step, _⟩ := run.split_cons
    have upTo : (x ++ [e]).Pairwise fun a b => a.label.call.now < b.label.call.now :=
      increasing.sublist (by simp)
    obtain ⟨complete, lasting⟩ := tracked_of_run window lasts before
      (List.pairwise_append.mp increasing).1 fun e' member =>
        oneClock e' (List.mem_append_left _ member)
    have counted := complete.le_card (lasting.timely lasts (oneClock e (by simp))) upTo
    have within := (Step.ok_iff step).mp (onKey e taken).1
    omega
  · intro x e y _ taken e' _ taken'
    apply decide_eq_true
    exact ⟨(onKey e' taken').2.trans (onKey e taken).2.symm, together e e' taken taken'⟩

/-- The calls on a key between two readings that are allowed, counted by windows. -/
theorem permits_le_windows (window : 0 < r.window.toInt) (lasts : r.window.toInt ≤ r.ttl)
    (run : Trace r.Step (fun _ => none) events sets)
    (increasing : events.Pairwise fun a b => a.label.call.now < b.label.call.now)
    (oneClock : ∀ e ∈ events, e.label.call.served = e.label.call.now) {key : String} {lo hi : Nat}
    (between : ∀ e ∈ events, e.label.call.key = key →
      lo ≤ e.label.call.now ∧ e.label.call.now ≤ hi) :
    events.countP (permits key) ≤
      r.limit.toInt.toNat * ((hi - lo) / r.window.toInt.toNat + 1) := by
  have positive : 0 < r.window.toInt.toNat := by omega
  have early : ∀ e ∈ events, permits key e = true →
      lo ≤ e.label.call.now ∧ e.label.call.now ≤ hi := by
    intro e member allowed
    exact between e member (beq_iff_eq.mp (Bool.and_eq_true_iff.mp allowed).2)
  apply countP_le_of_classes fun e => (e.label.call.now - lo) / r.window.toInt.toNat
  · intro e member allowed
    have upTo := early e member allowed
    exact Nat.div_le_div_right (by omega)
  · intro j _
    -- Two calls of one class are less than a window apart.
    have inside : events.countP (fun e => permits key e &&
        (e.label.call.now - lo) / r.window.toInt.toNat == j) ≤
        events.countP fun e => permits key e && decide (lo + j * r.window.toInt.toNat ≤
          e.label.call.now ∧ e.label.call.now < lo + (j + 1) * r.window.toInt.toNat) := by
      refine List.countP_mono_left fun e member taken => ?_
      obtain ⟨allowed, here⟩ := Bool.and_eq_true_iff.mp taken
      have from_lo := (early e member allowed).1
      have bounds := (Nat.div_eq_iff positive).mp (beq_iff_eq.mp here)
      rw [allowed, Bool.true_and, decide_eq_true_eq, Nat.succ_mul]
      omega
    refine inside.trans (permits_le window lasts run increasing oneClock key ?_ ?_)
    · intro e taken
      exact (Bool.and_eq_true_iff.mp taken).1
    · intro e e' taken taken'
      have first := of_decide_eq_true (Bool.and_eq_true_iff.mp taken).2
      have second := of_decide_eq_true (Bool.and_eq_true_iff.mp taken').2
      rw [Nat.succ_mul] at first
      omega

end RateLimiter

section Runs

variable [DecidableEq ι] {json : Json Raw} {r : RateLimiter} {s t : LimitedPool Raw ι}
  {h : List (LimitedStep Raw ι)} {e : LimitedStep Raw ι}

/-- What a step does to the server: one call of `Allow`, or nothing. -/
theorem limited_server (taken : (limitedDispatchers ι json r).Step e.pre e.label e.post) :
    (∃ i key, e.label = .act i (.allow key) ∧
      e.post.world.2 = (e.pre.world.2.allow r e.pre.world.1.cancelled key).2) ∨
    limiterEvent r e = none ∧ e.post.world.2 = e.pre.world.2 := by
  obtain ⟨pre, label, post⟩ := e
  rcases taken.world_cases with ⟨quiet, same⟩ | ⟨i, request, op, next, rfl, _, world⟩ |
    ⟨rfl, moved⟩
  · refine .inr ⟨?_, congrArg Prod.snd same⟩
    cases label with
    | act i op => exact absurd rfl (quiet i op)
    | _ => rfl
  · have server : post.world.2 = (performLimited r op pre.world).2.2 := congrArg Prod.snd world
    cases op with
    | allow key => exact .inl ⟨i, key, rfl, server⟩
    | _ => exact .inr ⟨rfl, server⟩
  · exact .inr ⟨rfl, moved.1⟩

/-- The transactions of a run are a run of the limiter. -/
theorem limiter_trace (run : Trace (limitedDispatchers ι json r).Step s h t) :
    Trace r.Step s.world.2.sets (h.filterMap (limiterEvent r)) t.world.2.sets := by
  refine run.filterMap (f := fun s => s.world.2.sets) ?_ ?_
  · intro e _ taken silent
    rcases limited_server taken with ⟨i, key, label, server⟩ | ⟨_, same⟩
    · rw [limiterEvent_of_allow label] at silent
      rw [server, LimiterServer.allow_cases]
      split at silent
      · cases silent
      · rename_i skipped
        exact if_neg skipped
    · rw [same]
  · intro e _ taken e' shown
    rcases limited_server taken with ⟨i, key, label, server⟩ | ⟨silent, _⟩
    · rw [Option.mem_def, limiterEvent_of_allow label] at shown
      rw [server, LimiterServer.allow_cases]
      split at shown
      · rename_i executed
        obtain rfl := Option.some.inj shown
        exact ⟨rfl, (if_pos executed).symm, rfl⟩
      · cases shown
    · rw [silent] at shown
      cases shown

/-- Every transaction has a reading of its own, and the server's clock. -/
theorem limiter_readings (run : Trace (limitedDispatchers ι json r).Step s h t)
    (clock : StrictMono s.world.2.clock) :
    ((h.filterMap (limiterEvent r)).Pairwise fun a b => a.label.call.now < b.label.call.now) ∧
    ∀ e ∈ h.filterMap (limiterEvent r), e.label.call.served = e.label.call.now := by
  have tracked := run.history (I := fun x s => StrictMono s.world.2.clock ∧
    (∀ e ∈ x.filterMap (limiterEvent r), e.label.call.now < s.world.2.clock 0 ∧
      e.label.call.served = e.label.call.now) ∧
    (x.filterMap (limiterEvent r)).Pairwise fun a b => a.label.call.now < b.label.call.now)
    ⟨clock, fun e member => absurd member List.not_mem_nil, .nil⟩ ?_
  · exact ⟨tracked.2.2, fun e member => (tracked.2.1 e member).2⟩
  intro x e y _ taken before
  obtain ⟨mono, past, increasing⟩ := before
  rw [List.filterMap_append]
  rcases limited_server taken with ⟨i, key, label, server⟩ | ⟨silent, same⟩
  · have next : e.post.world.2.clock = rest e.pre.world.2.clock := by
      rw [server, LimiterServer.allow_cases]
      rfl
    have later : e.pre.world.2.clock 0 < e.post.world.2.clock 0 := by
      rw [next]
      exact mono Nat.zero_lt_one
    refine ⟨?_, ?_⟩
    · rw [next]
      exact fun m n less => mono (Nat.succ_lt_succ less)
    · cases shows : limiterEvent r e with
      | none =>
          rw [List.filterMap_cons_none shows, List.filterMap_nil, List.append_nil]
          refine ⟨fun e' member => ?_, increasing⟩
          exact ⟨(past e' member).1.trans later, (past e' member).2⟩
      | some e' =>
          have reading : e'.label.call = e.pre.world.2.nextCall key := by
            rw [limiterEvent_of_allow label] at shows
            split at shows
            · obtain rfl := Option.some.inj shows
              rfl
            · cases shows
          have now : e'.label.call.now = e.pre.world.2.clock 0 := by
            rw [reading]
            rfl
          rw [List.filterMap_cons_some shows, List.filterMap_nil]
          refine ⟨fun e'' member => ?_, List.pairwise_append.mpr
            ⟨increasing, List.pairwise_singleton _ _, fun a member b last => ?_⟩⟩
          · rcases List.mem_append.mp member with old | last
            · exact ⟨(past e'' old).1.trans later, (past e'' old).2⟩
            · obtain rfl := List.mem_singleton.mp last
              refine ⟨now ▸ later, ?_⟩
              rw [reading]
              rfl
          · obtain rfl := List.mem_singleton.mp last
            rw [now]
            exact (past a member).1
  · rw [List.filterMap_cons_none silent, List.filterMap_nil, List.append_nil, same]
    exact ⟨mono, past, increasing⟩

omit [DecidableEq ι] in
/-- A task gets through with a permission or because the limiter failed. -/
theorem earned_le (json : Json Raw) (r : RateLimiter) (taskType : String)
    (e : LimitedStep Raw ι) :
    earned (limitedDispatchers ι json r) (passGain taskType) e ≤
      (limiterEvent r e).toList.countP (RateLimiter.permits taskType) +
        if limiterFailed r taskType e then 1 else 0 := by
  obtain ⟨⟨⟨w, l⟩, threads⟩, label, post⟩ := e
  cases label with
  | act i op =>
      cases op with
      | allow key =>
          change passGain taskType (.allow key) (l.allow r w.cancelled key).1 ≤ _
          rw [limiterEvent_of_allow rfl]
          rcases l.allow_answer r w.cancelled key with ⟨err, failed⟩ | ⟨executed, answered⟩
          · have counted : limiterFailed r taskType
                (⟨⟨(w, l), threads⟩, .act i (.allow key), post⟩ : LimitedStep Raw ι) =
                  (key == taskType) := by
              simp [limiterFailed, failed, Except.toBool]
            rw [counted, failed]
            simp [passGain]
          · rw [answered, if_pos executed]
            cases allowed : (r.allow (l.nextCall key) l.sets).1 with
            | false => exact Nat.zero_le _
            | true => simp [passGain, RateLimiter.permits, LimiterServer.nextCall]
      | _ => exact Nat.zero_le _
  | _ => exact Nat.zero_le _

omit [DecidableEq ι] in
theorem earned_sum_le (json : Json Raw) (r : RateLimiter) (taskType : String)
    (h : List (LimitedStep Raw ι)) :
    (h.map (earned (limitedDispatchers ι json r) (passGain taskType))).sum ≤
      (h.filterMap (limiterEvent r)).countP (RateLimiter.permits taskType) +
        h.countP (limiterFailed r taskType) := by
  induction h with
  | nil => exact Nat.le_refl 0
  | cons e h ih =>
      have here := earned_le json r taskType e
      rw [List.map_cons, List.sum_cons, List.countP_cons]
      cases shows : limiterEvent r e with
      | none =>
          rw [List.filterMap_cons_none shows]
          rw [shows, Option.toList_none, List.countP_nil] at here
          omega
      | some e' =>
          rw [List.filterMap_cons_some shows, List.countP_cons]
          rw [shows, Option.toList_some, List.countP_singleton] at here
          omega

/-- At most `limit` tasks of a type get through in every window, and those on which the
limiter fails: in every run of any number of dispatchers from an empty limiter, however
their calls interleave and whichever of them crash. -/
theorem forwarded_le (taskType : String) (lo hi : Nat) (window : 0 < r.window.toInt)
    (fits : r.window.toInt < 2 ^ 62) (idle : ∀ i, s.threads i = none)
    (empty : s.world.2.sets = fun _ => none) (clock : StrictMono s.world.2.clock)
    (run : Trace (limitedDispatchers ι json r).Step s h t)
    (between : ∀ e ∈ h.filterMap (limiterEvent r), e.label.call.key = taskType →
      lo ≤ e.label.call.now ∧ e.label.call.now ≤ hi) :
    t.world.1.forwarded taskType ≤ s.world.1.forwarded taskType +
      r.limit.toInt.toNat * ((hi - lo) / r.window.toInt.toNat + 1) +
      h.countP (limiterFailed r taskType) := by
  have spent := (limited_budget ι json r taskType).bound_earned idle run
  have passed := earned_sum_le json r taskType h
  have served := limiter_trace run
  rw [empty] at served
  obtain ⟨increasing, oneClock⟩ := limiter_readings run clock
  have allowed := RateLimiter.permits_le_windows window
    (RateLimiter.window_le_ttl window fits) served increasing oneClock between
  omega

end Runs

/-- A limiter that has seen no call, whose fourth pipeline is lost. -/
def newLimiter : LimiterServer where
  sets _ := none
  clock
    | 0 => 5
    | 1 => 6
    | n => 2000000000 + n
  fault n := if n = 3 then .lost else .none

theorem newLimiter_clock : StrictMono newLimiter.clock := by
  refine strictMono_nat_of_lt_succ fun n => ?_
  match n with
  | 0 => decide
  | 1 => decide
  | n + 2 => exact Nat.lt_succ_self (2000000000 + (n + 2))

/-- Two dispatchers that have not started. -/
def twoDispatchers : LimitedPool Task Bool := ⟨(World.fresh .calm, newLimiter), fun _ => none⟩

/-- Two messages at the same time, of which the limiter rejects one, and two more in the
next second, on the second of which it fails. -/
def fourEmails : List (Move (World Task × LimiterServer) Bool (Message Task)) :=
  [.start false emailMessage, .start true emailMessage, .act false, .act true, .act false,
    .act true, .act true, .act true, .stop true, .start true emailMessage, .act true, .act true,
    .stop true, .start true emailMessage, .act true, .act true]

theorem forwarded_le_email :
    ((limitedDispatchers Bool plainJson RateLimiter.onePerSecond).final twoDispatchers
      fourEmails).world.1.forwarded "email" = 3 ∧
    ((limitedDispatchers Bool plainJson RateLimiter.onePerSecond).final twoDispatchers
      fourEmails).world.1.forwarded "email" ≤ 0 + 1 * 2 + 1 := by
  have admitted : ∀ e ∈ (limitedDispatchers Bool plainJson RateLimiter.onePerSecond).play
      twoDispatchers fourEmails,
      (limitedDispatchers Bool plainJson RateLimiter.onePerSecond).Admitted e := by
    intro e _
    unfold System.Admitted
    split
    · trivial
    · trivial
  have run := System.play_trace admitted (by simp [fourEmails])
  exact ⟨by decide, forwarded_le "email" 5 2000000002 (by decide) (by decide) (fun _ => rfl) rfl
    newLimiter_clock run (by decide)⟩

end TaskFlow
