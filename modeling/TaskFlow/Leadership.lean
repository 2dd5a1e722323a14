import Mathlib.Algebra.Order.Group.Int
import TaskFlow.Scheduler
import TaskFlow.Effect.Pool
import TaskFlow.Effect.Lease

/-!
# Exclusivity of the scheduler leadership

Any number of scheduler instances make their `acquireOrRenewLeadership` calls
concurrently, one Redis command at a time, while the server's clock moves on and
commands fail with or without their effect.  The leader key is a lease
(`Redis.leaderLease`): every step of the pool is a step of it
(`leadership_step_refines`), and the command that makes a call return true is the
grant its instance learns of.  `leadership_exclusive` is then exclusivity of the
lease.
-/

namespace TaskFlow

open Effect

variable {Raw ι : Type}

/-- Time passes on the Redis server. -/
def World.elapse (w : World Raw) (d : Time) : World Raw :=
  { w with redis.time := w.redis.time + d }

/-- The instances `ids`, each making leadership calls one after another. -/
def leadership (Raw : Type) (ids : ι → String) :
    System (Op Raw) Op.Ans (World Raw) ι Unit Bool where
  perform := perform
  body i _ := Scheduler.acquireOrRenewLeadership (ids i)
  Admits _ _ _ := True
  Env w w' := ∃ d, 0 ≤ d ∧ w' = w.elapse d

/-- The pool of the leadership calls. -/
abbrev LeadershipPool (Raw ι : Type) : Type :=
  Pool (Op Raw) Op.Ans (World Raw) ι Unit Bool

/-- A step of the leadership calls. -/
abbrev LeadershipStep (Raw ι : Type) : Type :=
  Transition (LeadershipPool Raw ι) (Label (Op Raw) ι Unit)

/-- This transition is the Redis command that makes a call of instance `i` return
true, and it ran at Redis time `t`. -/
def Decides (e : LeadershipStep Raw ι) (i : ι) (t : Time) : Prop :=
  (∃ op, e.label = .act i op) ∧ (∃ request, e.post.threads i = some ⟨request, .pure true⟩) ∧
    e.pre.world.redis.time = t

/-! ## The leader key is a lease -/

/-- The leader key with its expiry, and the server's clock. -/
def Redis.leaderLease (r : Redis) : Lease String Time := ⟨r.leader, r.time⟩

theorem Redis.owner_eq_some {r : Redis} {instanceID : String} :
    r.owner = some instanceID ↔
      ∃ expiry, r.leader = some (instanceID, expiry) ∧ r.time < expiry := by
  unfold Redis.owner
  split
  · simp_all
  · rename_i owner expiry held
    split
    · rename_i live
      constructor
      · rintro ⟨⟩
        exact ⟨expiry, held, live⟩
      · rintro ⟨expiry', held', _⟩
        rw [held] at held'
        cases held'
        rfl
    · rename_i ended
      constructor
      · rintro ⟨⟩
      · rintro ⟨expiry', held', live⟩
        rw [held] at held'
        cases held'
        exact absurd live ended

/-- A key without an owner, or owned by this instance, is free for it. -/
theorem Redis.lease_free {r : Redis} {instanceID : String}
    (free : r.owner = none ∨ r.owner = some instanceID) :
    r.leaderLease.Free instanceID := by
  intro other expiry held live
  have owned : r.owner = some other := Redis.owner_eq_some.mpr ⟨expiry, held, live⟩
  rcases free with free | free
  · rw [owned] at free
    cases free
  · rw [owned] at free
    exact Option.some.inj free

/-- A leader command either answers `value` and writes the lease of an instance it
is free for, or answers otherwise and writes nothing. -/
def Redis.Acts {α : Type} (r : Redis) (instanceID : String) (value : α) (after : α × Redis) :
    Prop :=
  (after.1 = value ∧ r.leaderLease.Free instanceID ∧ after.2 = r.lease instanceID leaderTTL) ∨
    (after.1 ≠ value ∧ after.2 = r)

/-- Under any fault a leader command is a step of the lease: a grant if the answer
is reported, silent or without effect if not. -/
theorem World.command_lease {α : Type} {w : World Raw} {instanceID : String}
    {command : Redis → α × Redis} {value : α}
    (acts : w.redis.Acts instanceID value (command w.redis)) {won : Bool}
    (reply : won = true ↔ (w.command command).1 = .ok value) :
    Lease.Step leaderTTL w.redis.leaderLease (if won then some instanceID else none)
      (w.command command).2.redis.leaderLease := by
  cases fault : w.script.fault 0 with
  | none =>
      simp only [World.command, fault, Except.ok.injEq] at reply ⊢
      rcases acts with ⟨answer, free, effect⟩ | ⟨answer, effect⟩
      · rw [if_pos (reply.mpr answer), effect]
        exact .granted free
      · rw [if_neg (answer ∘ reply.mp), effect]
        exact .idle _
  | lost =>
      simp only [World.command, fault, reduceCtorEq, iff_false] at reply ⊢
      rw [if_neg reply]
      exact .idle _
  | hidden =>
      simp only [World.command, fault, reduceCtorEq, iff_false] at reply ⊢
      rw [if_neg reply]
      rcases acts with ⟨_, free, effect⟩ | ⟨_, effect⟩
      · rw [effect]
        exact .silent free
      · rw [effect]
        exact .idle _

theorem Redis.setNX_acts (r : Redis) (instanceID : String) :
    r.Acts instanceID true (r.setNX instanceID) := by
  unfold Redis.setNX
  split
  · rename_i absent
    exact .inl ⟨rfl, Redis.lease_free (.inl absent), rfl⟩
  · exact .inr ⟨Bool.false_ne_true, rfl⟩

theorem Redis.renew_acts (r : Redis) (instanceID : String) :
    r.Acts instanceID 1 (r.renew instanceID) := by
  unfold Redis.renew
  split
  · rename_i own
    exact .inl ⟨rfl, Redis.lease_free (.inr own), rfl⟩
  · exact .inr ⟨Int.zero_ne_one, rfl⟩

/-! ## Refinement -/

/-- Where a leadership call can stand: before its first command, between its two
commands, or at its end. -/
inductive CallPoint (Raw : Type) (instanceID : String) : Service Raw Bool → Prop
  | acquire : CallPoint Raw instanceID (Scheduler.acquireOrRenewLeadership instanceID)
  | renew : CallPoint Raw instanceID (Scheduler.renewLeadership instanceID)
  | done (leads : Bool) : CallPoint Raw instanceID (.pure leads)

theorem CallPoint.answer {instanceID : String} {op : Op Raw} {next : op.Ans → Service Raw Bool}
    (point : CallPoint Raw instanceID (.call op next)) (a : op.Ans) :
    CallPoint Raw instanceID (next a) := by
  generalize eq : Prog.call op next = p at point
  cases point with
  | acquire =>
      cases eq
      rcases a with err | (_ | _)
      · exact .done false
      · exact .renew
      · exact .done true
  | renew =>
      cases eq
      rcases a with err | result
      · exact .done false
      · exact .done _
  | done leads => cases eq

/-- The call has returned true. -/
def leads : Service Raw Bool → Bool
  | .pure leads => leads
  | .call _ _ => false

theorem leads_afterSetNX {instanceID : String} {reply : Except Error Bool} :
    leads (Scheduler.afterSetNX instanceID reply : Service Raw Bool) = true ↔ reply = .ok true := by
  rcases reply with err | (_ | _)
  · exact iff_of_false Bool.false_ne_true (by simp)
  · exact iff_of_false Bool.false_ne_true (by simp)
  · exact iff_of_true rfl rfl

theorem renewed_iff {reply : Except Error Int} :
    Scheduler.renewed reply = true ↔ reply = .ok 1 := by
  rcases reply with err | result
  · simp [Scheduler.renewed]
  · simp [Scheduler.renewed]

/-- The instance that learns of its leadership in a transition. -/
def learns (ids : ι → String) (e : LeadershipStep Raw ι) : Option String :=
  match e.label with
  | .act i _ => if (e.post.threads i).any (leads ·.rest) then some (ids i) else none
  | _ => none

theorem Decides.learns {ids : ι → String} {e : LeadershipStep Raw ι} {i : ι} {t : Time}
    (decides : Decides e i t) : learns ids e = some (ids i) := by
  obtain ⟨⟨op, label⟩, ⟨request, running⟩, _⟩ := decides
  simp [TaskFlow.learns, label, running, leads]

variable [DecidableEq ι]

/-- All slots stand at a point of their call. -/
def AtCallPoints (ids : ι → String) (s : LeadershipPool Raw ι) : Prop :=
  ∀ i thread, s.threads i = some thread → CallPoint Raw (ids i) thread.rest

theorem AtCallPoints.step {ids : ι → String} {s t : LeadershipPool Raw ι}
    {l : Label (Op Raw) ι Unit} (step : (leadership Raw ids).Step s l t)
    (points : AtCallPoints ids s) : AtCallPoints ids t :=
  step.thread_invariant (T := fun i _ p => CallPoint Raw (ids i) p)
    (fun _ _ => .acquire) (fun _ _ _ _ point => point.answer _) points

theorem learns_act {ids : ι → String} {s : LeadershipPool Raw ι} {i : ι} {request : Unit}
    {op : Op Raw} {next : op.Ans → Service Raw Bool} :
    learns ids ⟨s, .act i op, s.act perform i request op next⟩ =
      if leads (next (perform op s.world).1) then some (ids i) else none := by
  simp only [learns, Pool.act_self, Option.any_some]

/-- One command of a call, on the lease: it is granted exactly when the call
returns true by it. -/
theorem CallPoint.act_refines {ids : ι → String} {s : LeadershipPool Raw ι} {i : ι}
    {request : Unit} {op : Op Raw} {next : op.Ans → Service Raw Bool}
    (point : CallPoint Raw (ids i) (.call op next)) :
    Lease.Step leaderTTL s.world.redis.leaderLease
      (learns ids ⟨s, .act i op, s.act perform i request op next⟩)
      (s.act perform i request op next).world.redis.leaderLease := by
  rw [learns_act]
  generalize eq : Prog.call op next = p at point
  cases point with
  | acquire =>
      rw [Scheduler.acquireOrRenewLeadership_eq] at eq
      cases eq
      exact World.command_lease (s.world.redis.setNX_acts (ids i)) leads_afterSetNX
  | renew =>
      rw [Scheduler.renewLeadership_eq] at eq
      cases eq
      exact World.command_lease (s.world.redis.renew_acts (ids i)) renewed_iff
  | done leads => cases eq

/-- Every step of the leadership calls is a step of the lease. -/
theorem leadership_step_refines {ids : ι → String} {s t : LeadershipPool Raw ι}
    {l : Label (Op Raw) ι Unit} (step : (leadership Raw ids).Step s l t)
    (points : AtCallPoints ids s) :
    Lease.Step leaderTTL s.world.redis.leaderLease (learns ids ⟨s, l, t⟩)
      t.world.redis.leaderLease := by
  cases step with
  | start _ _ => exact .idle _
  | act here => exact (points _ _ here).act_refines
  | stop _ => exact .idle _
  | env moved =>
      obtain ⟨d, forward, rfl⟩ := moved
      exact .elapse (le_add_of_nonneg_right forward)

/-- **Leader lease exclusivity.**  In every interleaving of the leadership calls of
instances with distinct ids, under any expiry and any command errors, if a call of
`i` returns true by a command at Redis time `t`, no call of another instance
returns true by a command at a time in `[t, t + leaderTTL)`. -/
theorem leadership_exclusive {ids : ι → String} (distinct : Function.Injective ids)
    {s s' : LeadershipPool Raw ι} {h : List (LeadershipStep Raw ι)}
    (idle : ∀ i, s.threads i = none) (run : Trace (leadership Raw ids).Step s h s')
    {e e' : LeadershipStep Raw ι} (member : e ∈ h) (member' : e' ∈ h) {i j : ι} {t t' : Time}
    (decides : Decides e i t) (decides' : Decides e' j t') (other : i ≠ j) :
    ¬ (t ≤ t' ∧ t' < t + leaderTTL) := by
  have points : AtCallPoints ids s := fun i thread running =>
    absurd running (Pool.ne_some_of_idle idle)
  have lease := run.map (g := learns ids) points (fun _ _ _ => AtCallPoints.step)
    fun _ _ _ => leadership_step_refines
  have apart := Lease.exclusive (by decide) lease (List.mem_map_of_mem member)
    (List.mem_map_of_mem member') decides.learns decides'.learns (distinct.ne other)
  obtain ⟨_, _, rfl⟩ := decides
  obtain ⟨_, _, rfl⟩ := decides'
  exact apart

/-- Two instances. -/
def twoInstances : Bool → String
  | false => "scheduler-a"
  | true => "scheduler-b"

theorem twoInstances_injective : Function.Injective twoInstances := by
  intro a b same
  cases a <;> cases b <;> first | rfl | exact absurd same (by decide)

/-- The first instance acquires the key, the key expires, the second acquires it. -/
def handover : List (LeadershipStep Unit Bool) :=
  (leadership Unit twoInstances).play ⟨World.fresh .calm, fun _ => none⟩
    [.start false (), .act false, .stop false, .env (·.elapse leaderTTL), .start true (), .act true]

theorem handover_run :
    ∃ t, Trace (leadership Unit twoInstances).Step ⟨World.fresh .calm, fun _ => none⟩
      handover t := by
  refine ⟨_, System.play_trace (fun e _ => ?_) fun change member w => ?_⟩
  · unfold System.Admitted
    split <;> trivial
  · simp only [List.mem_cons, reduceCtorEq, Move.env.injEq, List.not_mem_nil, or_false,
      false_or] at member
    exact ⟨leaderTTL, by decide, by rw [member]⟩

/-- The second instance may lead from the first instant after the lease on. -/
theorem leadership_exclusive_handover :
    ∃ e ∈ handover, ∃ e' ∈ handover, Decides e false 0 ∧ Decides e' true leaderTTL ∧
      ¬ (0 ≤ leaderTTL ∧ leaderTTL < 0 + leaderTTL) := by
  obtain ⟨t, run⟩ := handover_run
  have first : Decides (handover.get ⟨1, by decide⟩) false 0 := ⟨⟨_, rfl⟩, ⟨(), rfl⟩, rfl⟩
  have second : Decides (handover.get ⟨5, by decide⟩) true leaderTTL := ⟨⟨_, rfl⟩, ⟨(), rfl⟩, rfl⟩
  refine ⟨_, List.get_mem _ _, _, List.get_mem _ _, first, second, ?_⟩
  exact leadership_exclusive twoInstances_injective (fun _ => rfl) run (List.get_mem _ _)
    (List.get_mem _ _) first second (by decide)

end TaskFlow
