import TaskFlow.Calls
import TaskFlow.Leadership

/-!
# Keeping and taking over the scheduler leadership

`Leadership` shows that two instances do not lead at once; a scheduler that never lets
anyone lead is as exclusive.  Here is the other half, in the same interleavings, under
the same command errors and expiry.

* An instance that leads is not turned away: a command of it that is answered within one
  time to live of a command that made it the leader does not end its call with false,
  whatever the other instances do.
* Nobody is turned away without reason: a `SET NX` that is answered makes its instance
  the leader, unless within the last time to live a command of some instance took effect.
  So when the leader dies, the first attempt after its time to live succeeds.
-/

namespace TaskFlow

open Effect

variable {Raw ι : Type} {ids : ι → String}

/-- The command of this transition took effect for instance `k`: the key names it for one
time to live from then, whether or not the reply arrives. -/
def Grants (ids : ι → String) (e : LeadershipStep Raw ι) (k : ι) : Prop :=
  (∃ op, e.label = .act k op) ∧
    e.post.world.redis.leader = some (ids k, e.pre.world.redis.time + leaderTTL)

/-- The command of this transition is answered. -/
def Answered (e : LeadershipStep Raw ι) : Prop := e.pre.world.script.fault 0 = .none

/-- A leader command leaves Redis alone or writes the lease of its instance. -/
theorem World.command_redis {α : Type} {w : World Raw} {instanceID : String}
    {command : Redis → α × Redis} {value : α}
    (acts : w.redis.Acts instanceID value (command w.redis)) :
    (w.command command).2.redis = w.redis ∨
      (w.command command).2.redis = w.redis.lease instanceID leaderTTL := by
  have effect : (command w.redis).2 = w.redis ∨
      (command w.redis).2 = w.redis.lease instanceID leaderTTL := by
    rcases acts with ⟨_, _, written⟩ | ⟨_, same⟩
    · exact .inr written
    · exact .inl same
  unfold World.command
  cases fault : w.script.fault 0 with
  | none => exact effect
  | lost => exact .inl rfl
  | hidden => exact effect

theorem CallPoint.act_redis {w : World Raw} {instanceID : String} {op : Op Raw}
    {next : op.Ans → Service Raw Bool} (point : CallPoint Raw instanceID (.call op next)) :
    (perform op w).2.redis = w.redis ∨
      (perform op w).2.redis = w.redis.lease instanceID leaderTTL := by
  generalize eq : Prog.call op next = p at point
  cases point with
  | acquire =>
      rw [Scheduler.acquireOrRenewLeadership_eq] at eq
      cases eq
      exact World.command_redis (w.redis.setNX_acts instanceID)
  | renew =>
      rw [Scheduler.renewLeadership_eq] at eq
      cases eq
      exact World.command_redis (w.redis.renew_acts instanceID)
  | done leads => cases eq

/-- While the key names the instance, a command of it that is answered does not end its
call with false. -/
theorem CallPoint.owner_answer {w : World Raw} {instanceID : String} {op : Op Raw}
    {next : op.Ans → Service Raw Bool} {leads : Bool}
    (point : CallPoint Raw instanceID (.call op next)) (owns : w.redis.owner = some instanceID)
    (answered : w.script.fault 0 = .none) (ends : next (perform op w).1 = .pure leads) :
    leads = true := by
  generalize eq : Prog.call op next = p at point
  cases point with
  | acquire =>
      rw [Scheduler.acquireOrRenewLeadership_eq] at eq
      cases eq
      have refused : (perform (.setNX instanceID) w).1 = .ok false := by
        simp [perform, World.command, answered, Redis.setNX, owns]
      rw [refused] at ends
      cases ends
  | renew =>
      rw [Scheduler.renewLeadership_eq] at eq
      cases eq
      have extended : (perform (.renew instanceID) w).1 = .ok 1 := by
        simp [perform, World.command, answered, Redis.renew, owns]
      rw [extended] at ends
      cases ends
      rfl
  | done leads => cases eq

/-- A `SET NX` that is answered while the key is not set ends its call with true. -/
theorem CallPoint.free_answer {w : World Raw} {instanceID key : String}
    {next : Except Error Bool → Service Raw Bool}
    (point : CallPoint Raw instanceID (.call (.setNX key) next)) (free : w.redis.owner = none)
    (answered : w.script.fault 0 = .none) : next (perform (.setNX key) w).1 = .pure true := by
  generalize eq : (Prog.call (.setNX key) next : Service Raw Bool) = p at point
  cases point with
  | acquire =>
      rw [Scheduler.acquireOrRenewLeadership_eq] at eq
      cases eq
      have granted : (perform (.setNX instanceID) w).1 = .ok true := by
        simp [perform, World.command, answered, Redis.setNX, free]
      rw [granted]
      rfl
  | renew =>
      rw [Scheduler.renewLeadership_eq] at eq
      cases eq
  | done leads => cases eq

section Runs

variable [DecidableEq ι] {s t : LeadershipPool Raw ι} {h x y : List (LeadershipStep Raw ι)}
  {e : LeadershipStep Raw ι}

/-! ## The leader stays -/

/-- A decision for `i` is respected from then on. -/
theorem Decides.respected {i : ι} {now : Time} {l : Label (Op Raw) ι Unit}
    (points : AtCallPoints ids s) (step : (leadership Raw ids).Step s l t)
    (decides : Decides ⟨s, l, t⟩ i now) :
    Lease.Respects leaderTTL (ids i) now t.world.redis.leaderLease := by
  have refines := leadership_step_refines step points
  rw [decides.learns] at refines
  obtain ⟨_, _, rfl⟩ := decides
  dsimp only
  generalize t.world.redis.leaderLease = lease at refines
  cases refines with
  | granted free => exact Lease.respects_grant (r := s.world.redis.leaderLease)

omit [DecidableEq ι] in
/-- While a decision is respected and lasts, the key names its instance. -/
theorem owner_of_respects {r : Redis} {i : ι} {now : Time}
    (respects : Lease.Respects leaderTTL (ids i) now r.leaderLease)
    (lasts : r.time < now + leaderTTL) : r.owner = some (ids i) := by
  obtain ⟨_, ended | ⟨expiry, held, long⟩⟩ := respects
  · exact absurd ended (not_le.mpr lasts)
  · exact Redis.owner_eq_some.mpr ⟨expiry, held, lt_of_lt_of_le lasts long⟩

/-- One command of an instance that leads. -/
theorem Decides.stays {e' : LeadershipStep Raw ι} {i : ι} {op : Op Raw} {now : Time}
    {request : Unit} {leads : Bool} (points : AtCallPoints ids s)
    (run : Trace (leadership Raw ids).Step s (x ++ e :: y) t) (decides : Decides e i now)
    (member : e' ∈ y) (label : e'.label = .act i op) (answered : Answered e')
    (soon : e'.pre.world.redis.time < now + leaderTTL)
    (ends : e'.post.threads i = some ⟨request, .pure leads⟩) : leads = true := by
  obtain ⟨before, step, later⟩ := run.split_cons
  have here : AtCallPoints ids e.pre := before.invariant points fun _ _ => AtCallPoints.step
  have start : AtCallPoints ids e.post ∧
      Lease.Respects leaderTTL (ids i) now e.post.world.redis.leaderLease :=
    ⟨here.step step, decides.respected here step⟩
  obtain ⟨⟨points', respects⟩, step'⟩ := later.invariant_mem
    (I := fun s => AtCallPoints ids s ∧
      Lease.Respects leaderTTL (ids i) now s.world.redis.leaderLease) start
    (fun _ _ _ step both => ⟨both.1.step step, both.2.step (leadership_step_refines step both.1)⟩)
    e' member
  have owns := owner_of_respects respects soon
  rcases step'.threads_cases ends with ⟨_, other⟩ | ⟨_, begun, _⟩ |
    ⟨op', next, label', running, answer, _⟩
  · exact absurd label (other op)
  · cases label.symm.trans begun
  · cases label.symm.trans label'
    exact (points' i _ running).owner_answer owns answered answer.symm

/-! ## The leadership is taken over -/

/-- The key, while it is set, goes back to a command that took effect. -/
structure Traced (ids : ι → String) (x : List (LeadershipStep Raw ι)) (s : LeadershipPool Raw ι) :
    Prop where
  points : AtCallPoints ids s
  granted : ∀ instanceID expiry, s.world.redis.leader = some (instanceID, expiry) →
    ∃ e ∈ x, ∃ k, Grants ids e k ∧ expiry = e.pre.world.redis.time + leaderTTL ∧
      e.pre.world.redis.time ≤ s.world.redis.time

/-- The server's clock moves forward. -/
theorem leadership_time {l : Label (Op Raw) ι Unit} (step : (leadership Raw ids).Step s l t) :
    s.world.redis.time ≤ t.world.redis.time := by
  rcases step.world_cases with ⟨_, same⟩ | ⟨_, _, op, _, _, _, after⟩ | ⟨_, d, forward, moved⟩
  · rw [same]
  · rw [after]
    exact le_of_eq (perform_time op s.world).symm
  · rw [moved]
    exact le_add_of_nonneg_right forward

theorem Traced.step (step : (leadership Raw ids).Step e.pre e.label e.post)
    (traced : Traced ids x e.pre) : Traced ids (x ++ [e]) e.post := by
  have forward := leadership_time step
  refine ⟨traced.points.step step, fun instanceID expiry held => ?_⟩
  -- Unless this very command set the key, it was set before.
  have earlier : e.pre.world.redis.leader = some (instanceID, expiry) → ∃ e' ∈ x ++ [e], ∃ k,
      Grants ids e' k ∧ expiry = e'.pre.world.redis.time + leaderTTL ∧
        e'.pre.world.redis.time ≤ e.post.world.redis.time := by
    intro before
    obtain ⟨e', member, k, grants, until', past⟩ := traced.granted instanceID expiry before
    exact ⟨e', List.mem_append_left _ member, k, grants, until', past.trans forward⟩
  rcases step.world_cases with ⟨_, same⟩ | ⟨i, request, op, next, label, here, after⟩ |
    ⟨_, d, _, moved⟩
  · exact earlier (same ▸ held)
  · rcases (traced.points i _ here).act_redis (w := e.pre.world) with same | leased
    · refine earlier ?_
      rw [← held, after]
      exact congrArg Redis.leader same.symm
    · have written : e.post.world.redis.leader =
          some (ids i, e.pre.world.redis.time + leaderTTL) := by
        rw [after]
        exact congrArg Redis.leader leased
      cases Option.some.inj (written.symm.trans held)
      exact ⟨e, List.mem_append_right _ (List.mem_singleton_self _), i, ⟨⟨op, label⟩, written⟩, rfl,
        forward⟩
  · refine earlier ?_
    rw [← held, moved]
    rfl

/-- One attempt to take over. -/
theorem taken_over {j : ι} {key : String} (idle : ∀ i, s.threads i = none)
    (unset : s.world.redis.leader = none)
    (run : Trace (leadership Raw ids).Step s (x ++ e :: y) t)
    (label : e.label = .act j (.setNX key)) (answered : Answered e) :
    (∃ request, e.post.threads j = some ⟨request, .pure true⟩) ∨
      ∃ e' ∈ x, ∃ k, Grants ids e' k ∧ e'.pre.world.redis.time ≤ e.pre.world.redis.time ∧
        e.pre.world.redis.time < e'.pre.world.redis.time + leaderTTL := by
  obtain ⟨before, step, _⟩ := run.split_cons
  have traced : Traced ids x e.pre := by
    refine before.history (I := Traced ids) ⟨fun i thread running => ?_, fun id expiry held => ?_⟩
      fun _ _ _ _ => Traced.step
    · exact absurd running (Pool.ne_some_of_idle idle)
    · rw [unset] at held
      cases held
  rw [label] at step
  generalize e.post = after at step
  cases step with
  | @act _ request _ next here =>
      cases owner : e.pre.world.redis.owner with
      | none =>
          have granted : next ((leadership Raw ids).perform (.setNX key) e.pre.world).1 =
              .pure true := (traced.points j _ here).free_answer owner answered
          refine .inl ⟨request, ?_⟩
          rw [Pool.act_self, granted]
      | some instanceID =>
          obtain ⟨expiry, held, live⟩ := Redis.owner_eq_some.mp owner
          obtain ⟨e', member, k, grants, until', past⟩ := traced.granted instanceID expiry held
          exact .inr ⟨e', member, k, grants, past, until' ▸ live⟩

/-- Nobody is turned away without reason in a run through `h`: not the leader while its
last decision lasts, and nobody else unless a command took effect a short time ago. -/
structure Available (ids : ι → String) (h : List (LeadershipStep Raw ι)) : Prop where
  stays : ∀ x e y, h = x ++ e :: y → ∀ e' ∈ y, ∀ i now op request leads, Decides e i now →
    e'.label = .act i op → Answered e' → e'.pre.world.redis.time < now + leaderTTL →
    e'.post.threads i = some ⟨request, .pure leads⟩ → leads = true
  taken : ∀ x e y, h = x ++ e :: y → ∀ j key, e.label = .act j (.setNX key) → Answered e →
    (∃ request, e.post.threads j = some ⟨request, .pure true⟩) ∨
      ∃ e' ∈ x, ∃ k, Grants ids e' k ∧ e'.pre.world.redis.time ≤ e.pre.world.redis.time ∧
        e.pre.world.redis.time < e'.pre.world.redis.time + leaderTTL

/-- **Leadership is kept and taken over.**  In every interleaving of the leadership calls
of any number of instances, under any expiry and any command errors, a leader whose call
ends with a command that is answered within one time to live of its last decision keeps the
leadership, and an attempt that is answered succeeds, unless a command of some instance took
effect within the last time to live. -/
theorem leadership_available (ids : ι → String) {s t : LeadershipPool Raw ι}
    {h : List (LeadershipStep Raw ι)} (idle : ∀ i, s.threads i = none)
    (unset : s.world.redis.leader = none) (run : Trace (leadership Raw ids).Step s h t) :
    Available ids h := by
  have points : AtCallPoints ids s := fun i thread running =>
    absurd running (Pool.ne_some_of_idle idle)
  constructor
  · rintro x e y rfl e' member i now op request leads decides label answered soon ends
    exact decides.stays points run member label answered soon ends
  · rintro x e y rfl j key label answered
    exact taken_over idle unset run label answered

end Runs

/-- The first instance acquires the key and renews it after 20 seconds, then dies; the
second is refused at first, and acquires the key when it has expired. -/
def takeover : List (Move (World Unit) Bool Unit) :=
  [.start false (), .act false, .stop false, .env (·.elapse (20 * second)),
    .start false (), .act false, .act false, .stop false,
    .start true (), .act true, .act true, .stop true, .env (·.elapse leaderTTL),
    .start true (), .act true]

theorem leadership_available_takeover :
    (((leadership Unit twoInstances).final ⟨World.fresh .calm, fun _ => none⟩
      takeover).threads true).any (leads ·.rest) = true ∧
    Available twoInstances
      ((leadership Unit twoInstances).play ⟨World.fresh .calm, fun _ => none⟩ takeover) := by
  have run : Trace (leadership Unit twoInstances).Step ⟨World.fresh .calm, fun _ => none⟩
      ((leadership Unit twoInstances).play ⟨World.fresh .calm, fun _ => none⟩ takeover)
      ((leadership Unit twoInstances).final ⟨World.fresh .calm, fun _ => none⟩ takeover) := by
    refine System.play_trace (fun e _ => ?_) fun change member w => ?_
    · unfold System.Admitted
      split <;> trivial
    · simp only [takeover, List.mem_cons, reduceCtorEq, Move.env.injEq, List.not_mem_nil, or_false,
        false_or] at member
      rcases member with rfl | rfl
      · exact ⟨20 * second, by decide, rfl⟩
      · exact ⟨leaderTTL, by decide, rfl⟩
  exact ⟨by decide, leadership_available twoInstances (fun _ => rfl) rfl run⟩

end TaskFlow
