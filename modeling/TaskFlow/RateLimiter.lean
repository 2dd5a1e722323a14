import Mathlib.Algebra.Group.Int.Defs
import Mathlib.Data.Finset.Card
import TaskFlow.Domain
import TaskFlow.Effect.Trace
import TaskFlow.Effect.Window

/-!
# `internal/redis/rate_limiter.go`

`Allow` records every call under its clock reading in a sorted set, evicts the
readings that left the window and counts what is left.
-/

namespace TaskFlow

open Effect

/-- A sorted set and the instant its key expires on the server.  The member of an
entry is the decimal text of its score, so an entry is its score. -/
structure SortedSet : Type where
  entries : Finset Nat
  expiry : Int
deriving DecidableEq

/-- The sorted sets of the server, by key. -/
abbrev SortedSets : Type := String → Option SortedSet

/-- `slidingWindowLimiter`. -/
structure RateLimiter : Type where
  limit : Int64
  window : Int64

/-- One call of `Allow`: its key, the `UnixNano` reading of the caller, whose clock
is past 1970, and the server's own clock when it executes the transaction. -/
structure AllowCall : Type where
  key : String
  now : Nat
  served : Int
deriving DecidableEq

namespace RateLimiter

/-- The Redis key of a limiter key. -/
def rkey (key : String) : String := "ratelimit:" ++ key

/-- The time to live the client sends for a duration: whole seconds, one second for
a positive duration below that. -/
def expireTTL (duration : Int64) : Int :=
  if 0 < duration.toInt ∧ duration.toInt < second then second
  else duration.toInt.tdiv second * second

/-- The time to live of `pipe.Expire(ctx, rkey, r.window*2)`. -/
def ttl (r : RateLimiter) : Int := expireTTL (r.window * 2)

/-- The entries under a key, none once the key has expired. -/
def live (sets : SortedSets) (rkey : String) (served : Int) : Finset Nat :=
  match sets rkey with
  | none => ∅
  | some set => if served < set.expiry then set.entries else ∅

/-- `ZREMRANGEBYSCORE rkey 0 windowStart`. -/
def evict (entries : Finset Nat) (windowStart : Int) : Finset Nat :=
  entries.filter fun score => ¬ (0 ≤ (score : Int) ∧ (score : Int) ≤ windowStart)

/-- The entries the transaction counts: after the eviction and the `ZADD`. -/
def recorded (r : RateLimiter) (sets : SortedSets) (call : AllowCall) : Finset Nat :=
  insert call.now (evict (live sets (rkey call.key) call.served) (call.now - r.window.toInt))

/-- `slidingWindowLimiter.Allow`, when the pipeline succeeds.  A time to live that is
not positive deletes the key. -/
def allow (r : RateLimiter) (call : AllowCall) (sets : SortedSets) : Bool × SortedSets :=
  let entries := r.recorded sets call
  (decide ((entries.card : Int) ≤ r.limit.toInt),
    Function.update sets (rkey call.key)
      (if 0 < r.ttl then some ⟨entries, call.served + r.ttl⟩ else none))

/-- A call and what it returned. -/
structure Answer : Type where
  call : AllowCall
  ok : Bool

/-- The server executes the transaction of a call. -/
def Step (r : RateLimiter) (sets : SortedSets) (answer : Answer) (sets' : SortedSets) : Prop :=
  r.allow answer.call sets = (answer.ok, sets')

/-- A step of the server. -/
abbrev Event : Type := Transition SortedSets Answer

variable {r : RateLimiter} {start sets : SortedSets} {call : AllowCall} {h x : List Event}
  {e : Event} {score : Nat}

theorem rkey_injective : Function.Injective rkey := by
  intro a b same
  exact String.append_right_inj _ |>.mp same

theorem mem_recorded :
    score ∈ r.recorded sets call ↔ score = call.now ∨
      score ∈ live sets (rkey call.key) call.served ∧
        (call.now : Int) - r.window.toInt < score := by
  simp only [recorded, evict, Finset.mem_insert, Finset.mem_filter]
  refine or_congr_right (and_congr_right fun _ => ?_)
  omega

theorem mem_live {key : String} {served : Int} :
    score ∈ live sets key served ↔
      ∃ set, sets key = some set ∧ served < set.expiry ∧ score ∈ set.entries := by
  unfold live
  cases held : sets key with
  | none => simp
  | some set => by_cases alive : served < set.expiry <;> simp [alive]

theorem Step.ok_iff (step : r.Step e.pre e.label e.post) :
    e.label.ok = true ↔ ((r.recorded e.pre e.label.call).card : Int) ≤ r.limit.toInt := by
  have answer : decide (((r.recorded e.pre e.label.call).card : Int) ≤ r.limit.toInt) =
      e.label.ok := congrArg Prod.fst step
  rw [← answer]
  exact decide_eq_true_iff

theorem Step.post (step : r.Step e.pre e.label e.post) :
    e.post = Function.update e.pre (rkey e.label.call.key)
      (if 0 < r.ttl then some ⟨r.recorded e.pre e.label.call, e.label.call.served + r.ttl⟩
        else none) :=
  (congrArg Prod.snd step).symm

/-- What a step leaves under a key: what it recorded there, or what was there. -/
theorem Step.post_cases (step : r.Step e.pre e.label e.post) {key : String} {set : SortedSet}
    (held : e.post (rkey key) = some set) :
    e.label.call.key = key ∧ set.entries = r.recorded e.pre e.label.call ∧
        set.expiry = e.label.call.served + r.ttl ∨
      e.label.call.key ≠ key ∧ e.pre (rkey key) = some set := by
  rw [step.post] at held
  by_cases same : e.label.call.key = key
  · subst same
    rw [Function.update_self] at held
    by_cases positive : 0 < r.ttl
    · rw [if_pos positive] at held
      obtain rfl := Option.some.inj held
      exact .inl ⟨rfl, rfl, rfl⟩
    · rw [if_neg positive] at held
      cases held
  · rw [Function.update_of_ne fun eq => same (rkey_injective eq).symm] at held
    exact .inr ⟨same, held⟩

/-! ### What the sorted set knows of the calls so far -/

/-- Every entry is the reading of a call on its key. -/
def Sound (h : List Event) (sets : SortedSets) : Prop :=
  ∀ key set, sets (rkey key) = some set → ∀ score ∈ set.entries,
    ∃ e ∈ h, e.label.call.key = key ∧ e.label.call.now = score

/-- Every call still has its entry, unless a window has passed since. -/
def Complete (r : RateLimiter) (h : List Event) (sets : SortedSets) : Prop :=
  ∀ e ∈ h, (∃ set, sets (rkey e.label.call.key) = some set ∧ e.label.call.now ∈ set.entries) ∨
    ∃ e' ∈ h, e'.label.call.key = e.label.call.key ∧
      (e.label.call.now : Int) + r.window.toInt ≤ e'.label.call.now

/-- When the call finds its key expired, the readings under it have left the window. -/
def Timely (r : RateLimiter) (e : Event) : Prop :=
  ∀ set, e.pre (rkey e.label.call.key) = some set → set.expiry ≤ e.label.call.served →
    ∀ score ∈ set.entries, (score : Int) + r.window.toInt ≤ e.label.call.now

theorem Sound.recorded (sound : Sound x e.pre)
    (member : score ∈ r.recorded e.pre e.label.call) :
    ∃ e' ∈ x ++ [e], e'.label.call.key = e.label.call.key ∧ e'.label.call.now = score := by
  rcases mem_recorded.mp member with rfl | ⟨old, _⟩
  · exact ⟨e, by simp, rfl, rfl⟩
  · obtain ⟨set, held, _, inside⟩ := mem_live.mp old
    obtain ⟨e', before, same⟩ := sound _ set held score inside
    exact ⟨e', List.mem_append_left _ before, same⟩

theorem Sound.step (step : r.Step e.pre e.label e.post) (sound : Sound x e.pre) :
    Sound (x ++ [e]) e.post := by
  intro key set held score inside
  rcases step.post_cases held with ⟨rfl, entries, _⟩ | ⟨_, before⟩
  · rw [entries] at inside
    exact sound.recorded inside
  · obtain ⟨e', member, same⟩ := sound key set before score inside
    exact ⟨e', List.mem_append_left _ member, same⟩

/-- The entry of an earlier call is counted or a window old. -/
theorem Complete.recorded (complete : Complete r x e.pre) (timely : Timely r e)
    (ordered : ∀ e' ∈ x, e'.label.call.now ≤ e.label.call.now) {e' : Event}
    (member : e' ∈ x) (same : e'.label.call.key = e.label.call.key) :
    e'.label.call.now ∈ live e.pre (rkey e.label.call.key) e.label.call.served ∨
      (e'.label.call.now : Int) + r.window.toInt ≤ e.label.call.now := by
  rcases complete e' member with ⟨set, held, inside⟩ | ⟨later, after, _, gone⟩
  · rw [same] at held
    by_cases alive : e.label.call.served < set.expiry
    · exact .inl (mem_live.mpr ⟨set, held, alive, inside⟩)
    · exact .inr (timely set held (Int.not_lt.mp alive) _ inside)
  · have upTo := ordered later after
    exact .inr (by omega)

theorem Complete.step (step : r.Step e.pre e.label e.post) (positive : 0 < r.ttl)
    (timely : Timely r e) (ordered : ∀ e' ∈ x, e'.label.call.now ≤ e.label.call.now)
    (complete : Complete r x e.pre) : Complete r (x ++ [e]) e.post := by
  have stored : e.post (rkey e.label.call.key) =
      some ⟨r.recorded e.pre e.label.call, e.label.call.served + r.ttl⟩ := by
    rw [step.post, Function.update_self, if_pos positive]
  intro e' member
  by_cases same : e'.label.call.key = e.label.call.key
  · rcases List.mem_append.mp member with before | last
    · by_cases old : (e'.label.call.now : Int) + r.window.toInt ≤ e.label.call.now
      · exact .inr ⟨e, by simp, same.symm, old⟩
      · refine .inl ⟨_, same ▸ stored, mem_recorded.mpr (.inr ⟨?_, by omega⟩)⟩
        exact (complete.recorded timely ordered before same).resolve_right old
    · obtain rfl := List.mem_singleton.mp last
      exact .inl ⟨_, stored, mem_recorded.mpr (.inl rfl)⟩
  · have before : e' ∈ x := by
      rcases List.mem_append.mp member with before | last
      · exact before
      · exact absurd (congrArg (fun e => e.label.call.key) (List.mem_singleton.mp last)) same
    rcases complete e' before with ⟨set, held, inside⟩ | ⟨later, after, found⟩
    · refine .inl ⟨set, ?_, inside⟩
      rw [step.post, Function.update_of_ne fun eq => same (rkey_injective eq)]
      exact held
    · exact .inr ⟨later, List.mem_append_left _ after, found⟩

/-! ### Counting -/

/-- A call on the key of `e`, after the start of the window that ends at `e`. -/
def recent (r : RateLimiter) (e e' : Event) : Bool :=
  decide (e'.label.call.key = e.label.call.key ∧
    (e.label.call.now : Int) - r.window.toInt < e'.label.call.now)

/-- The readings of the recent calls. -/
def readings (r : RateLimiter) (x : List Event) (e : Event) : List Nat :=
  ((x ++ [e]).filter (r.recent e)).map fun e' => e'.label.call.now

theorem length_readings : (r.readings x e).length = (x ++ [e]).countP (r.recent e) := by
  rw [readings, List.length_map, List.countP_eq_length_filter]

theorem mem_readings : score ∈ r.readings x e ↔ ∃ e' ∈ x ++ [e],
    e'.label.call.key = e.label.call.key ∧ e'.label.call.now = score ∧
      (e.label.call.now : Int) - r.window.toInt < score := by
  unfold readings
  rw [List.mem_map]
  constructor
  · rintro ⟨e', member, rfl⟩
    obtain ⟨listed, inside⟩ := List.mem_filter.mp member
    obtain ⟨same, after⟩ := of_decide_eq_true inside
    exact ⟨e', listed, same, rfl, after⟩
  · rintro ⟨e', listed, same, rfl, after⟩
    exact ⟨e', List.mem_filter.mpr ⟨listed, decide_eq_true ⟨same, after⟩⟩, rfl⟩

/-- The transaction counts no more than the recent calls. -/
theorem Sound.card_le (window : 0 < r.window.toInt) (sound : Sound x e.pre) :
    (r.recorded e.pre e.label.call).card ≤ (x ++ [e]).countP (r.recent e) := by
  have inside : r.recorded e.pre e.label.call ⊆ (r.readings x e).toFinset := by
    intro score member
    rw [List.mem_toFinset, mem_readings]
    obtain ⟨e', listed, same, reading⟩ := sound.recorded member
    refine ⟨e', listed, same, reading, ?_⟩
    rcases mem_recorded.mp member with rfl | ⟨_, after⟩
    · omega
    · exact after
  calc (r.recorded e.pre e.label.call).card
      ≤ (r.readings x e).toFinset.card := Finset.card_le_card inside
    _ ≤ (r.readings x e).length := List.toFinset_card_le _
    _ = (x ++ [e]).countP (r.recent e) := length_readings

/-- When the readings are distinct, the transaction counts all recent calls. -/
theorem Complete.le_card (complete : Complete r x e.pre) (timely : Timely r e)
    (increasing : (x ++ [e]).Pairwise fun a b => a.label.call.now < b.label.call.now) :
    (x ++ [e]).countP (r.recent e) ≤ (r.recorded e.pre e.label.call).card := by
  have ordered : ∀ e' ∈ x, e'.label.call.now ≤ e.label.call.now := fun e' member =>
    Nat.le_of_lt ((List.pairwise_append.mp increasing).2.2 e' member e (by simp))
  have distinct : (r.readings x e).Nodup := by
    rw [readings, List.nodup_iff_pairwise_ne, List.pairwise_map]
    exact (increasing.filter _).imp fun before => Nat.ne_of_lt before
  have inside : (r.readings x e).toFinset ⊆ r.recorded e.pre e.label.call := by
    intro score member
    rw [List.mem_toFinset, mem_readings] at member
    obtain ⟨e', listed, same, rfl, after⟩ := member
    rw [mem_recorded]
    rcases List.mem_append.mp listed with before | last
    · refine .inr ⟨(complete.recorded timely ordered before same).resolve_right ?_, after⟩
      omega
    · exact .inl (by rw [List.mem_singleton.mp last])
  calc (x ++ [e]).countP (r.recent e)
      = (r.readings x e).toFinset.card := by
        rw [List.toFinset_card_of_nodup distinct, length_readings]
    _ ≤ (r.recorded e.pre e.label.call).card := Finset.card_le_card inside

/-! ### Runs -/

/-- Twice a window that does not overflow `time.Duration`, in whole seconds, is still
at least the window. -/
theorem window_le_ttl (window : 0 < r.window.toInt) (fits : r.window.toInt < 2 ^ 62) :
    r.window.toInt ≤ r.ttl := by
  have doubled : (r.window * 2).toInt = r.window.toInt * 2 := by
    rw [Int64.toInt_mul, show (2 : Int64).toInt = 2 from rfl]
    exact Int.bmod_eq_of_le (by omega) (by omega)
  unfold ttl expireTTL second
  rw [doubled, Int.tdiv_eq_ediv_of_nonneg (by omega)]
  by_cases short : 0 < r.window.toInt * 2 ∧ r.window.toInt * 2 < 1000000000
  · rw [if_pos short]
    omega
  · rw [if_neg short]
    omega

theorem sound_of_run (run : Trace r.Step start h sets) (empty : ∀ key, start (rkey key) = none) :
    Sound h sets := by
  refine run.history (fun key set held => ?_) fun x e y _ step => Sound.step step
  rw [empty key] at held
  cases held

/-- The call finds no entry of its own nanosecond, and its key not expired too early. -/
structure Undisturbed (r : RateLimiter) (e : Event) : Prop where
  timely : Timely r e
  alone : e.label.call.now ∉ live e.pre (rkey e.label.call.key) e.label.call.served

/-- On one key the entries stay complete, and equal readings do not occur. -/
theorem complete_of_run (window : 0 < r.window.toInt) (positive : 0 < r.ttl) {key : String}
    (run : Trace r.Step start h sets) (onKey : ∀ e ∈ h, e.label.call.key = key)
    (ordered : h.Pairwise fun a b => a.label.call.now ≤ b.label.call.now)
    (undisturbed : ∀ e ∈ h, Undisturbed r e) :
    Complete r h sets ∧ h.Pairwise fun a b => a.label.call.now < b.label.call.now := by
  refine run.history
    (I := fun x s => Complete r x s ∧ x.Pairwise fun a b => a.label.call.now < b.label.call.now)
    ⟨fun e member => absurd member (by simp), .nil⟩
    fun x e y eq step ⟨complete, increasing⟩ => ?_
  subst eq
  have here : e ∈ x ++ e :: y := by simp
  have upTo : ∀ e' ∈ x, e'.label.call.now ≤ e.label.call.now := fun e' member =>
    (List.pairwise_append.mp ordered).2.2 e' member e (by simp)
  obtain ⟨timely, alone⟩ := undisturbed e here
  refine ⟨complete.step step positive timely upTo, List.pairwise_append.mpr
    ⟨increasing, List.pairwise_singleton _ _, fun e' member last isLast => ?_⟩⟩
  obtain rfl := List.mem_singleton.mp isLast
  refine Nat.lt_of_le_of_ne (upTo e' member) fun equal => ?_
  -- An equal reading is less than a window old, so its entry would still be there.
  have same : e'.label.call.key = last.label.call.key := by
    rw [onKey e' (by simp [member]), onKey last here]
  rcases complete.recorded timely upTo member same with present | old
  · exact alone (equal ▸ present)
  · omega

/-- The run of a list of calls. -/
def events (r : RateLimiter) (sets : SortedSets) : List AllowCall → List Event
  | [] => []
  | call :: calls =>
      ⟨sets, ⟨call, (r.allow call sets).1⟩, (r.allow call sets).2⟩ ::
        r.events (r.allow call sets).2 calls

theorem events_run (r : RateLimiter) (sets : SortedSets) (calls : List AllowCall) :
    ∃ sets', Trace r.Step sets (r.events sets calls) sets' := by
  induction calls generalizing sets with
  | nil => exact ⟨sets, .nil⟩
  | cons call calls ih =>
      have first : r.Step sets ⟨call, (r.allow call sets).1⟩ (r.allow call sets).2 := rfl
      obtain ⟨sets', rest⟩ := ih (r.allow call sets).2
      exact ⟨sets', (Trace.single first).trans rest⟩

/-- A sample limiter: one call a second. -/
def onePerSecond : RateLimiter := ⟨1, 1000000000⟩

/-- A sample call, on a server that shares the caller's clock. -/
def emailCall (now : Nat) : AllowCall := ⟨"email", now, now⟩

/-- In every run on one key with non-decreasing readings, in which no call finds an
entry of its own nanosecond, at most `limit` calls of any window were allowed. -/
theorem allowed_le_limit (r : RateLimiter) (limit : 1 ≤ r.limit.toInt)
    (window : 0 < r.window.toInt) (fits : r.window.toInt < 2 ^ 62) (key : String)
    (run : Trace r.Step start h sets) (onKey : ∀ e ∈ h, e.label.call.key = key)
    (ordered : h.Pairwise fun e e' => e.label.call.now ≤ e'.label.call.now)
    (undisturbed : ∀ e ∈ h, Undisturbed r e) (a : Int) :
    (h.countP fun e => e.label.ok && decide (a < e.label.call.now ∧
      e.label.call.now ≤ a + r.window.toInt) : Int) ≤ r.limit.toInt := by
  obtain ⟨n, limitEq⟩ := Int.eq_ofNat_of_zero_le (show 0 ≤ r.limit.toInt by omega)
  rw [limitEq, Int.ofNat_le]
  have positive : 0 < r.ttl := Int.lt_of_lt_of_le window (window_le_ttl window fits)
  refine countP_le_of_recent r.recent h ?_ ?_
  · intro x e y eq chosen
    subst eq
    obtain ⟨allowed, _⟩ := Bool.and_eq_true_iff.mp chosen
    obtain ⟨before, step, _⟩ := run.split_cons
    have early : ∀ e' ∈ x, e' ∈ x ++ e :: y := fun e' member => List.mem_append_left _ member
    obtain ⟨complete, _⟩ := complete_of_run window positive before
      (fun e' member => onKey e' (early e' member)) (List.pairwise_append.mp ordered).1
      fun e' member => undisturbed e' (early e' member)
    obtain ⟨_, increasing⟩ := complete_of_run window positive run onKey ordered undisturbed
    have upTo : (x ++ [e]).Pairwise fun a b => a.label.call.now < b.label.call.now :=
      increasing.sublist (by simp)
    have counted := complete.le_card (undisturbed e (by simp)).timely upTo
    have within := (Step.ok_iff step).mp allowed
    omega
  · intro x e y eq chosen e' member chosen'
    subst eq
    obtain ⟨_, interval⟩ := Bool.and_eq_true_iff.mp chosen
    obtain ⟨_, interval'⟩ := Bool.and_eq_true_iff.mp chosen'
    have upper := of_decide_eq_true interval
    have lower := of_decide_eq_true interval'
    refine decide_eq_true ⟨?_, by omega⟩
    rw [onKey e (by simp), onKey e' ?_]
    rcases List.mem_append.mp member with early | last
    · exact List.mem_append_left _ early
    · simp [List.mem_singleton.mp last]

theorem allowed_le_limit_two_seconds :
    ((onePerSecond.events (fun _ => none)
      ([5, 1000000006].map emailCall)).countP fun e => e.label.ok &&
        decide ((4 : Int) < e.label.call.now ∧ e.label.call.now ≤ (4 : Int) + 1000000000) : Int) ≤
      1 := by
  obtain ⟨sets, run⟩ := events_run onePerSecond (fun _ => none)
    ([5, 1000000006].map emailCall)
  refine allowed_le_limit onePerSecond (by decide) (by decide) (by decide) "email" run
    (by decide) (by decide) ?_ 4
  intro e member
  simp only [events, List.map_cons, List.map_nil, List.mem_cons, List.not_mem_nil, or_false]
    at member
  rcases member with rfl | rfl
  · exact ⟨fun set held => (nomatch held), by decide⟩
  · refine ⟨fun set held => ?_, by decide⟩
    obtain rfl := Option.some.inj held
    decide

/-- Two calls of one nanosecond share one entry, and both are allowed. -/
theorem same_nanosecond_allowed_twice : ∃ h sets, Trace onePerSecond.Step (fun _ => none) h sets ∧
    (∀ e ∈ h, e.label.call.key = "email") ∧
    (h.Pairwise fun e e' => e.label.call.now ≤ e'.label.call.now) ∧
    ∃ a : Int, onePerSecond.limit.toInt < (h.countP fun e => e.label.ok &&
      decide (a < e.label.call.now ∧ e.label.call.now ≤ a + onePerSecond.window.toInt) : Int) := by
  obtain ⟨sets, run⟩ := events_run onePerSecond (fun _ => none)
    ([5, 5].map emailCall)
  exact ⟨_, sets, run, by decide, by decide, 0, by decide⟩

/-- A rejected call found at least `limit` earlier calls on its key, allowed or not,
in its window. -/
theorem limit_le_recent_of_rejected (r : RateLimiter) (window : 0 < r.window.toInt)
    (y : List Event) (run : Trace r.Step (fun _ => none) (x ++ e :: y) sets)
    (increasing : (x ++ e :: y).Pairwise fun a b => a.label.call.now < b.label.call.now)
    (rejected : e.label.ok = false) :
    r.limit.toInt ≤ (x.countP fun e' => decide (e'.label.call.key = e.label.call.key ∧
      (e.label.call.now : Int) - r.window.toInt < e'.label.call.now ∧
        e'.label.call.now < e.label.call.now) : Int) := by
  obtain ⟨before, step, _⟩ := run.split_cons
  have sound : Sound x e.pre := sound_of_run before fun _ => rfl
  have full : r.limit.toInt < ((r.recorded e.pre e.label.call).card : Int) :=
    Int.not_le.mp fun room => by
      rw [(Step.ok_iff step).mpr room] at rejected
      cases rejected
  have counted := sound.card_le window
  rw [List.countP_append, List.countP_singleton] at counted
  have earlier : x.countP (r.recent e) ≤ x.countP fun e' => decide
      (e'.label.call.key = e.label.call.key ∧
        (e.label.call.now : Int) - r.window.toInt < e'.label.call.now ∧
          e'.label.call.now < e.label.call.now) := by
    refine List.countP_mono_left fun e' member inside => ?_
    obtain ⟨same, after⟩ := of_decide_eq_true inside
    have upTo := (List.pairwise_append.mp increasing).2.2 e' member e (by simp)
    exact decide_eq_true ⟨same, after, upTo⟩
  split at counted
  · omega
  · omega

theorem limit_le_recent_of_rejected_again : ∃ x e y,
    onePerSecond.events (fun _ => none) ([0, 500000000, 1100000000].map emailCall) =
      x ++ e :: y ∧ e.label.ok = false ∧ e.label.call.now = 1100000000 ∧
    onePerSecond.limit.toInt ≤ (x.countP fun e' => decide
      (e'.label.call.key = e.label.call.key ∧
        (e.label.call.now : Int) - onePerSecond.window.toInt < e'.label.call.now ∧
          e'.label.call.now < e.label.call.now) : Int) := by
  obtain ⟨sets, run⟩ := events_run onePerSecond (fun _ => none)
    ([0, 500000000, 1100000000].map emailCall)
  exact ⟨[_, _], _, [], rfl, by decide, rfl,
    limit_le_recent_of_rejected onePerSecond (by decide) [] run (by decide) (by decide)⟩

/-- The third call is rejected because the second one was, with none allowed in its
window. -/
theorem rejected_after_rejected : ∃ x e y sets,
    Trace onePerSecond.Step (fun _ => none) (x ++ e :: y) sets ∧
    (∀ e' ∈ x ++ e :: y, e'.label.call.key = "email") ∧
    ((x ++ e :: y).Pairwise fun a b => a.label.call.now < b.label.call.now) ∧
    e.label.ok = false ∧
    (x.countP fun e' => e'.label.ok && decide
      ((e.label.call.now : Int) - onePerSecond.window.toInt < e'.label.call.now ∧
        e'.label.call.now < e.label.call.now) : Int) ≠ onePerSecond.limit.toInt := by
  obtain ⟨sets, run⟩ := events_run onePerSecond (fun _ => none)
    ([0, 500000000, 1100000000].map emailCall)
  exact ⟨[_, _], _, [], sets, run, by decide, by decide, by decide, by decide⟩

/-! ### The plain log -/

/-- What the limiter is for: a call is allowed when the calls on its key in the window
that ends with it, itself and rejected ones included, are at most `limit`. -/
def logAllow (r : RateLimiter) (log : List AllowCall) (call : AllowCall) : Bool :=
  decide (((log ++ [call]).countP fun c => decide (c.key = call.key ∧
    (call.now : Int) - r.window.toInt < c.now ∧ c.now ≤ call.now) : Int) ≤ r.limit.toInt)

/-- Every entry keeps its key alive for the whole time to live. -/
def Lasting (r : RateLimiter) (sets : SortedSets) : Prop :=
  ∀ key set, sets (rkey key) = some set → ∀ score ∈ set.entries,
    (score : Int) + r.ttl ≤ set.expiry

theorem Lasting.step (step : r.Step e.pre e.label e.post)
    (oneClock : e.label.call.served = e.label.call.now) (sound : Sound x e.pre)
    (ordered : ∀ e' ∈ x, e'.label.call.now ≤ e.label.call.now) (lasting : Lasting r e.pre) :
    Lasting r e.post := by
  intro key set held score inside
  rcases step.post_cases held with ⟨rfl, entries, expiry⟩ | ⟨_, before⟩
  · rw [entries] at inside
    obtain ⟨e', listed, _, rfl⟩ := sound.recorded inside
    have upTo : e'.label.call.now ≤ e.label.call.now := by
      rcases List.mem_append.mp listed with early | last
      · exact ordered e' early
      · rw [List.mem_singleton.mp last]
    rw [expiry, oneClock]
    omega
  · exact lasting key set before score inside

theorem Lasting.timely (lasts : r.window.toInt ≤ r.ttl)
    (oneClock : e.label.call.served = e.label.call.now) (lasting : Lasting r e.pre) :
    Timely r e := by
  intro set held expired score inside
  have kept := lasting _ set held score inside
  rw [oneClock] at expired
  omega

/-- From an empty server and on one clock the sorted sets track the log. -/
theorem tracked_of_run (window : 0 < r.window.toInt) (lasts : r.window.toInt ≤ r.ttl)
    (run : Trace r.Step (fun _ => none) h sets)
    (increasing : h.Pairwise fun a b => a.label.call.now < b.label.call.now)
    (oneClock : ∀ e ∈ h, e.label.call.served = e.label.call.now) :
    Complete r h sets ∧ Lasting r sets := by
  refine run.history (I := fun x s => Complete r x s ∧ Lasting r s)
    ⟨fun e member => absurd member (by simp), fun _ _ held => nomatch held⟩
    fun x e y eq step ⟨complete, lasting⟩ => ?_
  subst eq
  have ordered : ∀ e' ∈ x, e'.label.call.now ≤ e.label.call.now := fun e' member =>
    Nat.le_of_lt ((List.pairwise_append.mp increasing).2.2 e' member e (by simp))
  have clock := oneClock e (by simp)
  have sound : Sound x e.pre := sound_of_run run.split_cons.1 fun _ => rfl
  exact ⟨complete.step step (by omega) (lasting.timely lasts clock) ordered,
    lasting.step step clock sound ordered⟩

/-- In every run from an empty server, over any keys, each call is answered as by the
plain log of all calls before it. -/
theorem allow_eq_logAllow (r : RateLimiter) (window : 0 < r.window.toInt)
    (lasts : r.window.toInt ≤ r.ttl) (run : Trace r.Step (fun _ => none) h sets)
    (increasing : h.Pairwise fun a b => a.label.call.now < b.label.call.now)
    (oneClock : ∀ e ∈ h, e.label.call.served = e.label.call.now) :
    ∀ x e y, h = x ++ e :: y →
      e.label.ok = r.logAllow (x.map fun e' => e'.label.call) e.label.call := by
  intro x e y eq
  subst eq
  obtain ⟨before, step, _⟩ := run.split_cons
  have upTo : (x ++ [e]).Pairwise fun a b => a.label.call.now < b.label.call.now :=
    increasing.sublist (by simp)
  obtain ⟨complete, lasting⟩ := tracked_of_run window lasts before
    (List.pairwise_append.mp increasing).1 fun e' member =>
      oneClock e' (List.mem_append_left _ member)
  have sound : Sound x e.pre := sound_of_run before fun _ => rfl
  have card : (r.recorded e.pre e.label.call).card = (x ++ [e]).countP (r.recent e) :=
    Nat.le_antisymm (sound.card_le window)
      (complete.le_card (lasting.timely lasts (oneClock e (by simp))) upTo)
  have logged : (x ++ [e]).countP (r.recent e) =
      ((x.map fun e' => e'.label.call) ++ [e.label.call]).countP fun c =>
        decide (c.key = e.label.call.key ∧
          (e.label.call.now : Int) - r.window.toInt < c.now ∧ c.now ≤ e.label.call.now) := by
    rw [show (x.map fun e' => e'.label.call) ++ [e.label.call] =
      (x ++ [e]).map fun e' => e'.label.call by simp, List.countP_map]
    refine List.countP_congr fun e' member => ?_
    have ordered : e'.label.call.now ≤ e.label.call.now := by
      rcases List.mem_append.mp member with early | last
      · exact Nat.le_of_lt ((List.pairwise_append.mp upTo).2.2 e' early e (by simp))
      · rw [List.mem_singleton.mp last]
    simp [recent, ordered]
  rw [Bool.eq_iff_iff, Step.ok_iff step, card, logged]
  exact decide_eq_true_iff.symm

theorem allow_eq_logAllow_two_keys : ∃ x e y,
    onePerSecond.events (fun _ => none)
      [emailCall 5, ⟨"sms", 6, 6⟩, emailCall 7, emailCall 3000000000] = x ++ e :: y ∧
    e.label.call = emailCall 7 ∧
    e.label.ok = onePerSecond.logAllow (x.map fun e' => e'.label.call) e.label.call := by
  obtain ⟨sets, run⟩ := events_run onePerSecond (fun _ => none)
    [emailCall 5, ⟨"sms", 6, 6⟩, emailCall 7, emailCall 3000000000]
  exact ⟨[_, _], _, [_], rfl, rfl,
    allow_eq_logAllow onePerSecond (by decide) (by decide) run (by decide) (by decide) _ _ _ rfl⟩

end RateLimiter

end TaskFlow
