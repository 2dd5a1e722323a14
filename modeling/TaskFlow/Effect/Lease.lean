import Mathlib.Algebra.Order.Group.Defs
import TaskFlow.Effect.Trace

/-!
# A lease with a time to live

One register names a holder and an instant at which the holding ends.  A grant
goes to a key only while no other key holds the register, and lasts for one time
to live from the moment it is made.  A grant may stay unknown to whom it was made
(`Lease.Step.silent`), as when the reply is lost.

`Lease.exclusive`: two grants made known to different keys are at least one time
to live apart.
-/

namespace Effect

variable {K T : Type} [AddCommGroup T] [LinearOrder T]

/-- The register: a holder with the end of its holding, and the current time. -/
structure Lease (K T : Type) : Type where
  holder : Option (K × T)
  now : T

namespace Lease

/-- No key but `k` holds the register now. -/
def Free (r : Lease K T) (k : K) : Prop :=
  ∀ k' until_, r.holder = some (k', until_) → r.now < until_ → k' = k

/-- The register after a grant to `k`. -/
def grant (r : Lease K T) (ttl : T) (k : K) : Lease K T :=
  { r with holder := some (k, r.now + ttl) }

/-- One step, labelled with the key that learns of a grant. -/
inductive Step (ttl : T) : Lease K T → Option K → Lease K T → Prop
  | idle (r : Lease K T) : Step ttl r none r
  | elapse {r : Lease K T} {now : T} : r.now ≤ now → Step ttl r none { r with now := now }
  | granted {r : Lease K T} {k : K} : r.Free k → Step ttl r (some k) (r.grant ttl k)
  | silent {r : Lease K T} {k : K} : r.Free k → Step ttl r none (r.grant ttl k)

/-- A grant to `k` at `t` is still respected: its time is over, or `k` holds the
register at least that long. -/
def Respects (ttl : T) (k : K) (t : T) (r : Lease K T) : Prop :=
  t ≤ r.now ∧
    (t + ttl ≤ r.now ∨ ∃ until_, r.holder = some (k, until_) ∧ t + ttl ≤ until_)

variable [IsOrderedAddMonoid T] {ttl t : T} {k k' : K} {r r' : Lease K T}

omit [IsOrderedAddMonoid T] in
theorem respects_grant : Respects ttl k r.now (r.grant ttl k) :=
  ⟨le_refl _, .inr ⟨_, rfl, le_refl _⟩⟩

omit [IsOrderedAddMonoid T] in
/-- While a grant lasts, the register is free for no other key. -/
theorem Respects.eq_of_free (respects : Respects ttl k t r) (lasts : r.now < t + ttl)
    (free : r.Free k') : k = k' := by
  obtain ⟨_, ended | ⟨until_, holder, long⟩⟩ := respects
  · exact absurd ended (not_le.mpr lasts)
  · exact free k until_ holder (lt_of_lt_of_le lasts long)

theorem Respects.grant (respects : Respects ttl k t r) (free : r.Free k') :
    Respects ttl k t (r.grant ttl k') := by
  rcases lt_or_ge r.now (t + ttl) with lasts | ended
  · obtain rfl := respects.eq_of_free lasts free
    exact ⟨respects.1, .inr ⟨_, rfl, add_le_add_left respects.1 ttl⟩⟩
  · exact ⟨respects.1, .inl ended⟩

/-- Every step respects the grants made. -/
theorem Respects.step {label : Option K} (step : Step ttl r label r')
    (respects : Respects ttl k t r) : Respects ttl k t r' := by
  cases step with
  | idle => exact respects
  | elapse later =>
      obtain ⟨past, ended | holds⟩ := respects
      · exact ⟨past.trans later, .inl (ended.trans later)⟩
      · exact ⟨past.trans later, .inr holds⟩
  | granted free => exact respects.grant free
  | silent free => exact respects.grant free

omit [IsOrderedAddMonoid T] in
theorem Step.now_le {label : Option K} (step : Step ttl r label r') : r.now ≤ r'.now := by
  cases step with
  | idle => exact le_refl _
  | elapse later => exact later
  | granted _ => exact le_refl _
  | silent _ => exact le_refl _

omit [IsOrderedAddMonoid T] in
/-- A grant that is made known is respected. -/
theorem Step.respects (step : Step ttl r (some k) r') : Respects ttl k r.now r' := by
  cases step with
  | granted _ => exact respects_grant

/-- What is respected of a grant is respected of an earlier instant. -/
theorem Respects.earlier {t' : T} (respects : Respects ttl k t r) (le : t' ≤ t) :
    Respects ttl k t' r := by
  have ends : t' + ttl ≤ t + ttl := add_le_add_left le ttl
  obtain ⟨past, ended | ⟨until_, holder, long⟩⟩ := respects
  · exact ⟨le.trans past, .inl (ends.trans ended)⟩
  · exact ⟨le.trans past, .inr ⟨until_, holder, ends.trans long⟩⟩

omit [IsOrderedAddMonoid T] in
/-- While a grant lasts, the register names its key. -/
theorem Respects.holder (respects : Respects ttl k t r) (lasts : r.now < t + ttl) :
    ∃ until_, r.holder = some (k, until_) := by
  obtain ⟨_, ended | ⟨until_, holder, _⟩⟩ := respects
  · exact absurd ended (not_le.mpr lasts)
  · exact ⟨until_, holder⟩

omit [IsOrderedAddMonoid T] in
/-- Two grants that last are to one key. -/
theorem Respects.unique {t' : T} (respects : Respects ttl k t r)
    (respects' : Respects ttl k' t' r) (lasts : r.now < t + ttl) (lasts' : r.now < t' + ttl) :
    k = k' := by
  obtain ⟨until_, holder⟩ := respects.holder lasts
  obtain ⟨until', holder'⟩ := respects'.holder lasts'
  rw [holder] at holder'
  cases holder'
  rfl

/-- A later grant to another key comes after the time to live of the earlier. -/
theorem Respects.later_grant {h : List (Transition (Lease K T) (Option K))}
    {e : Transition (Lease K T) (Option K)} (run : Trace (Step ttl) r h r')
    (respects : Respects ttl k t r) (member : e ∈ h) (granted : e.label = some k')
    (ne : k ≠ k') : t + ttl ≤ e.pre.now := by
  obtain ⟨kept, taken⟩ := run.invariant_mem respects (fun _ _ _ step => Respects.step step) e member
  rw [granted] at taken
  generalize eq : e.post = post at taken
  cases taken with
  | granted free =>
      by_contra lasts
      exact ne (kept.eq_of_free (not_le.mp lasts) free)

/-- **Exclusivity.**  Of two keys that learn of a grant, the second does not learn
of it within one time to live from the first. -/
theorem exclusive (positive : 0 < ttl) {h : List (Transition (Lease K T) (Option K))}
    {e e' : Transition (Lease K T) (Option K)} (run : Trace (Step ttl) r h r')
    (member : e ∈ h) (member' : e' ∈ h) (granted : e.label = some k)
    (granted' : e'.label = some k') (ne : k ≠ k') :
    ¬ (e.pre.now ≤ e'.pre.now ∧ e'.pre.now < e.pre.now + ttl) := by
  -- After its own transition a grant is respected up to the end of the run.
  have after : ∀ {e : Transition (Lease K T) (Option K)} {k : K} {x y},
      h = x ++ e :: y → e.label = some k →
        Respects ttl k e.pre.now e.post ∧ Trace (Step ttl) e.post y r' := by
    intro e k x y split label
    rw [split] at run
    obtain ⟨_, taken, rest⟩ := run.split_cons
    rw [label] at taken
    refine ⟨?_, rest⟩
    generalize e.post = post at taken
    cases taken with
    | granted _ => exact respects_grant
  rintro ⟨le, lt⟩
  rcases Trace.mem_order member member' with rfl | ⟨x, y, split, later⟩ | ⟨x, y, split, later⟩
  · exact ne (Option.some.inj (granted.symm.trans granted'))
  · obtain ⟨respects, rest⟩ := after split granted
    exact absurd (respects.later_grant rest later granted' ne) (not_le.mpr lt)
  · obtain ⟨respects, rest⟩ := after split granted'
    have apart := respects.later_grant rest later granted ne.symm
    have : e'.pre.now < e'.pre.now + ttl := lt_add_of_pos_right _ positive
    exact absurd (apart.trans le) (not_le.mpr this)

end Lease

end Effect
