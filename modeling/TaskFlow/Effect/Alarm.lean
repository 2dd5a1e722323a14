import Mathlib.Data.List.Basic

/-!
# An alarm that is set again when it fires

The alarm fires when it is due and is set to a later activation at once.  Of two
firings the second then comes after an activation that the first did not wait for
(`Alarm.Sound.fire`).
-/

namespace Effect

/-- When the alarm fired, and what it is set to.  An alarm that is not set is due. -/
@[ext] structure Alarm (T : Type) : Type where
  fired : List T
  next : Option T

namespace Alarm

variable {T : Type} [LE T] [LT T] {A : T → Prop} {alarm : Alarm T} {t u v : T}

/-- There is an activation after `t`, at `u` at the latest. -/
def Between (A : T → Prop) (t u : T) : Prop := ∃ a, A a ∧ t < a ∧ a ≤ u

/-- Any two firings are an activation apart, and so are each firing and the time
the alarm is set to. -/
structure Sound (A : T → Prop) (alarm : Alarm T) : Prop where
  spaced : alarm.fired.Pairwise (Between A)
  ahead : ∀ t ∈ alarm.fired, ∃ v ∈ alarm.next, Between A t v

/-- The alarm fires at `t` and is set to `next`. -/
def fire (alarm : Alarm T) (t next : T) : Alarm T := ⟨alarm.fired ++ [t], some next⟩

theorem Sound.unfired (none : alarm.fired = []) : alarm.Sound A := by
  refine ⟨?_, fun t member => ?_⟩
  · rw [none]
    exact .nil
  · rw [none] at member
    cases member

variable [Std.IsPreorder T] [Std.LawfulOrderLT T]

omit [Std.LawfulOrderLT T] in
theorem Between.mono (between : Between A t u) (le : u ≤ v) : Between A t v := by
  obtain ⟨a, active, after, before⟩ := between
  exact ⟨a, active, after, Std.le_trans before le⟩

theorem Sound.fire {next : T} (sound : alarm.Sound A) (due : ∀ v ∈ alarm.next, v ≤ t)
    (active : A next) (after : t < next) : (alarm.fire t next).Sound A := by
  have apart : ∀ s ∈ alarm.fired, Between A s t := by
    intro s member
    obtain ⟨v, set, between⟩ := sound.ahead s member
    exact between.mono (due v set)
  refine ⟨?_, fun s member => ⟨next, rfl, ?_⟩⟩
  · refine List.pairwise_append.mpr ⟨sound.spaced, List.pairwise_singleton .., ?_⟩
    intro s member u last
    rw [List.mem_singleton.mp last]
    exact apart s member
  · rcases List.mem_append.mp member with old | last
    · exact (apart s old).mono (Std.le_of_lt after)
    · rw [List.mem_singleton.mp last]
      exact ⟨next, active, after, Std.le_refl next⟩

end Alarm

end Effect
