import Mathlib.Logic.Function.Basic
import Mathlib.Order.Defs.Unbundled

/-!
# Occurrences fired once

Agents `ι` fire the current occurrence of a key and then move the key to its next
occurrence, in two separate steps.  The ledger counts how often each occurrence
was fired.  If an occurrence is fired only while it is current, no move of its key
is pending, and the next occurrence lies after it, then it is fired at most once
(`Ledger.Sound.step`, `Ledger.Sound.fired_le`).
-/

namespace Effect

/-- The current occurrence of every key, the number of times each occurrence was
fired, and the move each agent has still to make. -/
@[ext] structure Ledger (ι K V : Type) : Type where
  due : K → V
  fired : K → V → Nat
  pending : ι → Option (K × V)

namespace Ledger

variable {ι K V : Type} [DecidableEq ι] [DecidableEq K]

/-- Agent `i` fires the current occurrence of `k` and is to move `k` to `t`. -/
def fire [DecidableEq V] (r : Ledger ι K V) (i : ι) (k : K) (t : V) : Ledger ι K V where
  due := r.due
  fired k' v := r.fired k' v + if k' = k ∧ v = r.due k then 1 else 0
  pending := Function.update r.pending i (some (k, t))

/-- Agent `i` moves `k` to `t`. -/
def move (r : Ledger ι K V) (i : ι) (k : K) (t : V) : Ledger ι K V where
  due := Function.update r.due k t
  fired := r.fired
  pending := Function.update r.pending i none

variable {r r' : Ledger ι K V} {i j : ι} {k l : K} {t : V}

theorem fire_pending_self [DecidableEq V] : (r.fire i k t).pending i = some (k, t) :=
  Function.update_self ..

theorem fire_pending_ne [DecidableEq V] (ne : j ≠ i) : (r.fire i k t).pending j = r.pending j :=
  Function.update_of_ne ne ..

theorem move_pending_self : (r.move i k t).pending i = none := Function.update_self ..

theorem move_pending_ne (ne : j ≠ i) : (r.move i k t).pending j = r.pending j :=
  Function.update_of_ne ne ..

theorem move_due_self : (r.move i k t).due k = t := Function.update_self ..

theorem move_due_ne (ne : l ≠ k) : (r.move i k t).due l = r.due l := Function.update_of_ne ne ..

variable [DecidableEq V] (lt : V → V → Prop)

/-- Nothing, a firing of the current occurrence, or a pending move. -/
inductive Step : Ledger ι K V → Ledger ι K V → Prop
  | idle {r : Ledger ι K V} : Step r r
  | fire {r : Ledger ι K V} {i : ι} {k : K} {t : V} :
    r.pending i = none → (∀ j u, r.pending j ≠ some (k, u)) → lt (r.due k) t →
    Step r (r.fire i k t)
  | move {r : Ledger ι K V} {i : ι} {k : K} {t : V} :
    r.pending i = some (k, t) → Step r (r.move i k t)

/-- What was fired is behind the current occurrence, or is the current one with its
move pending. -/
structure Sound (r : Ledger ι K V) : Prop where
  fired_le : ∀ k v, r.fired k v ≤ 1
  single : ∀ i j k t u, r.pending i = some (k, t) → r.pending j = some (k, u) → i = j
  ahead : ∀ i k t, r.pending i = some (k, t) → lt (r.due k) t
  behind : ∀ k v, 0 < r.fired k v →
    lt v (r.due k) ∨ (v = r.due k ∧ ∃ i t, r.pending i = some (k, t))

variable {lt} [Std.Irrefl lt] [IsTrans V lt]

omit [IsTrans V lt] in
theorem Sound.fire (sound : r.Sound lt) (free : r.pending i = none)
    (alone : ∀ j u, r.pending j ≠ some (k, u)) (after : lt (r.due k) t) :
    (r.fire i k t).Sound lt := by
  have unfired : r.fired k (r.due k) = 0 := by
    by_contra fired
    rcases sound.behind k _ (Nat.pos_of_ne_zero fired) with before | ⟨_, j, u, pending⟩
    · exact irrefl _ before
    · exact alone j u pending
  have new : ∀ j k' u, (r.fire i k t).pending j = some (k', u) →
      (j = i ∧ k' = k ∧ u = t) ∨ (j ≠ i ∧ r.pending j = some (k', u)) := by
    intro j k' u pending
    by_cases same : j = i
    · subst same
      rw [fire_pending_self] at pending
      cases pending
      exact .inl ⟨rfl, rfl, rfl⟩
    · rw [fire_pending_ne same] at pending
      exact .inr ⟨same, pending⟩
  refine ⟨fun k' v => ?_, fun j j' k' u u' pending pending' => ?_, fun j k' u pending => ?_,
    fun k' v fired => ?_⟩
  · have le := sound.fired_le k' v
    simp only [Ledger.fire]
    split
    · rename_i here
      obtain ⟨rfl, rfl⟩ := here
      exact Nat.le_of_eq (by rw [unfired])
    · exact le
  · rcases new j k' u pending with ⟨rfl, rfl, rfl⟩ | ⟨_, old⟩
    · rcases new j' k' u' pending' with ⟨rfl, _⟩ | ⟨_, old'⟩
      · rfl
      · exact absurd old' (alone j' u')
    · rcases new j' k' u' pending' with ⟨rfl, rfl, rfl⟩ | ⟨_, old'⟩
      · exact absurd old (alone j u)
      · exact sound.single j j' k' u u' old old'
  · rcases new j k' u pending with ⟨rfl, rfl, rfl⟩ | ⟨_, old⟩
    · exact after
    · exact sound.ahead j k' u old
  · by_cases here : k' = k ∧ v = r.due k
    · obtain ⟨rfl, rfl⟩ := here
      exact .inr ⟨rfl, i, t, fire_pending_self⟩
    · simp only [Ledger.fire, if_neg here, Nat.add_zero] at fired
      rcases sound.behind k' v fired with before | ⟨same, j, u, pending⟩
      · exact .inl before
      · have other : j ≠ i := fun eq => by rw [eq, free] at pending; cases pending
        exact .inr ⟨same, j, u, (fire_pending_ne other).trans pending⟩

omit [DecidableEq V] [Std.Irrefl lt] in
theorem Sound.move (sound : r.Sound lt) (own : r.pending i = some (k, t)) :
    (r.move i k t).Sound lt := by
  have old : ∀ j k' u, (r.move i k t).pending j = some (k', u) →
      r.pending j = some (k', u) ∧ k' ≠ k := by
    intro j k' u pending
    by_cases same : j = i
    · subst same
      rw [move_pending_self] at pending
      cases pending
    · rw [move_pending_ne same] at pending
      refine ⟨pending, ?_⟩
      rintro rfl
      exact same (sound.single j i k' u t pending own)
  refine ⟨sound.fired_le, fun j j' k' u u' pending pending' => ?_, fun j k' u pending => ?_,
    fun k' v fired => ?_⟩
  · exact sound.single j j' k' u u' (old j k' u pending).1 (old j' k' u' pending').1
  · obtain ⟨before, other⟩ := old j k' u pending
    rw [move_due_ne other]
    exact sound.ahead j k' u before
  · by_cases same : k' = k
    · subst same
      left
      rw [move_due_self]
      have ahead := sound.ahead i k' t own
      rcases sound.behind k' v fired with before | ⟨rfl, _⟩
      · exact IsTrans.trans _ _ _ before ahead
      · exact ahead
    · rw [move_due_ne same]
      rcases sound.behind k' v fired with before | ⟨current, j, u, pending⟩
      · exact .inl before
      · have other : j ≠ i := by
          rintro rfl
          rw [own] at pending
          cases pending
          exact same rfl
        exact .inr ⟨current, j, u, (move_pending_ne other).trans pending⟩

/-- Every step keeps the ledger sound. -/
theorem Sound.step (sound : r.Sound lt) (step : Step lt r r') : r'.Sound lt := by
  cases step with
  | idle => exact sound
  | fire free alone after => exact sound.fire free alone after
  | move own => exact sound.move own

end Ledger

end Effect
