import Mathlib.Data.List.Basic

/-!
# Machines that answer operations

A machine answers an operation and moves to its next state.  `serveAll` performs a
list of operations.

* `serveAll_answer`: each answer is that of the state its operation finds.
* `serveAll_simulates`: two machines whose states stay related and whose answers
  agree at each operation answer every list of operations alike.
* `serveAll_look`: what is seen of a state that only its own writes change is the
  last of them; `update_some_eq_or` is the step for an entry of a map.
-/

namespace Effect

variable {Op Ans S T V : Type}

/-- Perform operations in order: their answers and the state after them. -/
def serveAll (step : Op → S → Ans × S) : List Op → S → List Ans × S
  | [], s => ([], s)
  | op :: ops, s =>
      ((step op s).1 :: (serveAll step ops (step op s).2).1, (serveAll step ops (step op s).2).2)

theorem serveAll_simulates {f : Op → S → Ans × S} {g : Op → T → Ans × T} {R : S → T → Prop}
    (sim : ∀ op s t, R s t → (f op s).1 = (g op t).1 ∧ R (f op s).2 (g op t).2)
    (ops : List Op) {s : S} {t : T} (start : R s t) :
    (serveAll f ops s).1 = (serveAll g ops t).1 ∧
      R (serveAll f ops s).2 (serveAll g ops t).2 := by
  induction ops generalizing s t with
  | nil => exact ⟨rfl, start⟩
  | cons op ops ih =>
      obtain ⟨answer, related⟩ := sim op s t start
      obtain ⟨answers, final⟩ := ih related
      exact ⟨by simp only [serveAll, answer, answers], final⟩

/-- The answer to an operation is that of the machine in the state before it. -/
theorem serveAll_answer (step : Op → S → Ans × S) (before : List Op) (op : Op) (after : List Op)
    (s : S) :
    (serveAll step (before ++ op :: after) s).1[before.length]? =
      some (step op (serveAll step before s).2).1 := by
  induction before generalizing s with
  | nil => rfl
  | cons first before ih => exact ih (step first s).2

/-- The last value that the operations write. -/
def lastWrite (writes : Op → Option V) (ops : List Op) : Option V :=
  ops.reverse.findSome? writes

/-- An entry of a map after a write of some entry. -/
theorem update_some_eq_or {K : Type} [DecidableEq K] (f : K → Option V) (key : K) (value : V)
    (other : K) : Function.update f key (some value) other =
      (if key = other then some value else none).or (f other) := by
  by_cases same : key = other
  · rw [if_pos same, same, Function.update_self, Option.some_or]
  · rw [if_neg same, Function.update_of_ne (Ne.symm same), Option.none_or]

theorem serveAll_look {step : Op → S → Ans × S} (look : S → Option V) (writes : Op → Option V)
    (stepLook : ∀ op s, look (step op s).2 = (writes op).or (look s)) (ops : List Op) (s : S) :
    look (serveAll step ops s).2 = (lastWrite writes ops).or (look s) := by
  induction ops generalizing s with
  | nil => rfl
  | cons op ops ih =>
      have last : lastWrite writes (op :: ops) = (lastWrite writes ops).or (writes op) := by
        simp only [lastWrite, List.reverse_cons, List.findSome?_append, List.findSome?_singleton]
      rw [serveAll, ih, stepLook, last, Option.or_assoc]

end Effect
