import Mathlib.Logic.Function.Basic

/-!
# Programs over a signature of calls

A program is a finite tree: it ends with a value, or it makes one call on its
surroundings and continues with the answer.  The tree is the common source of
every reading of the code: `Prog.run` executes it alone, `Effect.Pool`
interleaves many of them call by call.

* `Prog.run_bind` executes a sequence as the composition of its parts.
* `Prog.All P p`: every call that `p` can make, under any answers, satisfies
  `P`.  `Prog.All.run_invariant` turns it into a frame rule: what every such
  call preserves, the whole execution preserves.
* `Prog.calls` is the list of the calls an execution makes, and `Prog.calls_bind`
  cuts it at a sequence.
* `Prog.transcript` lists the calls with their answers.
* `Prog.Once P Q p`: after any call of `p` satisfying `P`, only calls
  satisfying `Q` are left.
* `Prog.Awaits P Q p`: a call satisfying `Q` comes only after one satisfying `P`.
* `Prog.Follows A R p`: what is left to run after a call, as long as the answers
  are as expected.
-/

namespace Effect

/-- A program that makes calls `op : Op`, is answered in `Ans op`, and ends with
a value of type `α`. -/
inductive Prog (Op : Type) (Ans : Op → Type) (α : Type) : Type
  | pure (value : α)
  | call (op : Op) (next : Ans op → Prog Op Ans α)

namespace Prog

variable {Op : Type} {Ans : Op → Type} {W α β γ : Type}

/-- Continue `p` with the program chosen by its value. -/
def bind : Prog Op Ans α → (α → Prog Op Ans β) → Prog Op Ans β
  | .pure value, f => f value
  | .call op next, f => .call op fun answer => bind (next answer) f

/-- The program of a single call. -/
def op (o : Op) : Prog Op Ans (Ans o) := .call o .pure

instance : Monad (Prog Op Ans) where
  pure := .pure
  bind := bind

@[simp] theorem pure_bind (value : α) (f : α → Prog Op Ans β) :
    (Pure.pure value : Prog Op Ans α) >>= f = f value := rfl

@[simp] theorem op_bind (o : Op) (f : Ans o → Prog Op Ans β) :
    op o >>= f = Prog.call o f := rfl

theorem bind_assoc (p : Prog Op Ans α) (f : α → Prog Op Ans β)
    (g : β → Prog Op Ans γ) :
    p >>= f >>= g = p >>= fun value => f value >>= g := by
  induction p with
  | pure value => rfl
  | call o next ih => exact congrArg (Prog.call o) (funext ih)

theorem bind_pure (p : Prog Op Ans α) : p >>= Prog.pure = p := by
  induction p with
  | pure value => rfl
  | call o next ih => exact congrArg (Prog.call o) (funext ih)

/-! ## Executing a program alone -/

/-- Execute `p` from `w`, each call answered by `perform`. -/
def run (perform : (o : Op) → W → Ans o × W) : Prog Op Ans α → W → α × W
  | .pure value, w => (value, w)
  | .call o next, w => run perform (next (perform o w).1) (perform o w).2

variable {perform : (o : Op) → W → Ans o × W}

@[simp] theorem run_pure (value : α) (w : W) :
    run perform (Pure.pure value : Prog Op Ans α) w = (value, w) := rfl

@[simp] theorem run_mk_pure (value : α) (w : W) :
    run perform (Prog.pure value : Prog Op Ans α) w = (value, w) := rfl

@[simp] theorem run_call (o : Op) (next : Ans o → Prog Op Ans α) (w : W) :
    run perform (.call o next) w = run perform (next (perform o w).1) (perform o w).2 := rfl

@[simp] theorem run_op (o : Op) (w : W) :
    run perform (op o : Prog Op Ans (Ans o)) w = perform o w := rfl

/-- A sequence executes as its first part, then the rest from there. -/
theorem run_bind (p : Prog Op Ans α) (f : α → Prog Op Ans β) (w : W) :
    run perform (p >>= f) w = run perform (f (run perform p w).1) (run perform p w).2 := by
  induction p generalizing w with
  | pure value => rfl
  | call o next ih => exact ih _ _

/-! ## Calls a program can make -/

/-- Every call of `p`, under any answers, satisfies `P`. -/
def All (P : Op → Prop) : Prog Op Ans α → Prop
  | .pure _ => True
  | .call o next => P o ∧ ∀ answer, All P (next answer)

variable {P Q : Op → Prop}

@[simp] theorem all_pure (value : α) :
    All P (Pure.pure value : Prog Op Ans α) := trivial

@[simp] theorem all_call (o : Op) (next : Ans o → Prog Op Ans α) :
    All P (.call o next) ↔ P o ∧ ∀ answer, All P (next answer) := Iff.rfl

theorem All.bind {p : Prog Op Ans α} {f : α → Prog Op Ans β}
    (first : All P p) (rest : ∀ value, All P (f value)) : All P (p >>= f) := by
  induction p with
  | pure value => exact rest value
  | call o next ih => exact ⟨first.1, fun answer => ih answer (first.2 answer)⟩

theorem All.mono (weaken : ∀ o, P o → Q o) {p : Prog Op Ans α} (all : All P p) :
    All Q p := by
  induction p with
  | pure value => trivial
  | call o next ih => exact ⟨weaken o all.1, fun answer => ih answer (all.2 answer)⟩

/-- What every call of a program preserves, its execution preserves. -/
theorem All.run_invariant {I : W → Prop}
    (step : ∀ o w, P o → I w → I (perform o w).2)
    {p : Prog Op Ans α} (all : All P p) {w : W} (start : I w) :
    I (run perform p w).2 := by
  induction p generalizing w with
  | pure value => exact start
  | call o next ih => exact ih _ (all.2 _) (step o w all.1 start)

/-- After any call of `p` that satisfies `P`, every later call satisfies `Q`. -/
def Once (P Q : Op → Prop) : Prog Op Ans α → Prop
  | .pure _ => True
  | .call o next => (P o → ∀ answer, All Q (next answer)) ∧ ∀ answer, Once P Q (next answer)

/-- A first part that makes no `P` call leaves the obligation to the rest. -/
theorem Once.bind_of_none {p : Prog Op Ans α} {f : α → Prog Op Ans β}
    (first : All (fun o => ¬ P o) p) (rest : ∀ value, Once P Q (f value)) :
    Once P Q (p >>= f) := by
  induction p with
  | pure value => exact rest value
  | call o next ih =>
      exact ⟨fun holds => absurd holds first.1, fun answer => ih answer (first.2 answer)⟩

/-- A program that only makes `Q` calls needs no further argument. -/
theorem Once.of_all {p : Prog Op Ans α} (all : All Q p) : Once P Q p := by
  induction p with
  | pure value => trivial
  | call o next ih => exact ⟨fun _ => all.2, fun answer => ih answer (all.2 answer)⟩

/-- A call after which only `Q` calls are left. -/
theorem Once.call {o : Op} {next : Ans o → Prog Op Ans α} (rest : ∀ answer, All Q (next answer)) :
    Once P Q (.call o next) :=
  ⟨fun _ => rest, fun answer => .of_all (rest answer)⟩

theorem Once.bind {p : Prog Op Ans α} {f : α → Prog Op Ans β} (first : Once P Q p)
    (rest : ∀ value, All Q (f value)) : Once P Q (p >>= f) := by
  induction p with
  | pure value => exact .of_all (rest value)
  | call o next ih =>
      exact ⟨fun holds answer => (first.1 holds answer).bind rest,
        fun answer => ih answer (first.2 answer)⟩

/-- Every call of `p` that satisfies `Q` comes after one that satisfies `P`. -/
def Awaits (P Q : Op → Prop) : Prog Op Ans α → Prop
  | .pure _ => True
  | .call o next => ¬ Q o ∧ (P o ∨ ∀ answer, Awaits P Q (next answer))

theorem Awaits.of_none {p : Prog Op Ans α} (none : All (fun o => ¬ Q o) p) : Awaits P Q p := by
  induction p with
  | pure value => trivial
  | call o next ih => exact ⟨none.1, .inr fun answer => ih answer (none.2 answer)⟩

theorem Awaits.bind {p : Prog Op Ans α} {f : α → Prog Op Ans β} (first : Awaits P Q p)
    (rest : ∀ value, Awaits P Q (f value)) : Awaits P Q (p >>= f) := by
  induction p with
  | pure value => exact rest value
  | call o next ih =>
      exact ⟨first.1, first.2.imp_right fun later answer => ih answer (later answer)⟩

/-! ## Calls an execution makes -/

/-- The calls the execution of `p` from `w` makes, in order. -/
def calls (perform : (o : Op) → W → Ans o × W) : Prog Op Ans α → W → List Op
  | .pure _, _ => []
  | .call o next, w => o :: calls perform (next (perform o w).1) (perform o w).2

@[simp] theorem calls_call (o : Op) (next : Ans o → Prog Op Ans α) (w : W) :
    calls perform (.call o next) w =
      o :: calls perform (next (perform o w).1) (perform o w).2 := rfl

theorem calls_bind (p : Prog Op Ans α) (f : α → Prog Op Ans β) (w : W) :
    calls perform (p >>= f) w =
      calls perform p w ++ calls perform (f (run perform p w).1) (run perform p w).2 := by
  induction p generalizing w with
  | pure value => rfl
  | call o next ih => exact congrArg (List.cons o) (ih _ _)

/-- The calls of an execution with the answer each got, in order. -/
def transcript (perform : (o : Op) → W → Ans o × W) : Prog Op Ans α → W → List (Sigma Ans)
  | .pure _, _ => []
  | .call o next, w =>
      ⟨o, (perform o w).1⟩ :: transcript perform (next (perform o w).1) (perform o w).2

@[simp] theorem transcript_pure (value : α) (w : W) :
    transcript perform (Prog.pure value : Prog Op Ans α) w = [] := rfl

@[simp] theorem transcript_call (o : Op) (next : Ans o → Prog Op Ans α) (w : W) :
    transcript perform (.call o next) w =
      ⟨o, (perform o w).1⟩ :: transcript perform (next (perform o w).1) (perform o w).2 := rfl

/-- An execution makes only calls that its program can make. -/
theorem All.calls {p : Prog Op Ans α} (all : All P p) (w : W) :
    ∀ o ∈ p.calls perform w, P o := by
  induction p generalizing w with
  | pure value => exact fun _ member => nomatch member
  | call o next ih =>
      intro o' member
      rcases List.mem_cons.mp member with rfl | later
      · exact all.1
      · exact ih _ (all.2 _) _ o' later

/-- The call a program makes next. -/
def head : Prog Op Ans α → Option Op
  | .pure _ => none
  | .call o _ => some o

/-- After every call of `p` that is answered as in `A`, what is left to run
satisfies `R`. -/
def Follows (A : (o : Op) → Ans o → Prop) (R : (o : Op) → Ans o → Prog Op Ans α → Prop) :
    Prog Op Ans α → Prop
  | .pure _ => True
  | .call o next => ∀ answer, A o answer → R o answer (next answer) ∧ Follows A R (next answer)

end Prog

end Effect
