import Mathlib.Data.List.Induction
import TaskFlow.Effect.Pool

/-!
# Diaries

A slot in the middle of a request has made some calls, and each was answered: its diary.
`Prog.Keeps P Q x p` is about a program alone: with the diary `x` so far, every call of `p`
satisfies `P` of the diary before it, and its value `Q` of the whole diary, whatever the
answers are.

* `Prog.Keeps.bind` composes it.
* `System.diary` reads the diary of a slot off a run, and `System.keeps_run` carries the
  property along: however the calls of the slots are interleaved, each slot keeps its own
  diary so.  `System.kept_at_call` reads it off at a call.
* `System.mem_diary` finds the call of a note in the run.
-/

namespace Effect

variable {Op : Type} {Ans : Op → Type} {W ι C α β : Type}

namespace Prog

variable {P : List (Sigma Ans) → Op → Prop} {Q : List (Sigma Ans) → α → Prop}
  {Q' : List (Sigma Ans) → β → Prop} {x : List (Sigma Ans)} {p : Prog Op Ans α}

/-- With the diary `x` so far, the calls satisfy `P` and the value satisfies `Q`. -/
def Keeps (P : List (Sigma Ans) → Op → Prop) (Q : List (Sigma Ans) → α → Prop) :
    List (Sigma Ans) → Prog Op Ans α → Prop
  | x, .pure value => Q x value
  | x, .call o next => P x o ∧ ∀ answer, Keeps P Q (x ++ [⟨o, answer⟩]) (next answer)

theorem Keeps.bind {f : α → Prog Op Ans β} (first : Keeps P Q x p)
    (rest : ∀ y value, Q y value → Keeps P Q' y (f value)) : Keeps P Q' x (p >>= f) := by
  induction p generalizing x with
  | pure value => exact rest x value first
  | call o next ih => exact ⟨first.1, fun answer => ih answer (first.2 answer)⟩

theorem Keeps.mono {P' : List (Sigma Ans) → Op → Prop} {R : List (Sigma Ans) → α → Prop}
    (keeps : Keeps P Q x p) (calls : ∀ y o, P y o → P' y o)
    (values : ∀ y value, Q y value → R y value) : Keeps P' R x p := by
  induction p generalizing x with
  | pure value => exact values x value keeps
  | call o next ih => exact ⟨calls x o keeps.1, fun answer => ih answer (keeps.2 answer)⟩

/-- Calls that satisfy `P` whatever was noted before. -/
theorem Keeps.of_all (all : All (fun o => ∀ x, P x o) p) (anything : ∀ y value, Q y value) :
    Keeps P Q x p := by
  induction p generalizing x with
  | pure value => exact anything x value
  | call o next ih => exact ⟨all.1 x, fun answer => ih answer (all.2 answer)⟩

theorem Keeps.of_forall (calls : ∀ y o, P y o) (values : ∀ y value, Q y value) :
    Keeps P Q x p := by
  induction p generalizing x with
  | pure value => exact values x value
  | call o next ih => exact ⟨calls x o, fun answer => ih answer⟩

end Prog

namespace System

variable [DecidableEq ι] {sys : System Op Ans W ι C β} {s t : Pool Op Ans W ι C β}
  {h x y : List (Transition (Pool Op Ans W ι C β) (Label Op ι C))}
  {e : Transition (Pool Op Ans W ι C β) (Label Op ι C)}
  {P : C → List (Sigma Ans) → Op → Prop} {Q : C → List (Sigma Ans) → β → Prop}

/-- What a slot notes of a step: a start opens a new diary, a call is noted with its
answer. -/
def note (sys : System Op Ans W ι C β) (i : ι) (x : List (Sigma Ans))
    (e : Transition (Pool Op Ans W ι C β) (Label Op ι C)) : List (Sigma Ans) :=
  match e.label with
  | .start j _ => if j = i then [] else x
  | .act j op => if j = i then x ++ [⟨op, (sys.perform op e.pre.world).1⟩] else x
  | _ => x

/-- The diary of a slot after a run. -/
def diary (sys : System Op Ans W ι C β)
    (h : List (Transition (Pool Op Ans W ι C β) (Label Op ι C))) (i : ι) : List (Sigma Ans) :=
  h.foldl (sys.note i) []

theorem diary_snoc (i : ι) : sys.diary (x ++ [e]) i = sys.note i (sys.diary x i) e :=
  List.foldl_append ..

/-- There was a transition as in `P`, and slot `i` has started nothing since. -/
def Since (i : ι) (P : Transition (Pool Op Ans W ι C β) (Label Op ι C) → Prop)
    (h : List (Transition (Pool Op Ans W ι C β) (Label Op ι C))) : Prop :=
  ∃ x a y, h = x ++ a :: y ∧ P a ∧ ∀ e ∈ y, ∀ request, e.label ≠ .start i request

omit [DecidableEq ι] in
theorem Since.snoc {P : Transition (Pool Op Ans W ι C β) (Label Op ι C) → Prop} {i : ι}
    (since : Since i P h) (other : ∀ request, e.label ≠ .start i request) :
    Since i P (h ++ [e]) := by
  obtain ⟨x, a, y, rfl, here, quiet⟩ := since
  refine ⟨x, a, y ++ [e], by simp, here, fun e' member => ?_⟩
  rcases List.mem_append.mp member with earlier | last
  · exact quiet e' earlier
  · rw [List.mem_singleton.mp last]
    exact other

/-- A note of a slot was made by a call of its request. -/
theorem mem_diary {i : ι} {note : Sigma Ans} (noted : note ∈ sys.diary h i) :
    Since i (fun a => a.label = .act i note.1 ∧ (sys.perform note.1 a.pre.world).1 = note.2) h := by
  induction h using List.reverseRec with
  | nil => cases noted
  | append_singleton h e ih =>
      rw [diary_snoc] at noted
      unfold System.note at noted
      split at noted
      · rename_i j request label
        split at noted
        · cases noted
        · rename_i other
          refine (ih noted).snoc fun request' same => other ?_
          cases label.symm.trans same
          rfl
      · rename_i j op label
        have acts : ∀ request, e.label ≠ .start i request := by
          intro request same
          cases label.symm.trans same
        split at noted
        · rename_i own
          subst own
          rcases List.mem_append.mp noted with earlier | last
          · exact (ih earlier).snoc acts
          · cases List.mem_singleton.mp last
            exact ⟨h, e, [], rfl, ⟨label, rfl⟩, nofun⟩
        · exact (ih noted).snoc acts
      · rename_i quiet _
        exact (ih noted).snoc fun request same => quiet i request same

/-- A slot that is busy is not started. -/
theorem Step.not_start {l : Label Op ι C} (step : sys.Step s l t) {i : ι}
    {thread : Thread Op Ans C β} (busy : s.threads i = some thread) (request : C) :
    l ≠ .start i request := by
  rintro rfl
  cases step with
  | start idle _ => cases idle.symm.trans busy

/-- The slots of a run keep their diaries as their programs do. -/
theorem keeps_run {w : W} (run : Trace sys.Step ⟨w, fun _ => none⟩ h t)
    (bodies : ∀ e ∈ h, ∀ i request, e.label = .start i request →
      Prog.Keeps (P request) (Q request) [] (sys.body i request)) :
    ∀ i request rest, t.threads i = some ⟨request, rest⟩ →
      Prog.Keeps (P request) (Q request) (sys.diary h i) rest := by
  refine run.history (I := fun x s => ∀ i request rest, s.threads i = some ⟨request, rest⟩ →
    Prog.Keeps (P request) (Q request) (sys.diary x i) rest) (fun _ _ _ => nofun) ?_
  intro x e y eq step before i request rest running
  subst eq
  rw [diary_snoc]
  rcases step.threads_cases running with ⟨same, quiet⟩ | ⟨_, label, _, _, started⟩ |
    ⟨op, next, label, here, answered, _⟩
  · -- The step is not one of this slot.
    have unchanged : sys.note i (sys.diary x i) e = sys.diary x i := by
      unfold note
      split
      · rename_i j request' label
        refine if_neg fun own => ?_
        subst own
        exact step.not_start same request' label
      · rename_i j op label
        refine if_neg fun own => ?_
        subst own
        exact quiet op label
      · rfl
    rw [unchanged]
    exact before i request rest same
  · cases started
    unfold note
    rw [label]
    simp only [if_true]
    exact bodies e (List.mem_append_right _ List.mem_cons_self) i request label
  · dsimp only at here answered
    subst answered
    unfold note
    rw [label]
    simp only [if_true]
    exact (before i request _ here).2 _

/-- What a program shows of its diary at a call holds at every such call of a run. -/
theorem kept_at_call {w : W} {i : ι} {request : C} {op : Op} {next : Ans op → Prog Op Ans β}
    (run : Trace sys.Step ⟨w, fun _ => none⟩ (x ++ e :: y) t)
    (bodies : ∀ e' ∈ x ++ e :: y, ∀ i request, e'.label = .start i request →
      Prog.Keeps (P request) (Q request) [] (sys.body i request))
    (here : e.pre.threads i = some ⟨request, .call op next⟩) :
    P request (sys.diary x i) op :=
  (keeps_run (Q := Q) run.split_cons.1
    (fun e' member => bodies e' (List.mem_append_left _ member)) i request _ here).1

end System

end Effect
