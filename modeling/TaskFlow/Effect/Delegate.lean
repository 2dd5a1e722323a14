import Mathlib.Logic.Function.Iterate
import TaskFlow.Effect.Prog

/-!
# Calls answered by programs

A model may leave the answers of some calls open, to be read off a script.  Here such
calls are delegated: each is answered by a program of its own, over its own signature and
its own surroundings, and the world only takes note of the answer.

`Delegate.run_foresee`: an execution with delegated calls is an execution on the script
that foresees the answers the programs give.  So what was shown of every script holds with
the programs in place.  `Delegate.asked_answers` says where the answers come from: the
programs were run one after another on their surroundings.
-/

namespace Effect

variable {Op Op' : Type} {Ans : Op → Type} {Ans' : Op' → Type} {W V α : Type}

/-- The program behind each delegated call, and the note the world takes of its answer. -/
structure Delegate (Op : Type) (Ans : Op → Type) (Op' : Type) (Ans' : Op' → Type) (W : Type) :
    Type where
  program : (o : Op) → Option (Prog Op' Ans' (Ans o))
  note : (o : Op) → Ans o → W → W

namespace Delegate

variable (d : Delegate Op Ans Op' Ans' W) (perform : (o : Op) → W → Ans o × W)
  (outer : (o : Op') → V → Ans' o × V)

/-- Answer one call: a delegated one by its program, any other as before. -/
def answer (o : Op) (s : W × V) : Ans o × (W × V) :=
  match d.program o with
  | none => ((perform o s.1).1, (perform o s.1).2, s.2)
  | some p => ((p.run outer s.2).1, d.note o (p.run outer s.2).1 s.1, (p.run outer s.2).2)

/-- The delegated calls of an execution with their answers, in order. -/
def asked : Prog Op Ans α → W × V → List (Sigma Ans)
  | .pure _, _ => []
  | .call o next, s =>
      let later := asked (next (d.answer perform outer o s).1) (d.answer perform outer o s).2
      match d.program o with
      | none => later
      | some _ => ⟨o, (d.answer perform outer o s).1⟩ :: later

/-- Executing the programs of these calls one after another gives these answers. -/
inductive Answers : V → List (Sigma Ans) → V → Prop
  | nil {v : V} : Answers v [] v
  | cons {v v' : V} {o : Op} {p : Prog Op' Ans' (Ans o)} {later : List (Sigma Ans)} :
    d.program o = some p → Answers (p.run outer v).2 later v' →
    Answers v (⟨o, (p.run outer v).1⟩ :: later) v'

/-- The script can foresee answers: a delegated call then gets the first of them and leaves
the rest, and any other call does not look at them. -/
structure Foresees (foresee : List (Sigma Ans) → W → W) : Prop where
  nil : ∀ w, foresee [] w = w
  delegated : ∀ o p a later w, d.program o = some p →
    perform o (foresee (⟨o, a⟩ :: later) w) = (a, foresee later (d.note o a w))
  other : ∀ o later w, d.program o = none →
    perform o (foresee later w) = ((perform o w).1, foresee later (perform o w).2)

variable {d perform outer} {o : Op} {s : W × V}

theorem answer_other (own : d.program o = none) :
    d.answer perform outer o s = ((perform o s.1).1, (perform o s.1).2, s.2) := by
  simp only [answer, own]

theorem answer_delegated {p : Prog Op' Ans' (Ans o)} (delegated : d.program o = some p) :
    d.answer perform outer o s =
      ((p.run outer s.2).1, d.note o (p.run outer s.2).1 s.1, (p.run outer s.2).2) := by
  simp only [answer, delegated]

theorem asked_other {next : Ans o → Prog Op Ans α} (own : d.program o = none) :
    d.asked perform outer (.call o next) s =
      d.asked perform outer (next (perform o s.1).1) ((perform o s.1).2, s.2) := by
  simp only [asked, own, answer_other own]

theorem asked_delegated {next : Ans o → Prog Op Ans α} {p : Prog Op' Ans' (Ans o)}
    (delegated : d.program o = some p) :
    d.asked perform outer (.call o next) s = ⟨o, (p.run outer s.2).1⟩ ::
      d.asked perform outer (next (p.run outer s.2).1)
        (d.note o (p.run outer s.2).1 s.1, (p.run outer s.2).2) := by
  simp only [asked, delegated, answer_delegated delegated]

/-- An execution with delegated calls is one on the script that foresees their answers. -/
theorem run_foresee {foresee : List (Sigma Ans) → W → W}
    (foresees : d.Foresees perform foresee) (p : Prog Op Ans α) (s : W × V) :
    p.run perform (foresee (d.asked perform outer p s) s.1) =
      ((p.run (d.answer perform outer) s).1, (p.run (d.answer perform outer) s).2.1) := by
  induction p generalizing s with
  | pure value => exact congrArg (Prod.mk value) (foresees.nil s.1)
  | call o next ih =>
      cases delegated : d.program o with
      | none =>
          rw [asked_other delegated, Prog.run_call, foresees.other _ _ _ delegated, Prog.run_call,
            answer_other delegated]
          exact ih _ _
      | some p =>
          rw [asked_delegated delegated, Prog.run_call, foresees.delegated _ _ _ _ _ delegated,
            Prog.run_call, answer_delegated delegated]
          exact ih _ _

/-- The answers are those of the programs, run one after another. -/
theorem asked_answers (p : Prog Op Ans α) (s : W × V) :
    d.Answers outer s.2 (d.asked perform outer p s) (p.run (d.answer perform outer) s).2.2 := by
  induction p generalizing s with
  | pure value => exact .nil
  | call o next ih =>
      cases delegated : d.program o with
      | none =>
          rw [asked_other delegated, Prog.run_call, answer_other delegated]
          exact ih _ ((perform o s.1).2, s.2)
      | some p =>
          rw [asked_delegated delegated, Prog.run_call, answer_delegated delegated]
          exact .cons delegated
            (ih _ (d.note o (p.run outer s.2).1 s.1, (p.run outer s.2).2))

/-- A log that only the notes add to has grown by the answers given. -/
theorem run_log {X : Type} (log : W → List X) (entries : Sigma Ans → List X)
    (other : ∀ o w, d.program o = none → log (perform o w).2 = log w)
    (noted : ∀ o p a w, d.program o = some p → log (d.note o a w) = log w ++ entries ⟨o, a⟩)
    (p : Prog Op Ans α) (s : W × V) :
    log (p.run (d.answer perform outer) s).2.1 =
      log s.1 ++ (d.asked perform outer p s).flatMap entries := by
  induction p generalizing s with
  | pure value => exact (List.append_nil _).symm
  | call o next ih =>
      cases delegated : d.program o with
      | none =>
          rw [asked_other delegated, Prog.run_call, answer_other delegated, ih, other _ _ delegated]
      | some p =>
          rw [asked_delegated delegated, Prog.run_call, answer_delegated delegated, ih,
            noted _ _ _ _ delegated, List.flatMap_cons, List.append_assoc]

/-- Only calls that the program can make are asked. -/
theorem mem_asked {P : Op → Prop} {p : Prog Op Ans α}
    (all : Prog.All (fun o => d.program o ≠ none → P o) p) (s : W × V) :
    ∀ a ∈ d.asked perform outer p s, P a.1 := by
  induction p generalizing s with
  | pure value => exact fun a member => absurd member List.not_mem_nil
  | call o next ih =>
      intro a member
      cases delegated : d.program o with
      | none =>
          rw [asked_other delegated] at member
          exact ih _ (all.2 _) _ a member
      | some p =>
          rw [asked_delegated delegated] at member
          rcases List.mem_cons.mp member with rfl | later
          · exact all.1 (by rw [delegated]; exact nofun)
          · exact ih _ (all.2 _) _ a later

/-- When one program answers every call, the answers are those of running it again and
again. -/
theorem Answers.repeated {v v' : V} {made : List (Sigma Ans)} (answers : d.Answers outer v made v')
    {p : Prog Op' Ans' (Ans o)} (only : d.program o = some p) (same : ∀ a ∈ made, a.1 = o) :
    v' = (fun v => (p.run outer v).2)^[made.length] v ∧
      made = (List.range made.length).map fun i =>
        ⟨o, (p.run outer ((fun v => (p.run outer v).2)^[i] v)).1⟩ := by
  induction answers with
  | nil => exact ⟨rfl, rfl⟩
  | @cons v v' o' p' later delegated rest ih =>
      obtain rfl : o' = o := same _ List.mem_cons_self
      obtain rfl : p' = p := Option.some.inj (delegated.symm.trans only)
      obtain ⟨final, answered⟩ := ih fun a member => same a (List.mem_cons_of_mem _ member)
      refine ⟨final, ?_⟩
      rw [List.length_cons, List.range_succ_eq_map, List.map_cons, List.map_map]
      exact congrArg (List.cons _) answered

end Delegate

end Effect
