import TaskFlow.Effect.Pool

/-!
# What a program does before it ends well

`Prog.Until P Q G p`: as long as no call of `p` was answered as `P` says, `p` makes no
call that satisfies `Q` and does not end with a value in `G`.  So a `Q` or a good end
shows that something was answered as `P` says before.

`System.Passed` finds that call in a run of a pool: `System.until_run` carries the
property along the calls of every slot, `System.passed_of_end` and
`System.passed_of_call` read it off at the end of a program and at a call.  `P`, `Q` and
`G` may depend on the request of the slot.
-/

namespace Effect

variable {Op : Type} {Ans : Op → Type} {W ι C α β : Type}

namespace Prog

/-- Until a call is answered as in `P`, there is no call as in `Q` and no end as in `G`. -/
def Until (P : (o : Op) → Ans o → Prop) (Q : Op → Prop) (G : α → Prop) :
    Prog Op Ans α → Prop
  | .pure value => ¬ G value
  | .call o next => ¬ Q o ∧ ∀ answer, P o answer ∨ Until P Q G (next answer)

variable {P : (o : Op) → Ans o → Prop} {Q : Op → Prop} {G : α → Prop} {G' : β → Prop}

/-- A program that ends well has passed, and one that does not goes on. -/
theorem Until.bind {p : Prog Op Ans α} {f : α → Prog Op Ans β} (first : Until P Q G p)
    (rest : ∀ value, ¬ G value → Until P Q G' (f value)) : Until P Q G' (p >>= f) := by
  induction p with
  | pure value => exact rest value first
  | call o next ih => exact ⟨first.1, fun answer => (first.2 answer).imp_right (ih answer)⟩

/-- Nothing is asked of a program none of whose calls and ends matter. -/
theorem Until.of_all {p : Prog Op Ans α} (quiet : All (fun o => ¬ Q o) p)
    (bad : ∀ value, ¬ G value) : Until P Q G p := by
  induction p with
  | pure value => exact bad value
  | call o next ih => exact ⟨quiet.1, fun answer => .inr (ih answer (quiet.2 answer))⟩

theorem Until.of_silent (quiet : ∀ o, ¬ Q o) (bad : ∀ value, ¬ G value) (p : Prog Op Ans α) :
    Until P Q G p := by
  induction p with
  | pure value => exact bad value
  | call o next ih => exact ⟨quiet o, fun answer => .inr (ih answer)⟩

end Prog

namespace System

variable [DecidableEq ι] {sys : System Op Ans W ι C β} {s t : Pool Op Ans W ι C β}
  {h x y : List (Transition (Pool Op Ans W ι C β) (Label Op ι C))}
  {e : Transition (Pool Op Ans W ι C β) (Label Op ι C)}
  {P : C → (o : Op) → Ans o → Prop} {Q : C → Op → Prop} {G : C → β → Prop}

/-- A slot with this request made a call that was answered as in `P`. -/
def Passed (sys : System Op Ans W ι C β) (P : C → (o : Op) → Ans o → Prop)
    (h : List (Transition (Pool Op Ans W ι C β) (Label Op ι C))) (request : C) : Prop :=
  ∃ e ∈ h, ∃ i op next, e.label = .act i op ∧ e.pre.threads i = some ⟨request, .call op next⟩ ∧
    P request op (sys.perform op e.pre.world).1

omit [DecidableEq ι] in
theorem Passed.mono {request : C} (passed : sys.Passed P x request) :
    sys.Passed P (x ++ y) request := by
  obtain ⟨e, member, made⟩ := passed
  exact ⟨e, List.mem_append_left _ member, made⟩

/-- The slots of a run have yet to pass, or have passed. -/
theorem until_run {w : W} (run : Trace sys.Step ⟨w, fun _ => none⟩ h t)
    (bodies : ∀ e ∈ h, ∀ i request, e.label = .start i request →
      Prog.Until (P request) (Q request) (G request) (sys.body i request)) :
    ∀ i request rest, t.threads i = some ⟨request, rest⟩ →
      Prog.Until (P request) (Q request) (G request) rest ∨ sys.Passed P h request := by
  refine run.history (I := fun x s => ∀ i request rest, s.threads i = some ⟨request, rest⟩ →
    Prog.Until (P request) (Q request) (G request) rest ∨ sys.Passed P x request)
    (fun _ _ _ => nofun) ?_
  rintro x e y rfl step before i request rest running
  have last : e ∈ x ++ [e] := List.mem_append_right _ (List.mem_singleton_self _)
  rcases step.threads_cases running with ⟨same, _⟩ | ⟨_, label, _, _, started⟩ |
    ⟨op, next, label, here, answered, _⟩
  · exact (before i request rest same).imp_right Passed.mono
  · cases started
    exact .inl (bodies e (List.mem_append_right _ List.mem_cons_self) i request label)
  · dsimp only at here answered
    subst answered
    rcases before i request _ here with still | passed
    · rcases still.2 (sys.perform op e.pre.world).1 with now | later
      · exact .inr ⟨e, last, i, op, next, label, here, now⟩
      · exact .inl later
    · exact .inr passed.mono

/-- Who ends well has passed. -/
theorem passed_of_end {w : W} {i : ι} {request : C} {value : β}
    (run : Trace sys.Step ⟨w, fun _ => none⟩ (x ++ e :: y) t)
    (bodies : ∀ e' ∈ x ++ e :: y, ∀ i request, e'.label = .start i request →
      Prog.Until (P request) (Q request) (G request) (sys.body i request))
    (here : e.pre.threads i = some ⟨request, .pure value⟩) (good : G request value) :
    sys.Passed P x request := by
  have before := until_run (Q := Q) (G := G) run.split_cons.1
    (fun e' member => bodies e' (List.mem_append_left _ member)) i request _ here
  exact before.resolve_left fun still => still good

/-- Who makes a call as in `Q` has passed. -/
theorem passed_of_call {w : W} {i : ι} {request : C} {op : Op} {next : Ans op → Prog Op Ans β}
    (run : Trace sys.Step ⟨w, fun _ => none⟩ (x ++ e :: y) t)
    (bodies : ∀ e' ∈ x ++ e :: y, ∀ i request, e'.label = .start i request →
      Prog.Until (P request) (Q request) (G request) (sys.body i request))
    (here : e.pre.threads i = some ⟨request, .call op next⟩) (made : Q request op) :
    sys.Passed P x request := by
  have before := until_run (Q := Q) (G := G) run.split_cons.1
    (fun e' member => bodies e' (List.mem_append_left _ member)) i request _ here
  exact before.resolve_left fun still => still.1 made

end System

end Effect
