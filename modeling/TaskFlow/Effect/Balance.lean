import TaskFlow.Effect.Pool
import Mathlib.Algebra.Group.Basic
import Mathlib.Data.Finsupp.Basic
import Mathlib.Tactic.Abel

/-!
# Books over interleaved runs

Every call has a weight, and a measure of the world moves by the weight of each call,
and by a gain that depends on the world the call finds.  A program whose calls weigh
nothing in all may still be out of balance in the middle: `Prog.Owes weight n p` says
that the calls `p` has still to make weigh `n`, whatever they are answered.

* `Prog.Owes.bind`, `Prog.Owes.of_silent` compose it.
* `System.Orderly` are the steps of a pool in which a slot stops only at the end of
  its program; a whole call served alone is a run of them (`System.Orderly.serve`).
* `Books.balance`: between two pools at rest the measure has moved by the gains of the
  run alone, however the calls were interleaved.
-/

namespace Effect

variable {Op : Type} {Ans : Op → Type} {W ι C β G : Type}

namespace Prog

variable {α γ : Type} [AddCommGroup G] {weight : Op → G}

/-- The calls that `p` makes weigh `n` in all, under any answers. -/
def Owes (weight : Op → G) : G → Prog Op Ans α → Prop
  | n, .pure _ => n = 0
  | n, .call o next => ∀ answer, Owes weight (n - weight o) (next answer)

theorem Owes.of_silent {p : Prog Op Ans α} (silent : All (fun o => weight o = 0) p) :
    Owes weight 0 p := by
  induction p with
  | pure value => rfl
  | call o next ih =>
      intro answer
      rw [silent.1, sub_zero]
      exact ih answer (silent.2 answer)

theorem Owes.bind {p : Prog Op Ans α} {f : α → Prog Op Ans γ} {m n : G} (first : Owes weight m p)
    (rest : ∀ value, Owes weight n (f value)) : Owes weight (m + n) (p >>= f) := by
  induction p generalizing m with
  | pure value =>
      rw [show m = 0 from first, zero_add]
      exact rest value
  | call o next ih =>
      intro answer
      rw [add_sub_right_comm]
      exact ih answer (first answer)

/-- A first part without weight. -/
theorem Owes.bind_silent {p : Prog Op Ans α} {f : α → Prog Op Ans γ} {n : G}
    (first : All (fun o => weight o = 0) p) (rest : ∀ value, Owes weight n (f value)) :
    Owes weight n (p >>= f) := by
  have both := (of_silent first).bind rest
  rwa [zero_add] at both

end Prog

variable [DecidableEq ι]

/-- A step in which a slot stops only when its program is over. -/
def System.Orderly (sys : System Op Ans W ι C β) (s : Pool Op Ans W ι C β) (l : Label Op ι C)
    (t : Pool Op Ans W ι C β) : Prop :=
  sys.Step s l t ∧ ∀ i, l = .stop i → ∃ request value, s.threads i = some ⟨request, .pure value⟩

/-- An idle slot may serve an admitted request alone and to its end. -/
theorem System.Orderly.serve {sys : System Op Ans W ι C β} {s : Pool Op Ans W ι C β} (i : ι)
    (request : C) (idle : s.threads i = none) (admitted : sys.Admits s i request) :
    ∃ h, Trace sys.Orderly s h
      ⟨(Prog.run sys.perform (sys.body i request) s.world).2, s.threads⟩ := by
  obtain ⟨first, acts, last, t, run, world, threads, start, calls, stop, ended, _⟩ :=
    sys.serve_returns i request idle admitted
  have orderly : Trace sys.Orderly s (first :: (acts ++ [last])) t :=
    run.mono fun e member taken => by
      refine ⟨taken, fun j stops => ?_⟩
      rcases List.mem_cons.mp member with rfl | later
      · cases start.symm.trans stops
      · rcases List.mem_append.mp later with middle | only
        · obtain ⟨op, acted⟩ := calls e middle
          cases acted.symm.trans stops
        · obtain rfl := List.mem_singleton.mp only
          cases stop.symm.trans stops
          exact ⟨request, _, ended⟩
  have final : t = ⟨(Prog.run sys.perform (sys.body i request) s.world).2, s.threads⟩ :=
    congrArg₂ Pool.mk world threads
  exact ⟨_, final ▸ orderly⟩

/-- No slot is in the middle of a call. -/
def Pool.AtRest (s : Pool Op Ans W ι C β) : Prop := ∀ i, s.threads i = none

/-- What a step gains: the gain of its call, if it makes one. -/
def gained [Zero G] (gain : Op → W → G)
    (e : Transition (Pool Op Ans W ι C β) (Label Op ι C)) : G :=
  match e.label with
  | .act _ op => gain op e.pre.world
  | _ => 0

variable [AddCommGroup G]

/-- A measure of the world that every call moves by its weight and its gain, and that
every program moves by its gains alone. -/
structure Books (sys : System Op Ans W ι C β) (weight : Op → G) (gain : Op → W → G)
    (measure : W → G) : Prop where
  body : ∀ s i request, sys.Admits s i request → (sys.body i request).Owes weight 0
  call : ∀ op w, measure (sys.perform op w).2 = measure w + weight op + gain op w
  env : ∀ w w', sys.Env w w' → measure w' = measure w

/-- What each slot still owes. -/
structure Owing (weight : Op → G) (debt : ι →₀ G) (s : Pool Op Ans W ι C β) : Prop where
  idle : ∀ i, s.threads i = none → debt i = 0
  busy : ∀ i thread, s.threads i = some thread → thread.rest.Owes weight (debt i)

variable {sys : System Op Ans W ι C β} {weight : Op → G} {gain : Op → W → G} {measure : W → G}
  {s t : Pool Op Ans W ι C β} {debt : ι →₀ G} {l : Label Op ι C}
  {h : List (Transition (Pool Op Ans W ι C β) (Label Op ι C))}

/-- The debts of all slots. -/
noncomputable def owed (debt : ι →₀ G) : G := debt.sum fun _ n => n

omit [DecidableEq ι] in
theorem owed_update (debt : ι →₀ G) (i : ι) (n : G) :
    owed (debt.update i n) + debt i = owed debt + n :=
  Finsupp.sum_update_add debt i n _ (fun _ => rfl) fun _ _ _ => rfl

omit [DecidableEq ι] in
theorem Owing.atRest (owing : Owing weight debt s) (rest : s.AtRest) : owed debt = 0 := by
  have zero : debt = 0 := Finsupp.ext fun i => owing.idle i (rest i)
  rw [zero]
  exact Finsupp.sum_zero_index

namespace Owing

/-- Replace the debt of a slot together with the slot. -/
theorem update (owing : Owing weight debt s) {i : ι} {n : G}
    {threads : ι → Option (Thread Op Ans C β)} (others : ∀ j, j ≠ i → threads j = s.threads j)
    (idle : threads i = none → n = 0)
    (busy : ∀ thread, threads i = some thread → thread.rest.Owes weight n) (w : W) :
    Owing weight (debt.update i n) ⟨w, threads⟩ where
  idle := by
    intro j free
    by_cases same : j = i
    · subst same
      rw [Finsupp.coe_update, Function.update_self]
      exact idle free
    · rw [Finsupp.coe_update, Function.update_of_ne same]
      exact owing.idle j ((others j same).symm.trans free)
  busy := by
    intro j thread running
    by_cases same : j = i
    · subst same
      rw [Finsupp.coe_update, Function.update_self]
      exact busy thread running
    · rw [Finsupp.coe_update, Function.update_of_ne same]
      exact owing.busy j thread ((others j same).symm.trans running)

/-- Replace a slot that owes nothing by one that owes nothing. -/
theorem replace (owing : Owing weight debt s) {i : ι} (zero : debt i = 0)
    {threads : ι → Option (Thread Op Ans C β)} (others : ∀ j, j ≠ i → threads j = s.threads j)
    (busy : ∀ thread, threads i = some thread → thread.rest.Owes weight 0) (w : W) :
    Owing weight debt ⟨w, threads⟩ := by
  have same : debt.update i 0 = debt := by
    rw [← zero]
    exact Finsupp.update_self debt i
  have kept := owing.update others (fun _ => rfl) busy w
  rwa [same] at kept

/-- An orderly step moves the measure together with what is owed by its gain. -/
theorem step (books : Books sys weight gain measure) (owing : Owing weight debt s)
    (taken : sys.Orderly s l t) :
    ∃ debt', Owing weight debt' t ∧
      measure t.world + owed debt' = measure s.world + owed debt + gained gain ⟨s, l, t⟩ := by
  obtain ⟨moved, finished⟩ := taken
  cases moved with
  | @start i request free admitted =>
      refine ⟨debt, owing.replace (owing.idle i free) (fun j ne => Pool.put_ne _ ne) ?_ _,
        (add_zero _).symm⟩
      intro thread running
      cases (Pool.put_self _).symm.trans running
      exact books.body s i request admitted
  | @act i request op next here =>
      have left := owing.busy i _ here (sys.perform op s.world).1
      refine ⟨debt.update i (debt i - weight op), owing.update (fun j ne => Pool.act_ne ne)
        (fun free => ?_) (fun thread running => ?_) _, ?_⟩
      · cases Pool.act_self.symm.trans free
      · cases Pool.act_self.symm.trans running
        exact left
      · have less : owed (debt.update i (debt i - weight op)) = owed debt - weight op := by
          rw [← add_left_inj (debt i), owed_update]
          abel
        calc measure (sys.perform op s.world).2 + owed (debt.update i (debt i - weight op))
            = measure s.world + weight op + gain op s.world + (owed debt - weight op) := by
              rw [books.call, less]
          _ = measure s.world + owed debt + gain op s.world := by abel
  | @stop i thread here =>
      obtain ⟨request, value, ended⟩ := finished i rfl
      have settled : debt i = 0 := owing.busy i _ ended
      refine ⟨debt, owing.replace settled (fun j ne => Pool.put_ne _ ne) ?_ _,
        (add_zero _).symm⟩
      intro thread running
      cases (Pool.put_self _).symm.trans running
  | env changed =>
      refine ⟨debt, ⟨owing.idle, owing.busy⟩, ?_⟩
      rw [books.env _ _ changed]
      exact (add_zero _).symm

end Owing

/-- Between two pools at rest the measure moves by the gains of the run. -/
theorem Books.balance (books : Books sys weight gain measure)
    (run : Trace sys.Orderly s h t) (start : s.AtRest) (rest : t.AtRest) :
    measure t.world = measure s.world + (h.map (gained gain)).sum := by
  have account : ∃ debt, Owing weight debt t ∧
      measure t.world + owed debt = measure s.world + (h.map (gained gain)).sum := by
    refine run.history (I := fun h t => ∃ debt, Owing weight debt t ∧
      measure t.world + owed debt = measure s.world + (h.map (gained gain)).sum) ?_ ?_
    · refine ⟨0, ⟨fun _ _ => rfl, fun i thread running => ?_⟩, ?_⟩
      · rw [start i] at running
        cases running
      · rw [owed, Finsupp.sum_zero_index]
        rfl
    · rintro x e y - taken ⟨debt, owing, before⟩
      obtain ⟨debt', owing', after⟩ := owing.step books taken
      refine ⟨debt', owing', after.trans ?_⟩
      rw [before, List.map_append, List.sum_append, add_assoc]
      simp
  obtain ⟨debt, owing, total⟩ := account
  rwa [owing.atRest rest, add_zero] at total

end Effect
