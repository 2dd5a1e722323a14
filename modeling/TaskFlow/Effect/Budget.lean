import TaskFlow.Effect.Pool
import Mathlib.Data.Finsupp.Basic
import Mathlib.Data.List.Count

/-!
# Budgets over interleaved runs

Every call has a cost, and an answer may bring a gain.  `Prog.Within cost gain n p` says
that the calls of `p` cost at most `n` and what it gains on the way, whatever they are
answered.  A measure of the world that a call raises by no more than its cost is then
bounded by the budgets of the programs that were started and the gains they made, however
their calls were interleaved and whichever of them stopped half-way (`Budget.bound`).

Starts that work on one of `k` things, each of them started with at most `d` times, are
at most `k * d` (`countP_le_of_covers`).
-/

namespace Effect

variable {Op : Type} {Ans : Op → Type} {W ι C β : Type}

namespace Prog

variable {α γ : Type} {cost : Op → Nat} {gain : (o : Op) → Ans o → Nat} {m n : Nat}
  {p : Prog Op Ans α}

/-- The calls that `p` makes cost at most `n` and what is gained before, under any
answers. -/
def Within (cost : Op → Nat) (gain : (o : Op) → Ans o → Nat) : Nat → Prog Op Ans α → Prop
  | _, .pure _ => True
  | n, .call o next =>
      ∃ m, cost o + m ≤ n ∧ ∀ answer, Within cost gain (m + gain o answer) (next answer)

theorem Within.mono (within : Within cost gain m p) (le : m ≤ n) : Within cost gain n p := by
  cases p with
  | pure value => trivial
  | call o next =>
      obtain ⟨left, fits, later⟩ := within
      exact ⟨left, fits.trans le, later⟩

theorem Within.of_free (free : All (fun o => cost o = 0) p) : Within cost gain n p := by
  induction p generalizing n with
  | pure value => trivial
  | call o next ih =>
      refine ⟨n, ?_, fun answer => ih answer (free.2 answer)⟩
      rw [free.1, Nat.zero_add]

theorem Within.bind {f : α → Prog Op Ans γ} (first : Within cost gain m p)
    (rest : ∀ value, Within cost gain n (f value)) : Within cost gain (m + n) (p >>= f) := by
  induction p generalizing m with
  | pure value => exact (rest value).mono (Nat.le_add_left n m)
  | call o next ih =>
      obtain ⟨left, fits, later⟩ := first
      refine ⟨left + n, by omega, fun answer => ?_⟩
      exact (ih answer (later answer)).mono (by omega)

/-- A first call that costs nothing. -/
theorem Within.free {o : Op} {next : Ans o → Prog Op Ans α} (costless : cost o = 0)
    (later : ∀ answer, Within cost gain n (next answer)) : Within cost gain n (.call o next) :=
  ⟨n, by rw [costless, Nat.zero_add], fun answer => (later answer).mono (Nat.le_add_right ..)⟩

/-- A first part that costs nothing. -/
theorem Within.bind_free {f : α → Prog Op Ans γ} (first : All (fun o => cost o = 0) p)
    (rest : ∀ value, Within cost gain n (f value)) : Within cost gain n (p >>= f) := by
  have both := (Within.of_free (n := 0) first).bind rest
  rwa [Nat.zero_add] at both

end Prog

/-- No answer brings a gain. -/
def noGain : (o : Op) → Ans o → Nat := fun _ _ => 0

/-! ## Runs -/

/-- What a step grants: the budget of the program it starts, if it starts one. -/
def granted (grant : C → Nat) (e : Transition (Pool Op Ans W ι C β) (Label Op ι C)) : Nat :=
  match e.label with
  | .start _ request => grant request
  | _ => 0

/-- Whether a step starts a program with a request that passes the test. -/
def starts (P : C → Bool) (e : Transition (Pool Op Ans W ι C β) (Label Op ι C)) : Bool :=
  match e.label with
  | .start _ request => P request
  | _ => false

/-- What a step earns: what the answer of its call brings, if it makes one. -/
def earned (sys : System Op Ans W ι C β) (gain : (o : Op) → Ans o → Nat)
    (e : Transition (Pool Op Ans W ι C β) (Label Op ι C)) : Nat :=
  match e.label with
  | .act _ op => gain op (sys.perform op e.pre.world).1
  | _ => 0

/-- Every program keeps to the budget of its request, and the measure of the world grows
by no more than what the calls cost. -/
structure Budget (sys : System Op Ans W ι C β) (cost : Op → Nat)
    (gain : (o : Op) → Ans o → Nat) (grant : C → Nat) (measure : W → Nat) : Prop where
  body : ∀ i request, (sys.body i request).Within cost gain (grant request)
  call : ∀ op w, measure (sys.perform op w).2 ≤ measure w + cost op
  env : ∀ w w', sys.Env w w' → measure w' ≤ measure w

variable [DecidableEq ι] {sys : System Op Ans W ι C β} {cost : Op → Nat}
  {gain : (o : Op) → Ans o → Nat} {grant : C → Nat} {measure : W → Nat}
  {s t : Pool Op Ans W ι C β} {left : ι →₀ Nat} {l : Label Op ι C}
  {h : List (Transition (Pool Op Ans W ι C β) (Label Op ι C))}

/-- What is left of the budgets of all slots. -/
noncomputable def remaining (left : ι →₀ Nat) : Nat := left.sum fun _ n => n

omit [DecidableEq ι] in
theorem remaining_update (left : ι →₀ Nat) (i : ι) (n : Nat) :
    remaining (left.update i n) + left i = remaining left + n :=
  Finsupp.sum_update_add left i n _ (fun _ => rfl) fun _ _ _ => rfl

/-- Every slot keeps to what is left of its budget. -/
def Thrifty (cost : Op → Nat) (gain : (o : Op) → Ans o → Nat) (left : ι →₀ Nat)
    (s : Pool Op Ans W ι C β) : Prop :=
  ∀ i thread, s.threads i = some thread → thread.rest.Within cost gain (left i)

/-- Replace what is left of a slot together with the slot. -/
theorem Thrifty.update (thrifty : Thrifty cost gain left s) {i : ι} {n : Nat}
    {threads : ι → Option (Thread Op Ans C β)} (others : ∀ j, j ≠ i → threads j = s.threads j)
    (own : ∀ thread, threads i = some thread → thread.rest.Within cost gain n) (w : W) :
    Thrifty cost gain (left.update i n) ⟨w, threads⟩ := by
  intro j thread running
  by_cases same : j = i
  · subst same
    rw [Finsupp.coe_update, Function.update_self]
    exact own thread running
  · rw [Finsupp.coe_update, Function.update_of_ne same]
    exact thrifty j thread ((others j same).symm.trans running)

/-- A step moves the measure together with what is left by no more than it grants. -/
theorem Budget.step (budget : Budget sys cost gain grant measure)
    (thrifty : Thrifty cost gain left s) (taken : sys.Step s l t) :
    ∃ left', Thrifty cost gain left' t ∧
      measure t.world + remaining left' ≤
        measure s.world + remaining left + granted grant ⟨s, l, t⟩ +
          earned sys gain ⟨s, l, t⟩ := by
  cases taken with
  | @start i request free admitted =>
      refine ⟨left.update i (grant request), thrifty.update (fun j ne => Pool.put_ne _ ne) ?_ _, ?_⟩
      · intro thread running
        cases (Pool.put_self _).symm.trans running
        exact budget.body i request
      · have total := remaining_update left i (grant request)
        dsimp only [Pool.put, granted, earned]
        omega
  | @act i request op next here =>
      obtain ⟨m, fits, later⟩ := thrifty i _ here
      refine ⟨left.update i (m + gain op (sys.perform op s.world).1),
        thrifty.update (fun j ne => Pool.act_ne ne) ?_ _, ?_⟩
      · intro thread running
        cases Pool.act_self.symm.trans running
        exact later _
      · have total := remaining_update left i (m + gain op (sys.perform op s.world).1)
        have grows := budget.call op s.world
        dsimp only [Pool.act, granted, earned]
        omega
  | @stop i thread here =>
      refine ⟨left, fun j thread running => ?_, Nat.le_refl _⟩
      by_cases same : j = i
      · subst same
        cases (Pool.put_self _).symm.trans running
      · exact thrifty j thread ((Pool.put_ne _ same).symm.trans running)
  | env moved =>
      refine ⟨left, thrifty, ?_⟩
      have kept := budget.env _ _ moved
      dsimp only [granted, earned]
      omega

/-- The measure grows by no more than the budgets of the programs that were started and
their gains. -/
theorem Budget.bound (budget : Budget sys cost gain grant measure) (idle : ∀ i, s.threads i = none)
    (run : Trace sys.Step s h t) :
    measure t.world ≤
      measure s.world + (h.map (granted grant)).sum + (h.map (earned sys gain)).sum := by
  have account : ∃ left, Thrifty cost gain left t ∧ measure t.world + remaining left ≤
      measure s.world + (h.map (granted grant)).sum + (h.map (earned sys gain)).sum := by
    refine run.history (I := fun h t => ∃ left, Thrifty cost gain left t ∧
      measure t.world + remaining left ≤
        measure s.world + (h.map (granted grant)).sum + (h.map (earned sys gain)).sum) ?_ ?_
    · refine ⟨0, fun i thread running => ?_, ?_⟩
      · rw [idle i] at running
        cases running
      · rw [remaining, Finsupp.sum_zero_index]
        rfl
    · intro x e y _ taken before
      obtain ⟨left, thrifty, spent⟩ := before
      obtain ⟨left', thrifty', after⟩ := budget.step thrifty taken
      change _ ≤ _ + granted grant e + earned sys gain e at after
      refine ⟨left', thrifty', ?_⟩
      simp only [List.map_append, List.sum_append, List.map_singleton, List.sum_singleton]
      omega
  obtain ⟨left, _, spent⟩ := account
  omega

/-- Without gains, by no more than the budgets. -/
theorem Budget.bound_granted (budget : Budget sys cost noGain grant measure)
    (idle : ∀ i, s.threads i = none) (run : Trace sys.Step s h t) :
    measure t.world ≤ measure s.world + (h.map (granted grant)).sum := by
  have none : (h.map (earned sys noGain)).sum = 0 := by
    refine List.sum_eq_zero fun n member => ?_
    obtain ⟨e, _, rfl⟩ := List.mem_map.mp member
    unfold earned
    split
    · rfl
    · rfl
  have bound := budget.bound idle run
  omega

/-- Without budgets to start with, by no more than the gains. -/
theorem Budget.bound_earned (budget : Budget sys cost gain (fun _ => 0) measure)
    (idle : ∀ i, s.threads i = none) (run : Trace sys.Step s h t) :
    measure t.world ≤ measure s.world + (h.map (earned sys gain)).sum := by
  have none : (h.map (granted fun _ : C => 0)).sum = 0 := by
    refine List.sum_eq_zero fun n member => ?_
    obtain ⟨e, _, rfl⟩ := List.mem_map.mp member
    unfold granted
    split
    · rfl
    · rfl
  have bound := budget.bound idle run
  omega

/-! ## Counting starts -/

section Counting

variable {α κ : Type} [DecidableEq κ]

/-- Occurrences of the elements of a list, each at most `d` times. -/
theorem length_filter_mem_le {keys : List κ} {d : Nat} (once : ∀ k, keys.count k ≤ d)
    (ks : List κ) : (keys.filter (· ∈ ks)).length ≤ ks.length * d := by
  induction ks with
  | nil => simp
  | cons k ks ih =>
      have both : (keys.filter (· ∈ k :: ks)).length ≤
          keys.count k + (keys.filter (· ∈ ks)).length := by
        clear ih once
        induction keys with
        | nil => simp
        | cons key keys ih =>
            rw [List.filter_cons, List.filter_cons, List.count_cons]
            by_cases same : key = k
            · simp [same] at ih ⊢
              split
              · simp
                omega
              · omega
            · simp [same] at ih ⊢
              split
              · simp
                omega
              · omega
      rw [List.length_cons, Nat.succ_mul]
      have here := once k
      omega

/-- Elements whose keys are among `ks`, each key occurring at most `d` times. -/
theorem countP_le_of_covers {xs : List α} {key : α → Option κ} {P : α → Bool} {ks : List κ}
    {d : Nat} (covers : ∀ x ∈ xs, P x = true → ∃ k ∈ ks, key x = some k)
    (once : ∀ k, (xs.filterMap key).count k ≤ d) : xs.countP P ≤ ks.length * d := by
  refine le_trans ?_ (length_filter_mem_le once ks)
  clear once
  induction xs with
  | nil => simp
  | cons x xs ih =>
      have later := ih fun y member => covers y (List.mem_cons_of_mem _ member)
      by_cases counted : P x = true
      · obtain ⟨k, member, found⟩ := covers x List.mem_cons_self counted
        rw [List.countP_cons_of_pos counted, List.filterMap_cons_some found,
          List.filter_cons_of_pos (by simpa using member), List.length_cons]
        omega
      · rw [List.countP_cons_of_neg counted]
        refine later.trans (List.Sublist.length_le (List.Sublist.filter _ ?_))
        exact List.Sublist.filterMap _ (List.sublist_cons_self x xs)

end Counting

section Granting

variable {Op : Type} {Ans : Op → Type} {W ι C β : Type} {grant grant' : C → Nat}
  {h : List (Transition (Pool Op Ans W ι C β) (Label Op ι C))}

/-- Grants of at most `n`, to the requests that pass the test only. -/
theorem granted_le {P : C → Bool} {n : Nat}
    (most : ∀ e ∈ h, ∀ i request, e.label = .start i request → P request = true →
      grant request ≤ n)
    (none : ∀ request, P request = false → grant request = 0) :
    (h.map (granted grant)).sum ≤ h.countP (starts P) * n := by
  induction h with
  | nil => simp
  | cons e h ih =>
      have later := ih fun e member => most e (List.mem_cons_of_mem _ member)
      have here : granted grant e ≤ if starts P e then n else 0 := by
        unfold granted starts
        split
        · rename_i i request label
          split
          · exact most e List.mem_cons_self i request label ‹_›
          · exact (none request (Bool.eq_false_iff.mpr ‹_›)).le
        · exact Nat.zero_le _
      rw [List.map_cons, List.sum_cons, List.countP_cons, Nat.add_mul]
      split at here
      · rw [if_pos ‹_›]
        omega
      · rw [if_neg ‹_›]
        omega

theorem granted_add :
    (h.map (granted fun request => grant request + grant' request)).sum =
      (h.map (granted grant)).sum + (h.map (granted grant')).sum := by
  rw [← List.sum_map_add]
  refine congrArg List.sum (List.map_congr_left fun e _ => ?_)
  unfold granted
  split
  · rfl
  · rfl

end Granting

end Effect
