import TaskFlow.Effect.Prog
import TaskFlow.Effect.Trace

/-!
# Interleavings of programs

A pool is a shared world and a family of slots, each idle or in the middle of a
call: the request it serves and the program still to run.  `System.Step`
interleaves the slots one call at a time: an idle slot may start a request that
the system admits, a running slot makes its next call, a slot ends (its program
is over, or its process is gone), and the surroundings may change the world.

* `System.Step.thread_invariant`: what holds of every program at its start and
  survives every answer holds of every slot of every reachable pool.
* `System.serve`: an idle slot may serve a request alone, as `Prog.run` executes it.
* `System.play` computes the run of a list of moves (`System.play_trace`).
-/

namespace Effect

/-- A slot in the middle of a call. -/
structure Thread (Op : Type) (Ans : Op → Type) (C β : Type) : Type where
  request : C
  rest : Prog Op Ans β

/-- A shared world and its slots. -/
structure Pool (Op : Type) (Ans : Op → Type) (W ι C β : Type) : Type where
  world : W
  threads : ι → Option (Thread Op Ans C β)

/-- What a step did. -/
inductive Label (Op ι C : Type) : Type
  | start (i : ι) (request : C)
  | act (i : ι) (op : Op)
  | stop (i : ι)
  | env

/-- A choice among the steps of a pool. -/
inductive Move (W ι C : Type) : Type
  | start (i : ι) (request : C)
  | act (i : ι)
  | stop (i : ι)
  | env (change : W → W)

/-- What slots run, which requests they may start, and what the surroundings do. -/
structure System (Op : Type) (Ans : Op → Type) (W ι C β : Type) : Type where
  perform : (o : Op) → W → Ans o × W
  body : ι → C → Prog Op Ans β
  Admits : Pool Op Ans W ι C β → ι → C → Prop
  Env : W → W → Prop

variable {Op : Type} {Ans : Op → Type} {W ι C β : Type} [DecidableEq ι]

namespace Pool

/-- Replace one slot. -/
def put (s : Pool Op Ans W ι C β) (i : ι) (thread : Option (Thread Op Ans C β)) :
    Pool Op Ans W ι C β :=
  { s with threads := Function.update s.threads i thread }

/-- Slot `i` makes the call `op`. -/
def act (s : Pool Op Ans W ι C β) (perform : (o : Op) → W → Ans o × W) (i : ι) (request : C)
    (op : Op) (next : Ans op → Prog Op Ans β) : Pool Op Ans W ι C β where
  world := (perform op s.world).2
  threads := Function.update s.threads i (some ⟨request, next (perform op s.world).1⟩)

variable {s : Pool Op Ans W ι C β} {i j : ι}

theorem put_self (thread : Option (Thread Op Ans C β)) : (s.put i thread).threads i = thread :=
  Function.update_self ..

theorem put_ne (thread : Option (Thread Op Ans C β)) (ne : j ≠ i) :
    (s.put i thread).threads j = s.threads j :=
  Function.update_of_ne ne ..

variable {perform : (o : Op) → W → Ans o × W} {request : C} {op : Op}
  {next : Ans op → Prog Op Ans β}

theorem act_self :
    (s.act perform i request op next).threads i =
      some ⟨request, next (perform op s.world).1⟩ :=
  Function.update_self ..

theorem act_ne (ne : j ≠ i) :
    (s.act perform i request op next).threads j = s.threads j :=
  Function.update_of_ne ne ..

omit [DecidableEq ι] in
theorem ne_some_of_idle (idle : ∀ i, s.threads i = none) {thread : Thread Op Ans C β} :
    s.threads i ≠ some thread := by
  rw [idle i]
  exact nofun

end Pool

namespace System

/-- One step of the pool. -/
inductive Step (sys : System Op Ans W ι C β) :
    Pool Op Ans W ι C β → Label Op ι C → Pool Op Ans W ι C β → Prop
  | start {s : Pool Op Ans W ι C β} {i : ι} {request : C} :
    s.threads i = none → sys.Admits s i request →
    Step sys s (.start i request) (s.put i (some ⟨request, sys.body i request⟩))
  | act {s : Pool Op Ans W ι C β} {i : ι} {request : C} {op : Op}
      {next : Ans op → Prog Op Ans β} :
    s.threads i = some ⟨request, .call op next⟩ →
    Step sys s (.act i op) (s.act sys.perform i request op next)
  | stop {s : Pool Op Ans W ι C β} {i : ι} {thread : Thread Op Ans C β} :
    s.threads i = some thread → Step sys s (.stop i) (s.put i none)
  | env {s : Pool Op Ans W ι C β} {w : W} :
    sys.Env s.world w → Step sys s .env { s with world := w }

variable {sys : System Op Ans W ι C β} {s t : Pool Op Ans W ι C β}

/-- Where a slot that is running after a step comes from: the step left it alone,
started it, or was its next call. -/
theorem Step.threads_cases {l : Label Op ι C} (step : sys.Step s l t) {j : ι}
    {thread : Thread Op Ans C β} (running : t.threads j = some thread) :
    (s.threads j = some thread ∧ ∀ op, l ≠ .act j op) ∨
    (∃ request, l = .start j request ∧ s.threads j = none ∧ sys.Admits s j request ∧
      thread = ⟨request, sys.body j request⟩) ∨
    (∃ op next, l = .act j op ∧ s.threads j = some ⟨thread.request, .call op next⟩ ∧
      thread.rest = next (sys.perform op s.world).1 ∧ t.world = (sys.perform op s.world).2) := by
  cases step with
  | @start i request idle admitted =>
      by_cases same : j = i
      · subst same
        rw [Pool.put_self] at running
        cases running
        exact .inr (.inl ⟨request, rfl, idle, admitted, rfl⟩)
      · rw [Pool.put_ne _ same] at running
        exact .inl ⟨running, fun _ bad => nomatch bad⟩
  | @act i request op next here =>
      by_cases same : j = i
      · subst same
        rw [Pool.act_self] at running
        cases running
        exact .inr (.inr ⟨op, next, rfl, here, rfl, rfl⟩)
      · rw [Pool.act_ne same] at running
        refine .inl ⟨running, fun op' eq => same ?_⟩
        cases eq
        rfl
  | @stop i gone here =>
      by_cases same : j = i
      · subst same
        rw [Pool.put_self] at running
        cases running
      · rw [Pool.put_ne _ same] at running
        exact .inl ⟨running, fun _ bad => nomatch bad⟩
  | env _ => exact .inl ⟨running, fun _ bad => nomatch bad⟩

/-- What a step does to the world: nothing, one call of a slot, or a move of the
surroundings. -/
theorem Step.world_cases {l : Label Op ι C} (step : sys.Step s l t) :
    ((∀ i op, l ≠ .act i op) ∧ t.world = s.world) ∨
    (∃ i request op next, l = .act i op ∧ s.threads i = some ⟨request, .call op next⟩ ∧
      t.world = (sys.perform op s.world).2) ∨
    (l = .env ∧ sys.Env s.world t.world) := by
  cases step with
  | start _ _ => exact .inl ⟨fun _ _ bad => (nomatch bad), rfl⟩
  | act here => exact .inr (.inl ⟨_, _, _, _, rfl, here, rfl⟩)
  | stop _ => exact .inl ⟨fun _ _ bad => (nomatch bad), rfl⟩
  | env moved => exact .inr (.inr ⟨rfl, moved⟩)

/-- A property of the slots that every start has and every answer keeps is an
invariant of a step. -/
theorem Step.thread_invariant {T : ι → C → Prog Op Ans β → Prop}
    (init : ∀ i request, T i request (sys.body i request))
    (answer : ∀ i request op next, T i request (.call op next) →
      T i request (next (sys.perform op s.world).1))
    {l : Label Op ι C} (step : sys.Step s l t)
    (all : ∀ i thread, s.threads i = some thread → T i thread.request thread.rest) :
    ∀ i thread, t.threads i = some thread → T i thread.request thread.rest := by
  intro j thread running
  rcases step.threads_cases running with ⟨before, _⟩ | ⟨request, _, _, _, rfl⟩ |
    ⟨op, next, _, before, rest, _⟩
  · exact all j thread before
  · exact init j request
  · rw [rest]
    exact answer j thread.request op next (all j _ before)

/-- A property of the world that every call and the surroundings keep is an
invariant of a step. -/
theorem Step.world_invariant {I : W → Prop}
    (call : ∀ op w, I w → I (sys.perform op w).2)
    (env : ∀ w w', sys.Env w w' → I w → I w')
    {l : Label Op ι C} (step : sys.Step s l t) (holds : I s.world) : I t.world := by
  rcases step.world_cases with ⟨_, same⟩ | ⟨_, _, op, _, _, _, after⟩ | ⟨_, moved⟩
  · rwa [same]
  · rw [after]
    exact call op s.world holds
  · exact env _ _ moved holds

/-! ## Serving a request alone -/

/-- A slot may run its program to the end while all others rest. -/
theorem solo (sys : System Op Ans W ι C β) {i : ι} {request : C} (p : Prog Op Ans β)
    (here : s.threads i = some ⟨request, p⟩) :
    ∃ h t, Trace sys.Step s h t ∧ t.world = (Prog.run sys.perform p s.world).2 ∧
      t.threads i = some ⟨request, .pure (Prog.run sys.perform p s.world).1⟩ ∧
      (∀ j, j ≠ i → t.threads j = s.threads j) ∧ (∀ e ∈ h, ∃ op, e.label = .act i op) ∧
      ∀ op ∈ p.calls sys.perform s.world, ∃ e ∈ h, e.label = .act i op := by
  induction p generalizing s with
  | pure value =>
      exact ⟨[], s, .nil, rfl, here, fun _ _ => rfl, fun _ member => (nomatch member),
        fun _ member => nomatch member⟩
  | call o next ih =>
      have step : sys.Step s (.act i o) (s.act sys.perform i request o next) := .act here
      obtain ⟨h, t, run, world, ended, others, acts, made⟩ := ih _ Pool.act_self
      refine ⟨_, t, (Trace.single step).trans run, world, ended, fun j ne => ?_,
        fun e member => ?_, fun op member => ?_⟩
      · rw [others j ne, Pool.act_ne ne]
      · rcases List.mem_cons.mp member with rfl | later
        · exact ⟨o, rfl⟩
        · exact acts e later
      · rcases List.mem_cons.mp member with rfl | later
        · exact ⟨_, List.mem_cons_self, rfl⟩
        · obtain ⟨e, listed, label⟩ := made op later
          exact ⟨e, List.mem_cons_of_mem _ listed, label⟩

/-- An idle slot that serves an admitted request alone starts, makes its calls and stops with
its result. -/
theorem serve_returns (sys : System Op Ans W ι C β) (i : ι) (request : C)
    (idle : s.threads i = none) (admitted : sys.Admits s i request) :
    ∃ first acts last t, Trace sys.Step s (first :: (acts ++ [last])) t ∧
      t.world = (Prog.run sys.perform (sys.body i request) s.world).2 ∧ t.threads = s.threads ∧
      first.label = .start i request ∧ (∀ e ∈ acts, ∃ op, e.label = .act i op) ∧
      last.label = .stop i ∧ last.pre.threads i =
        some ⟨request, .pure (Prog.run sys.perform (sys.body i request) s.world).1⟩ ∧
      ∀ op ∈ (sys.body i request).calls sys.perform s.world, ∃ e ∈ acts, e.label = .act i op := by
  have start : sys.Step s (.start i request) _ := .start idle admitted
  obtain ⟨h, t, run, world, ended, others, acts, made⟩ :=
    sys.solo (sys.body i request) (Pool.put_self (s := s) (some ⟨request, _⟩))
  have stop : sys.Step t (.stop i) (t.put i none) := .stop ended
  refine ⟨⟨s, .start i request, _⟩, h, ⟨t, .stop i, t.put i none⟩, t.put i none,
    (Trace.single start).trans (run.trans (.single stop)), world, ?_, rfl, acts, rfl, ended, made⟩
  funext j
  by_cases same : j = i
  · rw [same, Pool.put_self, idle]
  · rw [Pool.put_ne _ same, others j same, Pool.put_ne _ same]

/-- An idle slot may serve an admitted request alone. -/
theorem serve (sys : System Op Ans W ι C β) (i : ι) (request : C) (idle : s.threads i = none)
    (admitted : sys.Admits s i request) :
    ∃ first h t, Trace sys.Step s (first :: h) t ∧
      t.world = (Prog.run sys.perform (sys.body i request) s.world).2 ∧
      t.threads = s.threads ∧ first.label = .start i request ∧
      (∀ e ∈ h, e.label = .stop i ∨ ∃ op, e.label = .act i op) ∧
      ∀ op ∈ (sys.body i request).calls sys.perform s.world, ∃ e ∈ h, e.label = .act i op := by
  obtain ⟨first, acts, last, t, run, world, threads, start, calls, stop, _, made⟩ :=
    sys.serve_returns i request idle admitted
  refine ⟨first, acts ++ [last], t, run, world, threads, start, fun e member => ?_,
    fun op member => ?_⟩
  · rcases List.mem_append.mp member with middle | only
    · exact .inr (calls e middle)
    · rw [List.mem_singleton.mp only]
      exact .inl stop
  · obtain ⟨e, listed, label⟩ := made op member
    exact ⟨e, List.mem_append_left _ listed, label⟩

omit [DecidableEq ι] in
/-- The labels of a slot that serves a request are not moves of the surroundings. -/
theorem serve_inside {i : ι} {request : C}
    {first : Transition (Pool Op Ans W ι C β) (Label Op ι C)}
    {h : List (Transition (Pool Op Ans W ι C β) (Label Op ι C))}
    (start : first.label = .start i request)
    (serves : ∀ e ∈ h, e.label = .stop i ∨ ∃ op, e.label = .act i op) :
    ∀ e ∈ first :: h, e.label ≠ .env := by
  intro e member
  rcases List.mem_cons.mp member with rfl | later
  · rw [start]
    exact nofun
  · rcases serves e later with label | ⟨op, label⟩ <;> rw [label] <;> exact nofun

/-! ## Computing a run -/

/-- The transition a move makes, if it can be made. -/
def move (sys : System Op Ans W ι C β) (s : Pool Op Ans W ι C β) :
    Move W ι C → Option (Transition (Pool Op Ans W ι C β) (Label Op ι C))
  | .start i request =>
      match s.threads i with
      | none => some ⟨s, .start i request, s.put i (some ⟨request, sys.body i request⟩)⟩
      | some _ => none
  | .act i =>
      match s.threads i with
      | some ⟨request, .call op next⟩ =>
          some ⟨s, .act i op, s.act sys.perform i request op next⟩
      | _ => none
  | .stop i =>
      match s.threads i with
      | some _ => some ⟨s, .stop i, s.put i none⟩
      | none => none
  | .env change => some ⟨s, .env, { s with world := change s.world }⟩

/-- The transitions of a list of moves, up to the first that cannot be made. -/
def play (sys : System Op Ans W ι C β) (s : Pool Op Ans W ι C β) :
    List (Move W ι C) → List (Transition (Pool Op Ans W ι C β) (Label Op ι C))
  | [] => []
  | m :: ms =>
      match sys.move s m with
      | none => []
      | some e => e :: sys.play e.post ms

/-- The pool a list of moves leads to. -/
def final (sys : System Op Ans W ι C β) (s : Pool Op Ans W ι C β) :
    List (Move W ι C) → Pool Op Ans W ι C β
  | [] => s
  | m :: ms =>
      match sys.move s m with
      | none => s
      | some e => sys.final e.post ms

/-- The requests a run starts are admitted. -/
def Admitted (sys : System Op Ans W ι C β)
    (e : Transition (Pool Op Ans W ι C β) (Label Op ι C)) : Prop :=
  match e.label with
  | .start i request => sys.Admits e.pre i request
  | _ => True

instance (sys : System Op Ans W ι C β) [∀ s i request, Decidable (sys.Admits s i request)]
    (e : Transition (Pool Op Ans W ι C β) (Label Op ι C)) : Decidable (sys.Admitted e) :=
  match e with
  | ⟨s, .start i request, _⟩ => inferInstanceAs (Decidable (sys.Admits s i request))
  | ⟨_, .act _ _, _⟩ => .isTrue trivial
  | ⟨_, .stop _, _⟩ => .isTrue trivial
  | ⟨_, .env, _⟩ => .isTrue trivial

theorem step_of_move {m : Move W ι C} {e : Transition (Pool Op Ans W ι C β) (Label Op ι C)}
    (made : sys.move s m = some e) (admitted : sys.Admitted e)
    (env : ∀ change, m = .env change → ∀ w, sys.Env w (change w)) :
    e.pre = s ∧ sys.Step s e.label e.post := by
  cases m with
  | start i request =>
      simp only [move] at made
      split at made
      · rename_i idle
        cases made
        exact ⟨rfl, .start idle admitted⟩
      · cases made
  | act i =>
      simp only [move] at made
      split at made
      · rename_i here
        cases made
        exact ⟨rfl, .act here⟩
      · cases made
  | stop i =>
      simp only [move] at made
      split at made
      · rename_i here
        cases made
        exact ⟨rfl, .stop here⟩
      · cases made
  | env change =>
      cases made
      exact ⟨rfl, .env (env change rfl s.world)⟩

/-- More moves continue the run of the first ones. -/
theorem play_append (sys : System Op Ans W ι C β) (s : Pool Op Ans W ι C β)
    (ms ms' : List (Move W ι C)) : sys.play s ms <+: sys.play s (ms ++ ms') := by
  induction ms generalizing s with
  | nil => exact List.nil_prefix
  | cons m ms ih =>
      rw [List.cons_append]
      unfold play
      split
      · exact List.nil_prefix
      · exact List.cons_prefix_cons.mpr ⟨rfl, ih _⟩

/-- Moves of the slots are no moves of the surroundings. -/
theorem play_inside (sys : System Op Ans W ι C β) {ms : List (Move W ι C)}
    (slots : ∀ change, .env change ∉ ms) : ∀ e ∈ sys.play s ms, e.label ≠ .env := by
  induction ms generalizing s with
  | nil => exact fun _ member => nomatch member
  | cons m ms ih =>
      intro e member
      unfold play at member
      split at member
      · cases member
      · rename_i first made
        rcases List.mem_cons.mp member with rfl | later
        · cases m with
          | env change => exact absurd List.mem_cons_self (slots change)
          | _ =>
              simp only [move] at made
              split at made <;> cases made
              exact nofun
        · exact ih (fun change member => slots change (List.mem_cons_of_mem _ member)) e later

/-- The transitions of a list of moves are a run. -/
theorem play_trace {ms : List (Move W ι C)} (admitted : ∀ e ∈ sys.play s ms, sys.Admitted e)
    (env : ∀ change, .env change ∈ ms → ∀ w, sys.Env w (change w)) :
    Trace sys.Step s (sys.play s ms) (sys.final s ms) := by
  induction ms generalizing s with
  | nil => exact .nil
  | cons m ms ih =>
      unfold play at admitted ⊢
      unfold final
      cases made : sys.move s m with
      | none => exact .nil
      | some e =>
          rw [made] at admitted
          obtain ⟨rfl, step⟩ := step_of_move made (admitted e List.mem_cons_self)
            fun change same => env change (same ▸ List.mem_cons_self)
          have later := ih (fun e' member => admitted e' (List.mem_cons_of_mem _ member))
            fun change member => env change (List.mem_cons_of_mem _ member)
          exact (Trace.single step).trans later

end System

end Effect
