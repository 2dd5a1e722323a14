import TaskFlow.ConsumerPool

/-!
# Workers against each other

A worker reads the status of a task once and runs the handler later.  With any
number of worker calls on a task, no handler call follows a terminal write in the
runs in which, at every terminal write, each other call on the task has not read the
status or is silent (`handler_never_after_terminal`).
-/

namespace TaskFlow

open Effect

variable {Raw ι : Type}

section Pool

variable [DecidableEq ι] {json : Json Raw} {s t : ConsumerPool Raw ι}
  {l : Label (Op Raw) ι (Consume Raw)}

/-- Only workers consume. -/
def WorkersOnly (_ : ConsumerPool Raw ι) (_ : ι) (request : Consume Raw) : Prop :=
  request.routes = false

/-- The call of slot `j`, if it is on this task, is before its check, or it is
silent. -/
def Harmless (json : Json Raw) (s : ConsumerPool Raw ι) (id : String) (j : ι) : Prop :=
  ∀ thread task, s.threads j = some thread → thread.request.task json = some task →
    task.id = id → thread.rest = thread.request.body json ∨ Prog.All Op.Silent thread.rest

/-- The slots of a pool of workers have the shape of a worker call. -/
structure Working (json : Json Raw) (s : ConsumerPool Raw ι) : Prop where
  calm : s.world.Calm
  shaped : Shaped json s
  workers : ∀ i thread, s.threads i = some thread → thread.request.routes = false

theorem Working.step (step : (consumers json WorkersOnly).Step s l t) (inv : Working json s) :
    Working json t where
  calm := consumers_calm step inv.calm
  shaped := inv.shaped.step step
  workers i thread running := by
    rcases step.threads_cases running with ⟨before, _⟩ | ⟨request, _, _, admitted, rfl⟩ |
      ⟨op, next, _, before, _⟩
    · exact inv.workers i thread before
    · exact admitted.2
    · have worker := inv.workers i _ before
      exact worker

/-- The status of the task is terminal and no call on it can change that or run
the handler. -/
structure Closed (json : Json Raw) (id : String) (s : ConsumerPool Raw ι) : Prop where
  terminal : s.world.terminal id = true
  harmless : ∀ j, Harmless json s id j

theorem Closed.step (step : (consumers json WorkersOnly).Step s l t) (inv : Working json s)
    {id : String} (closed : Closed json id s) : Closed json id t where
  terminal := by
    rcases terminal_step step inv.calm.up id with
      ⟨_, same⟩ | ⟨i, request, status, next, _, acting, written⟩
    · exact same.trans closed.terminal
    · rw [written]
      rcases (inv.shaped i _ acting).writes with ⟨routes, _⟩ | ⟨task, decoded, same⟩
      · rw [inv.workers i _ acting] at routes
        cases routes
      · rcases closed.harmless i _ task acting decoded same with unchecked | silent
        · cases (Consume.check_run inv.calm.up decoded unchecked).1
        · exact silent.1
  harmless j thread task running decoded same := by
    rcases step.threads_cases running with ⟨before, _⟩ | ⟨request, _, _, _, rfl⟩ |
      ⟨op, next, _, before, rest, _⟩
    · exact closed.harmless j thread task before decoded same
    · exact .inl rfl
    · right
      rw [rest]
      rcases closed.harmless j _ task before decoded same with unchecked | silent
      · have ended := (Consume.check_run inv.calm.up decoded unchecked).2
          (same ▸ closed.terminal)
        rw [show next ((consumers json WorkersOnly).perform op s.world).1 = .pure none from ended]
        trivial
      · exact silent.2 _

/-- A terminal write closes the task if every other call on it is harmless. -/
theorem Working.closes (inv : Working json s) {i : ι} {id : String} {status : Status}
    (terminal : status.isTerminal = true)
    (step : (consumers json WorkersOnly).Step s (.act i (.setStatus id status)) t)
    (others : ∀ j ≠ i, Harmless json s id j) : Closed json id t where
  terminal := by
    rcases terminal_step step inv.calm.up id with ⟨other, _⟩ | ⟨_, _, _, _, acted, _, written⟩
    · exact absurd rfl (other _ _)
    · cases acted
      exact written.trans terminal
  harmless j thread task running decoded same := by
    rcases step.threads_cases running with ⟨before, idle⟩ | ⟨_, started, _⟩ |
      ⟨op, next, acted, before, rest, _⟩
    · refine others j (fun eq => ?_) thread task before decoded same
      subst eq
      exact absurd rfl (idle _)
    · cases started
    · cases acted
      have shape := inv.shaped _ _ before
      unfold Consume.Shape at shape
      rw [decoded] at shape
      rw [rest]
      rcases shape with unchecked | ⟨once, own⟩
      · cases (Consume.check_run inv.calm.up decoded unchecked).1
      · exact .inr (once.1 ⟨own.1, terminal⟩ _)

/-- No slot of a closed task runs its handler next. -/
theorem Closed.no_handler (inv : Working json s) {id : String} (closed : Closed json id s) {i : ι}
    {handler : Handler} {task : Task}
    (step : (consumers json WorkersOnly).Step s (.act i (.handle handler task)) t) :
    task.id ≠ id := by
  intro same
  rcases consumers_world step with ⟨other, _⟩ | ⟨j, request, op, next, acted, acting, _⟩
  · exact absurd rfl (other _ _)
  · cases acted
    have shape := inv.shaped i _ acting
    unfold Consume.Shape at shape
    split at shape
    · exact shape.1.2
    · rename_i own decoded
      rcases shape with unchecked | ⟨_, about⟩
      · cases (Consume.check_run inv.calm.up decoded unchecked).1
      · rcases closed.harmless i _ own acting decoded (about.1.symm.trans same) with
          unchecked | silent
        · cases (Consume.check_run inv.calm.up decoded unchecked).1
        · exact silent.1

/-- The slot and the task of a terminal write. -/
def closing : Label (Op Raw) ι (Consume Raw) → Option (ι × String)
  | .act i (.setStatus id status) => if status.isTerminal then some (i, id) else none
  | _ => none

/-- The task a step runs the handler for. -/
def handling : Label (Op Raw) ι (Consume Raw) → Option String
  | .act _ (.handle _ task) => some task.id
  | _ => none

omit [DecidableEq ι] in
theorem mem_closing {i : ι} {id : String} (closes : (i, id) ∈ closing l) :
    ∃ status, status.isTerminal = true ∧ l = .act i (.setStatus id status) := by
  unfold closing at closes
  split at closes
  · split at closes
    · rename_i status terminal
      cases closes
      exact ⟨status, terminal, rfl⟩
    · cases closes
  · cases closes

omit [DecidableEq ι] in
theorem mem_handling {id : String} (handles : id ∈ handling l) :
    ∃ i handler task, l = .act i (.handle handler task) ∧ task.id = id := by
  unfold handling at handles
  split at handles
  · rename_i i handler task
    cases handles
    exact ⟨i, handler, task, rfl, rfl⟩
  · cases handles

/-- **The idempotency guard across workers.**  In every interleaving of worker
calls, any number of them on one task, with reliable stores: if at every terminal
write for a task every other call on it is before its status check or silent, then
no handler call for the task follows a terminal write. -/
theorem handler_never_after_terminal {h : List (ConsumerStep Raw ι)} {id : String}
    (idle : ∀ i, s.threads i = none) (calm : s.world.Calm)
    (run : Trace (consumers json WorkersOnly).Step s h t)
    (others : ∀ e ∈ h, ∀ i, (i, id) ∈ closing e.label →
      ∀ j ≠ i, Harmless json e.pre id j) :
    ∀ x e y, h = x ++ e :: y → ∀ i, (i, id) ∈ closing e.label →
      ∀ e' ∈ y, id ∉ handling e'.label := by
  rintro x e y rfl i closes e' later handles
  have start : Working json s := by
    refine ⟨calm, fun i thread running => ?_, fun i thread running => ?_⟩
    all_goals exact absurd running (Pool.ne_some_of_idle idle)
  obtain ⟨before, taken, after⟩ := run.split_cons
  have inv : Working json e.pre :=
    before.invariant start fun e _ step => Working.step step
  obtain ⟨status, terminal, label⟩ := mem_closing closes
  rw [label] at taken
  have closed : Closed json id e.post :=
    inv.closes terminal taken (others e (by simp) i closes)
  -- From the terminal write on the task is closed.
  obtain ⟨⟨working, closed⟩, taken'⟩ := after.invariant_mem
    (I := fun s => Working json s ∧ Closed json id s) ⟨inv.step taken, closed⟩
    (fun _ _ _ step both => ⟨both.1.step step, both.2.step step both.1⟩) e' later
  obtain ⟨j, handler, task, label', same⟩ := mem_handling handles
  rw [label'] at taken'
  exact closed.no_handler working taken' same

end Pool

/-! ## Two workers -/

instance (s : ConsumerPool Raw ι) (i : ι) (request : Consume Raw) :
    Decidable (WorkersOnly s i request) :=
  inferInstanceAs (Decidable (_ = _))

/-- An email task is routed and not yet processed. -/
def routed : ConsumerPool Task Bool where
  world :=
    { (World.fresh .calm : World Task).putState "task-1" (some .queued) with
      kafka := [⟨emailMessage, .dispatcher⟩] }
  threads _ := none

theorem routed_calm : routed.world.Calm :=
  ⟨⟨rfl, fun _ => rfl, fun _ => rfl⟩, fun _ _ => rfl⟩

def receive (i : Bool) : Move (World Task) Bool (Consume Task) :=
  .start i (.process (emailWorker 3) emailMessage)

/-- Both workers pass the check before the first one finishes the task. -/
def bothPass : List (Move (World Task) Bool (Consume Task)) :=
  [receive true, receive false, .act true, .act false] ++ List.replicate 7 (.act true) ++
    List.replicate 4 (.act false)

/-- The second worker receives the message after the first one finished the task. -/
def redelivered : List (Move (World Task) Bool (Consume Task)) :=
  [receive true] ++ List.replicate 8 (.act true) ++ [receive false, .act false]

/-- The handler of a finished task runs again. -/
theorem handler_runs_after_terminal :
    ¬ ∀ (s t : ConsumerPool Task Bool) (h : List (ConsumerStep Task Bool)) (id : String),
      (∀ i, s.threads i = none) → s.world.Calm →
      Trace (consumers plainJson WorkersOnly).Step s h t →
      ∀ x e y, h = x ++ e :: y → ∀ i, (i, id) ∈ closing e.label →
        ∀ e' ∈ y, id ∉ handling e'.label := by
  intro neverAfter
  have admitted : ∀ e ∈ (consumers plainJson WorkersOnly).play routed bothPass,
      (consumers plainJson WorkersOnly).Admitted e := by decide
  have run := consumers_play bothPass admitted (by simp [bothPass, receive])
  -- The eleventh transition is the terminal write of the first worker.
  have split := (List.take_append_drop 10
    ((consumers plainJson WorkersOnly).play routed bothPass)).symm
  have again : ∃ e' ∈ ((consumers plainJson WorkersOnly).play routed bothPass).drop 11,
      "task-1" ∈ handling e'.label := by decide
  obtain ⟨e', later, handles⟩ := again
  exact neverAfter _ _ _ "task-1" (fun _ => rfl) routed_calm run _ _ _ split true (by decide) e'
    later handles

/-- A redelivery after the task is finished does not run the handler. -/
theorem handler_never_after_terminal_redelivered :
    ((consumers plainJson WorkersOnly).final routed redelivered).world.handled.length = 1 ∧
      ∀ x e y, (consumers plainJson WorkersOnly).play routed redelivered = x ++ e :: y →
        ∀ i, (i, "task-1") ∈ closing e.label → ∀ e' ∈ y, "task-1" ∉ handling e'.label := by
  refine ⟨by decide, ?_⟩
  have admitted : ∀ e ∈ (consumers plainJson WorkersOnly).play routed redelivered,
      (consumers plainJson WorkersOnly).Admitted e := by decide
  have run := consumers_play redelivered admitted (by simp [redelivered, receive])
  refine handler_never_after_terminal (fun _ => rfl) routed_calm run ?_
  have alone : ∀ e ∈ (consumers plainJson WorkersOnly).play routed redelivered,
      ∀ closes ∈ closing e.label, ∀ j, j ≠ closes.1 → (e.pre.threads j).isNone = true := by
    decide
  intro e member i closes j other thread task running
  have idle := alone e member (i, "task-1") closes j other
  rw [running] at idle
  cases idle

end TaskFlow
