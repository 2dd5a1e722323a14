import TaskFlow.ConsumerPool

/-!
# A dispatcher against a worker

The dispatcher publishes a task and writes `QUEUED` afterwards, without a look at
the status.  With at most one worker call on a task at a time, terminal statuses are
absorbing in exactly the runs in which no such write lands on a terminal status
(`terminal_absorbing_iff`).
-/

namespace TaskFlow

open Effect

variable {Raw ι : Type}

section Pool

variable [DecidableEq ι] {json : Json Raw} {s t : ConsumerPool Raw ι}
  {l : Label (Op Raw) ι (Consume Raw)}

/-- No other slot works on the task. -/
def Alone (json : Json Raw) (s : ConsumerPool Raw ι) (_ : ι) (request : Consume Raw) : Prop :=
  ∀ task ∈ request.task json, ∀ j, ¬ Busy json s j task.id

/-- A worker call on a task is before its check, or silent, or the status of the
task is not terminal; and no two of them are on the same task. -/
structure Guarded (json : Json Raw) (s : ConsumerPool Raw ι) : Prop where
  calm : s.world.Calm
  shaped : Shaped json s
  alone : ∀ i j id, Busy json s i id → Busy json s j id → i = j
  guarded : ∀ i thread task, s.threads i = some thread → thread.request.task json = some task →
    thread.rest = thread.request.body json ∨ Prog.All Op.Silent thread.rest ∨
      s.world.terminal task.id = false

theorem Guarded.step (step : (consumers json (Alone json)).Step s l t) (inv : Guarded json s) :
    Guarded json t where
  calm := consumers_calm step inv.calm
  shaped := inv.shaped.step step
  alone i j id busy busy' := by
    rcases busy.before step with old | ⟨request, task, rfl, decoded, rfl, admitted⟩
    · rcases busy'.before step with old' | ⟨request, task, rfl, decoded, rfl, admitted⟩
      · exact inv.alone i j id old old'
      · exact absurd old (admitted task decoded i)
    · rcases busy'.before step with old' | ⟨request', task', started, _⟩
      · exact absurd old' (admitted task decoded j)
      · cases started
        rfl
  guarded j thread task running decoded := by
    rcases step.threads_cases running with ⟨before, idle⟩ | ⟨request, _, _, _, rfl⟩ |
      ⟨op, next, _, before, rest, after⟩
    · rcases inv.guarded j thread task before decoded with unchecked | silent | opened
      · exact .inl unchecked
      · exact .inr (.inl silent)
      -- An open task stays open: the only worker on it is slot `j`, which did not move.
      · refine .inr (.inr ?_)
        rcases terminal_step step inv.calm.up task.id with
          ⟨_, same⟩ | ⟨i, request, status, next, rfl, acting, written⟩
        · exact same.trans opened
        · rcases (inv.shaped i _ acting).writes with ⟨_, rfl⟩ | ⟨task', decoded', same⟩
          · exact written
          · have : i = j := inv.alone i j task.id ⟨_, task', acting, decoded', same⟩
              ⟨thread, task, before, decoded, rfl⟩
            exact absurd (by rw [this]) (idle (.setStatus task.id status))
    · exact .inl rfl
    · rw [rest, after]
      have shape := inv.shaped j _ before
      rcases inv.guarded j _ task before decoded with unchecked | silent | opened
      · cases terminal : s.world.terminal task.id with
        | true =>
            have ended := (Consume.check_run inv.calm.up decoded unchecked).2 terminal
            rw [show next ((consumers json (Alone json)).perform op s.world).1 = .pure none
              from ended]
            exact .inr (.inl trivial)
        | false => exact .inr (shape.act inv.calm.up decoded terminal)
      · exact .inr (.inl (silent.2 _))
      · exact .inr (shape.act inv.calm.up decoded opened)

/-- **Terminal statuses are not absorbing.**  In every interleaving of dispatcher
calls and of worker calls, at most one of these on a task at a time, with reliable
stores, terminal statuses are absorbing exactly when no dispatcher writes `QUEUED`
on a terminal status. -/
theorem terminal_absorbing_iff {h : List (ConsumerStep Raw ι)} (idle : ∀ i, s.threads i = none)
    (calm : s.world.Calm) (run : Trace (consumers json (Alone json)).Step s h t) :
    (∀ e ∈ h, ∀ id, e.pre.world.terminal id = true → e.post.world.terminal id = true) ↔
      ∀ e ∈ h, ∀ id ∈ queues e.label, e.pre.world.terminal id = false := by
  have start : Guarded json s := by
    refine ⟨calm, fun i thread running => ?_, fun i _ _ busy => ?_, fun i thread _ running => ?_⟩
    · exact absurd running (Pool.ne_some_of_idle idle)
    · obtain ⟨thread, _, running, _⟩ := busy
      exact absurd running (Pool.ne_some_of_idle idle)
    · exact absurd running (Pool.ne_some_of_idle idle)
  have steps := run.invariant_mem start fun _ _ _ step => Guarded.step step
  constructor
  · intro absorbing e member id queued
    obtain ⟨inv, step⟩ := steps e member
    obtain ⟨i, label⟩ := mem_queues queued
    rcases terminal_step step inv.calm.up id with
      ⟨other, _⟩ | ⟨j, request, status, next, acted, _, written⟩
    · exact absurd label (other i .queued)
    · rw [label] at acted
      cases acted
      by_contra terminal
      rw [absorbing e member id (Bool.not_eq_false _ ▸ terminal)] at written
      cases written
  · intro queued e member id terminal
    obtain ⟨inv, step⟩ := steps e member
    rcases terminal_step step inv.calm.up id with
      ⟨_, same⟩ | ⟨i, request, status, next, acted, running, written⟩
    · exact same.trans terminal
    · rw [written]
      rcases (inv.shaped i _ running).writes with ⟨_, rfl⟩ | ⟨task, decoded, rfl⟩
      · rw [queued e member id (by rw [acted]; rfl)] at terminal
        cases terminal
      · rcases inv.guarded i _ task running decoded with unchecked | silent | opened
        · cases (Consume.check_run inv.calm.up decoded unchecked).1
        · exact silent.1
        · rw [opened] at terminal
          cases terminal

end Pool

/-! ## A dispatcher and a worker -/

instance (json : Json Raw) (s : ConsumerPool Raw Bool) (i : Bool) (request : Consume Raw) :
    Decidable (Alone json s i request) :=
  inferInstanceAs (Decidable (∀ task ∈ request.task json, ∀ j, ¬ Busy json s j task.id))

/-- An email task is submitted and not yet routed. -/
def submitted : ConsumerPool Task Bool where
  world :=
    { (World.fresh .calm : World Task).putState "task-1" (some .pending) with
      kafka := [⟨⟨topicPending, "task-1", emailTask⟩, .gateway⟩] }
  threads _ := none

theorem submitted_calm : submitted.world.Calm :=
  ⟨⟨rfl, fun _ => rfl, fun _ => rfl⟩, fun _ _ => rfl⟩

/-- Slot `false` routes the pending message, slot `true` processes the routed one. -/
def startRoute : Move (World Task) Bool (Consume Task) :=
  .start false (.route ⟨false⟩ ⟨topicPending, "task-1", emailTask⟩)

def startProcess : Move (World Task) Bool (Consume Task) :=
  .start true (.process (emailWorker 3) emailMessage)

/-- The worker finishes between the publish of the dispatcher and its `QUEUED`. -/
def queuedLate : List (Move (World Task) Bool (Consume Task)) :=
  [startRoute, .act false, startProcess] ++ List.replicate 8 (.act true) ++ [.act false]

/-- The dispatcher writes `QUEUED` before the worker starts. -/
def queuedInTime : List (Move (World Task) Bool (Consume Task)) :=
  [startRoute, .act false, .act false, startProcess] ++ List.replicate 8 (.act true)

/-- A finished task is queued again. -/
theorem terminal_overwritten :
    ¬ ∀ (s t : ConsumerPool Task Bool) (h : List (ConsumerStep Task Bool)),
      (∀ i, s.threads i = none) → s.world.Calm →
      Trace (consumers plainJson (Alone plainJson)).Step s h t →
      ∀ e ∈ h, ∀ id, e.pre.world.terminal id = true → e.post.world.terminal id = true := by
  intro absorbing
  have admitted : ∀ e ∈ (consumers plainJson (Alone plainJson)).play submitted queuedLate,
      (consumers plainJson (Alone plainJson)).Admitted e := by decide
  have run := consumers_play queuedLate admitted
    (by simp [queuedLate, startRoute, startProcess])
  have overwritten : ∃ e ∈ (consumers plainJson (Alone plainJson)).play submitted queuedLate,
      e.pre.world.terminal "task-1" = true ∧ e.post.world.terminal "task-1" = false := by decide
  obtain ⟨e, member, before, after⟩ := overwritten
  rw [absorbing _ _ _ (fun _ => rfl) submitted_calm run e member "task-1" before] at after
  cases after

/-- When `QUEUED` comes first, the task ends `DONE` and its status stays so. -/
theorem terminal_absorbing_inTime :
    ((consumers plainJson (Alone plainJson)).final submitted queuedInTime).world.redis.state
        "task-1" = some .done ∧
      ∀ e ∈ (consumers plainJson (Alone plainJson)).play submitted queuedInTime, ∀ id,
        e.pre.world.terminal id = true → e.post.world.terminal id = true := by
  refine ⟨by decide, ?_⟩
  have admitted : ∀ e ∈ (consumers plainJson (Alone plainJson)).play submitted queuedInTime,
      (consumers plainJson (Alone plainJson)).Admitted e := by decide
  have run := consumers_play queuedInTime admitted
    (by simp [queuedInTime, startRoute, startProcess])
  exact (terminal_absorbing_iff (fun _ => rfl) submitted_calm run).mpr (by decide)

end TaskFlow
