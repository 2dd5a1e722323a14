import TaskFlow.Tickets

/-!
# Consumers that make whole calls

`Whole json` is the pipeline as it looks between the calls of the consumers: a `route` or
a `processMessage` call is one step, while submissions still go one store call at a time
and keys of Redis expire in between.  Each of its steps is a run of the pipeline
(`Whole.refines`), so each ticket has one holder here too (`Whole.settled`), and a whole
`processMessage` call uses up the ticket of its task (`spent_of_process`).
-/

namespace TaskFlow

open Effect

variable {Raw ι : Type} {json : Json Raw}

/-- The steps of a gateway. -/
def OfGateway : Label (Op Raw) ι (Job Raw) → Prop
  | .start _ (.submit _) => True
  | .act _ _ => True
  | .stop _ => True
  | _ => False

/-- One step when consumers make whole calls. -/
inductive Whole [DecidableEq ι] (json : Json Raw) (s : PipelinePool Raw ι) :
    Label (Op Raw) ι (Job Raw) → PipelinePool Raw ι → Prop
  | gateway {l : Label (Op Raw) ι (Job Raw)} {t : PipelinePool Raw ι} :
    (pipeline ι json).Step s l t → OfGateway l → Whole json s l t
  | call {i : ι} {n : Nat} {c : Consume Raw} : s.threads i = none →
    (Job.consume n c).Delivered s.world.kafka →
    Whole json s (.start i (.consume n c))
      { s with world := (Service.run (c.body json) s.world).2 }
  | state (id : String) : Whole json s .env { s with world := s.world.putState id none }
  | copy (id : String) : Whole json s .env { s with world := s.world.putMeta id none }

variable [DecidableEq ι] {s t : PipelinePool Raw ι} {out : List Nat}
  {l : Label (Op Raw) ι (Job Raw)}

/-- A whole step is a run of the pipeline, and hands out the same record. -/
theorem Whole.refines (step : Whole json s l t) :
    ∃ h, Trace (pipeline ι json).Step s h t ∧ handedOut h = (hands ⟨s, l, t⟩).toList := by
  cases step with
  | gateway taken own => exact ⟨_, .single taken, handedOut_concat (x := [])⟩
  | @call i n c idle delivered =>
      obtain ⟨first, h, t, run, world, threads, start, serves, _⟩ :=
        (pipeline ι json).serve i (.consume n c) idle delivered
      obtain ⟨w, slots⟩ := t
      cases world
      cases threads
      refine ⟨first :: h, run, ?_⟩
      have handed : hands first = some n := by simp only [hands, start]
      have quiet : ∀ e ∈ h, hands e = none := by
        intro e member
        rcases serves e member with label | ⟨op, label⟩ <;> simp only [hands, label]
      rw [handedOut, List.filterMap_cons_some handed, List.filterMap_eq_nil_iff.mpr quiet]
      rfl
  | state id => exact ⟨_, .single (.env (.state id)), rfl⟩
  | copy id => exact ⟨_, .single (.env (.copy id)), rfl⟩

/-- Between the calls of the consumers: each ticket has one holder, the slots belong to
submissions, and the stores work. -/
structure Settled (json : Json Raw) (out : List Nat) (s : PipelinePool Raw ι) : Prop where
  ordered : Ordered json out s
  gateway : ∀ i n c rest, s.threads i ≠ some ⟨.consume n c, rest⟩
  calm : s.world.StoresCalm

theorem Whole.gateway_step (step : Whole json s l t)
    (gateway : ∀ i n c rest, s.threads i ≠ some ⟨.consume n c, rest⟩) :
    ∀ i n c rest, t.threads i ≠ some ⟨.consume n c, rest⟩ := by
  intro i n c rest running
  cases step with
  | gateway taken own =>
      rcases taken.threads_cases running with ⟨before, _⟩ | ⟨job, rfl, _, _, started⟩ |
        ⟨op, next, _, before, _, _⟩
      · exact gateway i n c rest before
      · cases started
        exact own
      · exact gateway i n c _ before
  | call idle delivered => exact gateway i n c rest running
  | state id => exact gateway i n c rest running
  | copy id => exact gateway i n c rest running

theorem Whole.calm_step (step : Whole json s l t) (calm : s.world.StoresCalm) :
    t.world.StoresCalm := by
  cases step with
  | gateway taken own =>
      rcases taken.world_cases with ⟨_, same⟩ | ⟨_, _, op, _, _, _, after⟩ | ⟨rfl, _⟩
      · rwa [same]
      · rw [after]
        exact perform_storesCalm calm
      · exact own.elim
  | call idle delivered => exact Service.run_storesCalm calm
  | state id => exact ⟨⟨calm.live, calm.inHandle, calm.inWait⟩, calm.reliable⟩
  | copy id => exact ⟨⟨calm.live, calm.inHandle, calm.inWait⟩, calm.reliable⟩

/-- A step that hands out a new record leaves the pipeline settled, and a ticket that is
gone stays so. -/
theorem Whole.settled (step : Whole json s l t) (fresh : ∀ n ∈ hands ⟨s, l, t⟩, n ∉ out)
    (settled : Settled json out s) (once : out.Nodup) :
    Settled json (out ++ (hands ⟨s, l, t⟩).toList) t ∧
      ∀ id, (tickets json out s).Spent id →
        (tickets json (out ++ (hands ⟨s, l, t⟩).toList) t).Spent id := by
  obtain ⟨h, run, handed⟩ := step.refines
  have apart : (out ++ handedOut h).Nodup := by
    rw [handed]
    refine List.nodup_append.mpr ⟨once, ?_, fun n member m given same => ?_⟩
    · cases hands ⟨s, l, t⟩ <;> simp
    · exact fresh m (Option.mem_toList.mp given) (same ▸ member)
  obtain ⟨ordered, kept⟩ := settled.ordered.run run apart
  rw [handed] at ordered kept
  exact ⟨⟨ordered, step.gateway_step settled.gateway, step.calm_step settled.calm⟩, kept⟩

/-! ## The ticket of a whole `processMessage` call -/

/-- A worker adds no ticket to the log. -/
theorem unclaimed_process {w : Worker} {msg : Message Raw} {m : Nat} {id : String}
    {world : World Raw} (handed : ∀ n ∈ out, n < world.kafka.length)
    (carries : unclaimed json out
      (Service.run (w.processMessage json msg) world).2.kafka m = some id) :
    unclaimed json out world.kafka m = some id := by
  refine ((w.processMessage_consumes json msg).run_invariant (I := fun w' : World Raw =>
    world.kafka.length ≤ w'.kafka.length ∧ ∀ m id, unclaimed json out w'.kafka m = some id →
      unclaimed json out world.kafka m = some id) (fun op w' consumes before => ?_)
    ⟨Nat.le_refl _, fun _ _ held => held⟩).2 m id carries
  obtain ⟨grown, kept⟩ := before
  refine ⟨Nat.le_trans grown (perform_log_length op w'), fun m id held => ?_⟩
  rcases perform_log op w' with same | ⟨topic, key, value, origin, rfl, _, log⟩
  · exact kept m id (same ▸ held)
  · rw [log] at held
    by_cases last : m = w'.kafka.length
    · rw [last, unclaimed_append_self fun n member =>
        Nat.lt_of_lt_of_le (handed n member) grown] at held
      exact absurd (consumes.2 rfl) (ticket_topic held)
    · rw [unclaimed_append_of_ne last] at held
      exact kept m id held

omit [DecidableEq ι] in
/-- A whole `processMessage` call uses up the ticket of its task. -/
theorem spent_of_process {w : Worker} {msg : Message Raw} {n : Nat} {task : Task}
    (ordered : Ordered json out s) (fresh : n ∉ out)
    (delivered : (Job.consume n (.process w msg)).Delivered s.world.kafka)
    (decodes : json.unmarshal msg.value = some task) :
    (tickets json (out ++ [n]) { s with
      world := (Service.run (w.processMessage json msg) s.world).2 }).Spent task.id := by
  have held : (tickets json out s).held (.inr n) = some task.id := by
    rw [tickets_delivered delivered fresh]
    exact congrArg _ decodes
  obtain ⟨k, drawn⟩ := Service.run_uuid (w.processMessage json msg) s.world
  refine Custody.Spent.of_lost ordered.sound held drawn (fun q id there => ?_) ?_
  · cases q with
    | inl i => exact there
    | inr m => exact unclaimed_process ordered.handed (unclaimed_mono there)
  · intro there
    have gone : unclaimed json (out ++ [n])
        (Service.run (w.processMessage json msg) s.world).2.kafka n = none := if_pos (by simp)
    cases gone.symm.trans there

end TaskFlow
