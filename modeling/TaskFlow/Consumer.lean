import TaskFlow.World
import TaskFlow.Effect.Prog
import TaskFlow.Effect.Trace

/-!
# `internal/kafka`: the consumer loop

`subscribeBody` is one iteration of `consumer.Subscribe`: fetch, handle, commit.
`Group` is what it works on: the partition logs, the committed offsets of the
consumer group, and the positions of the running session, with a log of the
deliveries made.  Of Kafka it is assumed that `FetchMessage` returns the messages
of a partition in offset order, from the committed offset on and each at most
once in a session, and that `CommitMessages(m)` sets the committed offset of the
partition of `m` to `m.Offset+1`.

`subscribe_atLeastOnce_iff`: the committed offset stays at or below every message
whose handler has not returned nil exactly as long as no iteration commits past
an earlier message that only failed.
-/

namespace TaskFlow

open Effect

/-- One message of a partition. -/
structure LogEntry (Raw : Type) : Type where
  offset : Nat
  message : Message Raw
deriving DecidableEq

/-- A partition: its messages with strictly increasing offsets, gaps allowed. -/
structure PartitionLog (Raw : Type) : Type where
  entries : List (LogEntry Raw)
  sorted : entries.Pairwise fun a b => a.offset < b.offset

/-- One message handed to the handler, and what the handler returned. -/
structure Delivery (P Raw : Type) : Type where
  partition : P
  entry : LogEntry Raw
  result : Option Error
deriving DecidableEq

/-- The behaviour still to come: the partition of the next fetch or the error it
fails with, what the handler returns, and whether the commit fails. -/
structure GroupScript (P : Type) : Type where
  source : Nat → Except Error P
  outcome : Nat → Option Error
  commitFails : Nat → Bool

/-- A consumer group with its running session. -/
structure Group (P Raw : Type) : Type where
  log : P → PartitionLog Raw
  committed : P → Nat
  position : P → Nat
  deliveries : List (Delivery P Raw)
  script : GroupScript P

/-! ## The loop -/

/-- The calls of `Subscribe`. -/
inductive ConsumerOp (P Raw : Type) : Type
  | fetchMessage
  | handle (partition : P) (entry : LogEntry Raw)
  | commitMessages (partition : P) (entry : LogEntry Raw)

/-- The answer to a call of `Subscribe`. -/
abbrev ConsumerOp.Ans {P Raw : Type} : ConsumerOp P Raw → Type
  | .fetchMessage => Except Error (P × LogEntry Raw)
  | _ => Option Error

variable {P Raw : Type}

/-- Make one call of `Subscribe`. -/
abbrev ConsumerOp.ask (op : ConsumerOp P Raw) :
    Prog (ConsumerOp P Raw) ConsumerOp.Ans op.Ans := Prog.op op

/-- The return of `Subscribe` when the fetch fails: nil on shutdown. -/
def fetchFailed (err : Error) : Option Error :=
  if err = .canceled then none else some (.wrap "kafka fetch" err)

/-- One iteration of `Subscribe`: `none` to go on, or the value it returns. -/
def subscribeBody : Prog (ConsumerOp P Raw) ConsumerOp.Ans (Option (Option Error)) := do
  match ← ConsumerOp.ask .fetchMessage with
  | .error err => pure (some (fetchFailed err))
  | .ok (partition, entry) => do
      match ← ConsumerOp.ask (.handle partition entry) with
      | some _ => pure none
      | none => do
          let _ ← ConsumerOp.ask (.commitMessages partition entry)
          pure none

/-- The next message of a partition at or after a position. -/
def PartitionLog.fetch (log : PartitionLog Raw) (position : Nat) : Option (LogEntry Raw) :=
  log.entries.find? fun entry => position ≤ entry.offset

namespace Group

/-- What the next `FetchMessage` returns.  On a partition without a message it
blocks until the shutdown. -/
def next (g : Group P Raw) : Except Error (P × LogEntry Raw) :=
  match g.script.source 0 with
  | .error err => .error err
  | .ok partition =>
      match (g.log partition).fetch (g.position partition) with
      | none => .error .canceled
      | some entry => .ok (partition, entry)

variable [DecidableEq P]

/-- `FetchMessage`. -/
def fetchMessage (g : Group P Raw) : Except Error (P × LogEntry Raw) × Group P Raw :=
  let g' : Group P Raw := { g with script.source := rest g.script.source }
  match g.next with
  | .error err => (.error err, g')
  | .ok (partition, entry) => (.ok (partition, entry),
      { g' with position := Function.update g.position partition (entry.offset + 1) })

/-- The handler. -/
def handle (g : Group P Raw) (partition : P) (entry : LogEntry Raw) :
    Option Error × Group P Raw :=
  (g.script.outcome 0,
    { g with
      deliveries := g.deliveries ++ [⟨partition, entry, g.script.outcome 0⟩]
      script.outcome := rest g.script.outcome })

/-- `CommitMessages`. -/
def commitMessages (g : Group P Raw) (partition : P) (entry : LogEntry Raw) :
    Option Error × Group P Raw :=
  let g' : Group P Raw := { g with script.commitFails := rest g.script.commitFails }
  if g.script.commitFails 0 then (some (.new "commit failed"), g')
  else (none, { g' with committed := Function.update g.committed partition (entry.offset + 1) })

/-- Answer one call of `Subscribe`. -/
def perform : (op : ConsumerOp P Raw) → Group P Raw → op.Ans × Group P Raw
  | .fetchMessage, g => g.fetchMessage
  | .handle partition entry, g => g.handle partition entry
  | .commitMessages partition entry, g => g.commitMessages partition entry

/-- One iteration of the loop. -/
def iterate (g : Group P Raw) : Group P Raw := (Prog.run perform subscribeBody g).2

/-- A new session: every partition is read again from its committed offset. -/
def restart (g : Group P Raw) : Group P Raw := { g with position := g.committed }

end Group

/-- What a run of the group consists of. -/
inductive GroupEvent : Type
  | iterate
  | restart

/-- One event of a run. -/
def Group.apply [DecidableEq P] (g : Group P Raw) : GroupEvent → Group P Raw
  | .iterate => g.iterate
  | .restart => g.restart

/-- Runs of the group: iterations of the loop and restarts. -/
def Group.Step [DecidableEq P] (g : Group P Raw) (e : GroupEvent) (g' : Group P Raw) : Prop :=
  g' = g.apply e

/-- A group that has delivered nothing yet. -/
structure Group.Fresh (g : Group P Raw) : Prop where
  deliveries : g.deliveries = []
  position : g.position = g.committed

/-! ## One iteration -/

/-- An iteration that fetches nothing changes neither offsets nor deliveries. -/
theorem Group.iterate_of_error [DecidableEq P] {g : Group P Raw} {err : Error}
    (failed : g.next = .error err) :
    g.iterate = { g with script.source := rest g.script.source } := by
  simp [iterate, subscribeBody, perform, fetchMessage, failed]

/-- The group after an iteration that fetched `entry`. -/
theorem Group.iterate_of_ok [DecidableEq P] {g : Group P Raw} {partition : P}
    {entry : LogEntry Raw} (fetched : g.next = .ok (partition, entry)) :
    g.iterate.log = g.log ∧
    g.iterate.position = Function.update g.position partition (entry.offset + 1) ∧
    g.iterate.deliveries = g.deliveries ++ [⟨partition, entry, g.script.outcome 0⟩] ∧
    g.iterate.committed =
      (if g.script.outcome 0 = none ∧ g.script.commitFails 0 = false then
        Function.update g.committed partition (entry.offset + 1) else g.committed) := by
  cases outcome : g.script.outcome 0 with
  | some err =>
      simp [iterate, subscribeBody, perform, fetchMessage, fetched, handle, outcome]
  | none =>
      cases fails : g.script.commitFails 0 <;>
        simp [iterate, subscribeBody, perform, fetchMessage, fetched, handle, outcome,
          commitMessages, fails]

/-! ## Partitions -/

namespace PartitionLog

variable {log : PartitionLog Raw} {position : Nat} {entry first : LogEntry Raw}

/-- A fetch returns the first message at or after the position. -/
theorem fetch_some (fetched : log.fetch position = some first) :
    first ∈ log.entries ∧ position ≤ first.offset ∧
      ∀ entry ∈ log.entries, position ≤ entry.offset → first.offset ≤ entry.offset := by
  obtain ⟨after, front, back, split, skipped⟩ := List.find?_eq_some_iff_append.mp fetched
  have sorted := log.sorted
  rw [split] at sorted ⊢
  refine ⟨by simp, of_decide_eq_true after, ?_⟩
  intro entry member ahead
  rcases List.mem_append.mp member with early | late
  · have := skipped entry early
    simp [ahead] at this
  · rcases List.mem_cons.mp late with rfl | later
    · exact Nat.le_refl _
    · exact Nat.le_of_lt ((List.pairwise_cons.mp (List.pairwise_append.mp sorted).2.1).1 _ later)

/-- An offset names one message. -/
theorem eq_of_offset_eq (left : first ∈ log.entries) (right : entry ∈ log.entries)
    (same : first.offset = entry.offset) : first = entry := by
  by_contra different
  rcases List.mem_iff_append.mp left with ⟨front, back, split⟩
  have sorted := log.sorted
  rw [split] at sorted right
  obtain ⟨_, tail, cross⟩ := List.pairwise_append.mp sorted
  rcases List.mem_append.mp right with early | late
  · have := cross _ early _ List.mem_cons_self
    omega
  · rcases List.mem_cons.mp late with rfl | later
    · exact different rfl
    · have := (List.pairwise_cons.mp tail).1 _ later
      omega

/-- The messages of the next `n` fetches of a session that stands at `position`. -/
def deliver (log : PartitionLog Raw) : Nat → Nat → List (LogEntry Raw)
  | 0, _ => []
  | n + 1, position =>
      match log.fetch position with
      | none => []
      | some entry => entry :: log.deliver n (entry.offset + 1)

/-- Every message at or after the position is delivered after enough fetches. -/
theorem exists_mem_deliver (member : entry ∈ log.entries) (ahead : position ≤ entry.offset) :
    ∃ n, entry ∈ log.deliver n position := by
  -- Each fetch moves the position closer to the offset of the message.
  induction gap : entry.offset - position using Nat.strong_induction_on generalizing position with
  | _ gap ih =>
    cases fetched : log.fetch position with
    | none =>
        have := List.find?_eq_none.mp fetched entry member
        simp [ahead] at this
    | some first =>
        obtain ⟨firstMember, after, least⟩ := fetch_some fetched
        rcases Nat.lt_or_eq_of_le (least entry member ahead) with before | same
        · obtain ⟨n, found⟩ : ∃ n, entry ∈ log.deliver n (first.offset + 1) :=
            ih (entry.offset - (first.offset + 1)) (by omega) before rfl
          exact ⟨n + 1, by simp [deliver, fetched, found]⟩
        · obtain rfl := eq_of_offset_eq firstMember member same
          exact ⟨1, by simp [deliver, fetched]⟩

end PartitionLog

/-! ## At-least-once delivery -/

namespace Group

/-- The handler was given this message. -/
def Fetched (g : Group P Raw) (partition : P) (entry : LogEntry Raw) : Prop :=
  ∃ result, ⟨partition, entry, result⟩ ∈ g.deliveries

/-- The handler returned nil for this message. -/
def Succeeded (g : Group P Raw) (partition : P) (entry : LogEntry Raw) : Prop :=
  ⟨partition, entry, none⟩ ∈ g.deliveries

/-- No message whose handler has not returned nil lies below the committed
offset, so that a restart delivers it again. -/
def AtLeastOnce (g : Group P Raw) : Prop :=
  ∀ partition entry, g.Fetched partition entry → ¬ g.Succeeded partition entry →
    g.committed partition ≤ entry.offset ∧
      ∃ n, entry ∈ (g.log partition).deliver n (g.restart.position partition)

/-- If the next iteration commits a message, then every earlier message of its
partition that was ever fetched has been handled. -/
def CommitsInOrder (g : Group P Raw) : GroupEvent → Prop
  | .restart => True
  | .iterate => ∀ partition entry, g.next = .ok (partition, entry) →
      g.script.outcome 0 = none → g.script.commitFails 0 = false →
      ∀ earlier, g.Fetched partition earlier → earlier.offset < entry.offset →
        g.Succeeded partition earlier

/-- What a session keeps: it stands at or after the committed offsets, and what it
delivered is in the logs. -/
structure Consistent (g : Group P Raw) : Prop where
  committed_le : ∀ partition, g.committed partition ≤ g.position partition
  logged : ∀ partition entry, g.Fetched partition entry → entry ∈ (g.log partition).entries

/-- What the next fetch returns is in the log and at or after the position. -/
theorem next_ok {g : Group P Raw} {partition : P} {entry : LogEntry Raw}
    (fetched : g.next = .ok (partition, entry)) :
    entry ∈ (g.log partition).entries ∧ g.position partition ≤ entry.offset := by
  unfold next at fetched
  split at fetched
  · cases fetched
  · split at fetched
    · cases fetched
    · rename_i found
      cases fetched
      obtain ⟨member, after, _⟩ := PartitionLog.fetch_some found
      exact ⟨member, after⟩

theorem Fresh.consistent {g : Group P Raw} (fresh : g.Fresh) : g.Consistent where
  committed_le partition := by rw [fresh.position]
  logged partition entry fetched := by
    obtain ⟨result, member⟩ := fetched
    rw [fresh.deliveries] at member
    cases member

variable [DecidableEq P]

/-- Deliveries after an iteration that handed `entry` to the handler. -/
theorem fetched_iterate {g : Group P Raw} {partition : P} {entry : LogEntry Raw}
    (next : g.next = .ok (partition, entry)) {p : P} {e : LogEntry Raw} :
    g.iterate.Fetched p e ↔ g.Fetched p e ∨ (p = partition ∧ e = entry) := by
  unfold Fetched
  rw [(iterate_of_ok next).2.2.1]
  constructor
  · rintro ⟨result, member⟩
    rcases List.mem_append.mp member with old | new
    · exact .inl ⟨result, old⟩
    · cases List.mem_singleton.mp new
      exact .inr ⟨rfl, rfl⟩
  · rintro (⟨result, member⟩ | ⟨rfl, rfl⟩)
    · exact ⟨result, List.mem_append_left _ member⟩
    · exact ⟨_, List.mem_append_right _ (List.mem_singleton_self _)⟩

/-- Successes after an iteration that handed `entry` to the handler. -/
theorem succeeded_iterate {g : Group P Raw} {partition : P} {entry : LogEntry Raw}
    (next : g.next = .ok (partition, entry)) {p : P} {e : LogEntry Raw} :
    g.iterate.Succeeded p e ↔
      g.Succeeded p e ∨ (p = partition ∧ e = entry ∧ g.script.outcome 0 = none) := by
  unfold Succeeded
  rw [(iterate_of_ok next).2.2.1, List.mem_append, List.mem_singleton, Delivery.mk.injEq]
  exact or_congr_right (and_congr_right fun _ => and_congr_right fun _ => eq_comm)

/-- A session stays consistent. -/
theorem Consistent.apply {g : Group P Raw} (ok : g.Consistent) (e : GroupEvent) :
    (g.apply e).Consistent := by
  cases e with
  | restart => exact ⟨fun _ => Nat.le_refl _, ok.logged⟩
  | iterate =>
      show g.iterate.Consistent
      cases fetched : g.next with
      | error err =>
          rw [iterate_of_error fetched]
          exact ⟨ok.committed_le, ok.logged⟩
      | ok found =>
          obtain ⟨partition, entry⟩ := found
          obtain ⟨log, position, _, committed⟩ := iterate_of_ok fetched
          obtain ⟨member, after⟩ := next_ok fetched
          refine ⟨fun p => ?_, fun p e seen => ?_⟩
          · have before := ok.committed_le p
            rw [position, committed]
            by_cases same : p = partition
            · subst same
              split <;> simp only [Function.update_self] <;> omega
            · split <;> simp only [Function.update_of_ne same] <;> exact before
          · rw [log]
            rcases (fetched_iterate fetched).mp seen with old | ⟨rfl, rfl⟩
            · exact ok.logged p e old
            · exact member

/-- Below the committed offset every message fetched has been handled.  This is
`AtLeastOnce` without the redelivery that follows from it. -/
def Handled (g : Group P Raw) : Prop :=
  ∀ partition entry, g.Fetched partition entry → ¬ g.Succeeded partition entry →
    g.committed partition ≤ entry.offset

omit [DecidableEq P] in
theorem atLeastOnce_iff_handled {g : Group P Raw} (ok : g.Consistent) :
    g.AtLeastOnce ↔ g.Handled := by
  constructor
  · intro safe partition entry fetched failed
    exact (safe partition entry fetched failed).1
  · intro handled partition entry fetched failed
    have below := handled partition entry fetched failed
    exact ⟨below, PartitionLog.exists_mem_deliver (ok.logged partition entry fetched) below⟩

/-- An event that commits in order keeps the messages below the committed offset
handled. -/
theorem Handled.apply {g : Group P Raw} (ok : g.Consistent) (handled : g.Handled)
    {e : GroupEvent} (inOrder : g.CommitsInOrder e) : (g.apply e).Handled := by
  cases e with
  | restart => exact handled
  | iterate =>
      show g.iterate.Handled
      cases fetched : g.next with
      | error err =>
          rw [iterate_of_error fetched]
          exact handled
      | ok found =>
          obtain ⟨partition, entry⟩ := found
          obtain ⟨_, _, _, committed⟩ := iterate_of_ok fetched
          obtain ⟨member, after⟩ := next_ok fetched
          intro p e seen failed
          rw [succeeded_iterate fetched, not_or] at failed
          rw [committed]
          have old : g.Fetched p e → g.committed p ≤ e.offset :=
            fun before => handled p e before failed.1
          have atPosition := ok.committed_le partition
          rw [fetched_iterate fetched] at seen
          split
          · rename_i commits
            by_cases same : p = partition
            · subst same
              rw [Function.update_self]
              -- The committed message is handled, an earlier one was, a later one is above.
              rcases seen with before | ⟨_, rfl⟩
              · by_contra below
                rcases Nat.lt_or_eq_of_le (show e.offset ≤ entry.offset by omega) with lt | eq
                · exact failed.1 (inOrder p entry fetched commits.1 commits.2 e before lt)
                · have := PartitionLog.eq_of_offset_eq (ok.logged p e before) member eq
                  exact failed.2 ⟨rfl, this, commits.1⟩
              · exact absurd ⟨rfl, rfl, commits.1⟩ failed.2
            · rw [Function.update_of_ne same]
              rcases seen with before | ⟨rfl, _⟩
              · exact old before
              · exact absurd rfl same
          · rcases seen with before | ⟨rfl, rfl⟩
            · exact old before
            · omega

/-- An event after which the messages below the committed offset are handled
committed in order. -/
theorem Handled.commitsInOrder {g : Group P Raw} {e : GroupEvent}
    (handled : (g.apply e).Handled) : g.CommitsInOrder e := by
  cases e with
  | restart => trivial
  | iterate =>
      intro partition entry fetched success commits earlier seen lt
      by_contra failed
      obtain ⟨_, _, _, committed⟩ := iterate_of_ok fetched
      have below : g.iterate.committed partition ≤ earlier.offset := by
        apply handled partition earlier ((fetched_iterate fetched).mpr (.inl seen))
        rw [show g.apply .iterate = g.iterate from rfl, succeeded_iterate fetched]
        rintro (before | ⟨_, rfl, _⟩)
        · exact failed before
        · exact Nat.lt_irrefl _ lt
      rw [committed, if_pos ⟨success, commits⟩, Function.update_self] at below
      omega

end Group

/-- **At-least-once delivery, exactly.**  Along every run of a consumer group, over
any partitions, fetch orders, handler results, commit results and restarts, no
state has a committed offset above a message whose handler has not returned nil
if and only if every commit of the run comes after the success of every earlier
message fetched from its partition. -/
theorem subscribe_atLeastOnce_iff [DecidableEq P] {g g' : Group P Raw}
    {h : List (Transition (Group P Raw) GroupEvent)} (fresh : g.Fresh)
    (run : Trace Group.Step g h g') :
    (∀ e ∈ h, e.post.AtLeastOnce) ↔ ∀ e ∈ h, e.pre.CommitsInOrder e.label := by
  have consistent : ∀ e ∈ h, e.pre.Consistent ∧ e.post = e.pre.apply e.label :=
    run.invariant_mem fresh.consistent fun a l b step ok => step ▸ ok.apply l
  constructor
  · intro safe e member
    obtain ⟨ok, eq⟩ := consistent e member
    have after := safe e member
    rw [eq, Group.atLeastOnce_iff_handled (ok.apply _)] at after
    exact after.commitsInOrder
  · intro inOrder e member
    obtain ⟨ok, eq⟩ := consistent e member
    obtain ⟨front, back, rfl⟩ := List.append_of_mem member
    obtain ⟨before, _, _⟩ := run.split_cons
    have handled : e.pre.Handled := by
      refine (before.invariant (I := fun g => g.Consistent ∧ g.Handled) ⟨fresh.consistent, ?_⟩
        ?_).2
      · intro partition entry seen
        obtain ⟨result, bad⟩ := seen
        rw [fresh.deliveries] at bad
        cases bad
      · intro e' member' step inv
        have member' := List.mem_append_left (e :: back) member'
        rw [show e'.post = e'.pre.apply e'.label from step]
        exact ⟨inv.1.apply _, inv.2.apply inv.1 (inOrder e' member')⟩
    rw [eq, Group.atLeastOnce_iff_handled (ok.apply _)]
    exact handled.apply ok (inOrder e member)

/-- A topic with one partition of two messages, read from the start. -/
def twoMessages (outcome : Nat → Option Error) : Group Nat String where
  log _ := ⟨[⟨0, ⟨"tasks.worker.email", "task-1", "first"⟩⟩,
    ⟨1, ⟨"tasks.worker.email", "task-2", "second"⟩⟩], by simp⟩
  committed _ := 0
  position _ := 0
  deliveries := []
  script := { source := fun _ => .ok 0, outcome, commitFails := fun _ => false }

/-- Two iterations of the loop on these messages. -/
def twoIterations (outcome : Nat → Option Error) :
    List (Transition (Group Nat String) GroupEvent) :=
  [⟨twoMessages outcome, .iterate, (twoMessages outcome).iterate⟩,
    ⟨(twoMessages outcome).iterate, .iterate, (twoMessages outcome).iterate.iterate⟩]

theorem twoMessages_fresh (outcome : Nat → Option Error) : (twoMessages outcome).Fresh :=
  ⟨rfl, rfl⟩

theorem twoIterations_run (outcome : Nat → Option Error) :
    Trace Group.Step (twoMessages outcome) (twoIterations outcome)
      (twoMessages outcome).iterate.iterate :=
  (Trace.single rfl).snoc rfl

/-- The handler fails on the first message only. -/
def failsFirst : Nat → Option Error
  | 0 => some (.new "intentional failure")
  | _ + 1 => none

/-- The handler fails on the second message only. -/
def failsSecond : Nat → Option Error
  | 1 => some (.new "intentional failure")
  | _ => none

/-- A message that failed is passed over when the next one is committed. -/
theorem subscribe_skips_failed_message :
    ¬ ∀ (g g' : Group Nat String) (h : List (Transition (Group Nat String) GroupEvent)),
      g.Fresh → Trace Group.Step g h g' → ∀ e ∈ h, e.post.AtLeastOnce := by
  intro neverSkips
  have safe := neverSkips _ _ _ (twoMessages_fresh failsFirst) (twoIterations_run failsFirst)
    ⟨_, _, _⟩ (List.mem_cons_of_mem _ (List.mem_singleton_self _))
  have below := (safe 0 ⟨0, ⟨"tasks.worker.email", "task-1", "first"⟩⟩
    ⟨some (.new "intentional failure"), by decide⟩ (by unfold Group.Succeeded; decide)).1
  exact absurd below (by decide)

/-- With the failure last, the first message is committed and both states of the run
are safe. -/
theorem subscribe_atLeastOnce_failsSecond :
    (twoMessages failsSecond).iterate.iterate.committed 0 = 1 ∧
      ∀ e ∈ twoIterations failsSecond, e.post.AtLeastOnce := by
  refine ⟨rfl, (subscribe_atLeastOnce_iff (twoMessages_fresh failsSecond)
    (twoIterations_run failsSecond)).mpr ?_⟩
  intro e member
  rcases List.mem_cons.mp member with rfl | member
  · intro partition entry _ _ _ earlier seen
    obtain ⟨result, bad⟩ := seen
    cases bad
  · cases List.mem_singleton.mp member
    intro partition entry _ success
    cases success

end TaskFlow
