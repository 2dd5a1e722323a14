import TaskFlow.Consumer

/-!
# What the sessions of a consumer group deliver

`Consumer` follows the committed offset of a group; here is what the handler is given.  A
session hands it the messages of a partition in the order of their offsets, from the
position the session started at, without a gap and none twice, however the fetches of
several partitions interleave and whatever the handler and the commits return.  Only a
restart reads a message again: over a whole run a message is delivered at most once more
than there are restarts, and once the group has passed a message it was delivered
(`subscribe_delivers`).
-/

namespace TaskFlow

open Effect

variable {P Raw : Type}

/-! ## Stretches of a partition -/

namespace PartitionLog

variable {log : PartitionLog Raw} {low mid high position : Nat} {first : LogEntry Raw}

/-- The messages with an offset from `low` on and below `high`. -/
def between (log : PartitionLog Raw) (low high : Nat) : List (LogEntry Raw) :=
  log.entries.filter fun entry => low ≤ entry.offset ∧ entry.offset < high

theorem between_self : log.between low low = [] := by
  refine List.filter_eq_nil_iff.mpr fun entry _ inside => ?_
  have bounds := of_decide_eq_true inside
  omega

/-- Two stretches that meet are one. -/
theorem between_append (lower : low ≤ mid) (upper : mid ≤ high) :
    log.between low mid ++ log.between mid high = log.between low high := by
  obtain ⟨entries, sorted⟩ := log
  unfold between
  dsimp only
  induction entries with
  | nil => rfl
  | cons entry entries ih =>
      obtain ⟨after, sorted⟩ := List.pairwise_cons.mp sorted
      rcases Nat.lt_or_ge entry.offset mid with before | passed
      · have outside : ¬ (mid ≤ entry.offset ∧ entry.offset < high) := by omega
        have same : (low ≤ entry.offset ∧ entry.offset < mid) ↔
            (low ≤ entry.offset ∧ entry.offset < high) := by omega
        simp only [List.filter_cons, outside, decide_false, Bool.false_eq_true, if_false, same]
        split
        · rw [List.cons_append, ih sorted]
        · exact ih sorted
      · -- From here on the offsets are all at or after the middle.
        have none : ∀ later ∈ entry :: entries, ¬ (low ≤ later.offset ∧ later.offset < mid) := by
          intro later member
          rcases List.mem_cons.mp member with rfl | member
          · omega
          · have := after later member
            omega
        have all : ∀ later ∈ entry :: entries, mid ≤ later.offset := by
          intro later member
          rcases List.mem_cons.mp member with rfl | member
          · exact passed
          · exact Nat.le_of_lt (Nat.lt_of_le_of_lt passed (after later member))
        have empty : (entry :: entries).filter (fun entry =>
            decide (low ≤ entry.offset ∧ entry.offset < mid)) = [] :=
          List.filter_eq_nil_iff.mpr fun later member inside =>
            none later member (of_decide_eq_true inside)
        rw [empty, List.nil_append]
        refine List.filter_congr fun later member => ?_
        have := all later member
        exact decide_eq_decide.mpr (by omega)

/-- A fetch takes the stretch up to the message it returns. -/
theorem between_fetch (fetched : log.fetch position = some first) :
    log.between position (first.offset + 1) = [first] := by
  obtain ⟨after, front, back, split, skipped⟩ := List.find?_eq_some_iff_append.mp fetched
  have sorted := log.sorted
  rw [split] at sorted
  have later := (List.pairwise_cons.mp (List.pairwise_append.mp sorted).2.1).1
  have reached : position ≤ first.offset := of_decide_eq_true after
  have before : front.filter (fun entry => decide (position ≤ entry.offset ∧
      entry.offset < first.offset + 1)) = [] := by
    refine List.filter_eq_nil_iff.mpr fun entry member inside => ?_
    have early := skipped entry member
    simp only [Bool.not_eq_true', decide_eq_false_iff_not] at early
    exact early (of_decide_eq_true inside).1
  have beyond : back.filter (fun entry => decide (position ≤ entry.offset ∧
      entry.offset < first.offset + 1)) = [] := by
    refine List.filter_eq_nil_iff.mpr fun entry member inside => ?_
    have late := later entry member
    have bounds := of_decide_eq_true inside
    omega
  unfold between
  rw [split, List.filter_append, before, List.nil_append, List.filter_cons, beyond]
  exact if_pos (decide_eq_true ⟨reached, Nat.lt_succ_self _⟩)

theorem mem_between {entry : LogEntry Raw} :
    entry ∈ log.between low high ↔
      entry ∈ log.entries ∧ low ≤ entry.offset ∧ entry.offset < high := by
  rw [between, List.mem_filter, decide_eq_true_eq]

/-- A stretch has every offset in it at most once. -/
theorem countP_between (offset : Nat) :
    (log.between low high).countP (fun entry => entry.offset = offset) ≤
      if low ≤ offset ∧ offset < high then 1 else 0 := by
  split
  · have increasing : (log.between low high).Pairwise fun a b => a.offset < b.offset :=
      log.sorted.sublist List.filter_sublist
    have offsets : ((log.between low high).map LogEntry.offset).Nodup := by
      rw [List.Nodup, List.pairwise_map]
      exact increasing.imp fun less => Nat.ne_of_lt less
    have once := List.nodup_iff_count_le_one.mp offsets offset
    rw [List.count, List.countP_map] at once
    exact once
  · rename_i outside
    refine Nat.le_of_eq (List.countP_eq_zero.mpr fun entry member same => outside ?_)
    rw [← of_decide_eq_true same]
    exact (mem_between.mp member).2

end PartitionLog

/-! ## One session -/

namespace Group

variable {g g' : Group P Raw} {p : P} {entry : LogEntry Raw}

theorem next_fetch (fetched : g.next = .ok (p, entry)) :
    (g.log p).fetch (g.position p) = some entry := by
  unfold next at fetched
  split at fetched
  · cases fetched
  · split at fetched
    · cases fetched
    · rename_i found
      cases fetched
      exact found

variable [DecidableEq P]

/-- The messages of one partition among some deliveries. -/
def entriesOf (p : P) (made : List (Delivery P Raw)) : List (LogEntry Raw) :=
  (made.filter fun d => d.partition = p).map Delivery.entry

theorem entriesOf_append {made later : List (Delivery P Raw)} :
    entriesOf p (made ++ later) = entriesOf p made ++ entriesOf p later := by
  simp only [entriesOf, List.filter_append, List.map_append]

/-- From `g` on, each partition was read through to the position it stands at. -/
structure ReadThrough (g g' : Group P Raw) : Prop where
  log : g'.log = g.log
  position : ∀ p, g.position p ≤ g'.position p
  made : ∃ made, g'.deliveries = g.deliveries ++ made ∧
    ∀ p, entriesOf p made = (g.log p).between (g.position p) (g'.position p)

theorem ReadThrough.refl (g : Group P Raw) : g.ReadThrough g :=
  ⟨rfl, fun _ => Nat.le_refl _, [], (List.append_nil _).symm,
    fun _ => PartitionLog.between_self.symm⟩

theorem ReadThrough.iterate (read : g.ReadThrough g') : g.ReadThrough g'.iterate := by
  cases fetched : g'.next with
  | error err =>
      rw [iterate_of_error fetched]
      exact ⟨read.log, read.position, read.made⟩
  | ok found =>
      obtain ⟨partition, entry⟩ := found
      obtain ⟨log, position, deliveries, _⟩ := iterate_of_ok fetched
      have passed := (next_ok fetched).2
      obtain ⟨made, before, stretch⟩ := read.made
      refine ⟨log.trans read.log, fun p => ?_, made ++ [⟨partition, entry, g'.script.outcome 0⟩],
        ?_, fun p => ?_⟩
      · have start := read.position p
        rw [position]
        by_cases same : p = partition
        · subst same
          rw [Function.update_self]
          omega
        · rwa [Function.update_of_ne same]
      · rw [deliveries, before, List.append_assoc]
      · rw [entriesOf_append, stretch p, position]
        by_cases same : p = partition
        · subst same
          have fetch := next_fetch fetched
          rw [read.log] at fetch
          have one : entriesOf p [⟨p, entry, g'.script.outcome 0⟩] =
              (g.log p).between (g'.position p) (entry.offset + 1) := by
            rw [PartitionLog.between_fetch fetch]
            simp only [entriesOf, List.filter_cons, decide_true, if_true, List.filter_nil,
              List.map_cons, List.map_nil]
          rw [Function.update_self, one]
          exact PartitionLog.between_append (read.position p) (Nat.le_succ_of_le passed)
        · have none : entriesOf p [⟨partition, entry, g'.script.outcome 0⟩] = [] := by
            simp [entriesOf, Ne.symm same]
          rw [Function.update_of_ne same, none, List.append_nil]

/-- A run without a restart reads every partition through. -/
theorem ReadThrough.of_session {h : List (Transition (Group P Raw) GroupEvent)}
    (run : Trace Group.Step g h g') (session : ∀ e ∈ h, e.label = .iterate) :
    g.ReadThrough g' := by
  refine run.invariant (I := g.ReadThrough) (.refl g) fun e member step read => ?_
  rw [session e member] at step
  rw [show e.post = e.pre.iterate from step]
  exact read.iterate

/-! ## A whole run -/

/-- How often the message at an offset was given to the handler. -/
def times (g : Group P Raw) (p : P) (offset : Nat) : Nat :=
  (entriesOf p g.deliveries).countP fun entry => entry.offset = offset

theorem fetched_iff : g.Fetched p entry ↔ entry ∈ entriesOf p g.deliveries := by
  simp only [Fetched, entriesOf, List.mem_map, List.mem_filter, decide_eq_true_eq]
  constructor
  · intro fetched
    obtain ⟨result, member⟩ := fetched
    exact ⟨_, ⟨member, rfl⟩, rfl⟩
  · intro delivered
    obtain ⟨d, ⟨member, rfl⟩, rfl⟩ := delivered
    exact ⟨d.result, member⟩

theorem ReadThrough.times_le (read : g.ReadThrough g') (p : P) (offset : Nat) :
    g'.times p offset ≤ g.times p offset +
      if g.position p ≤ offset ∧ offset < g'.position p then 1 else 0 := by
  obtain ⟨made, deliveries, stretch⟩ := read.made
  unfold times
  rw [deliveries, entriesOf_append, List.countP_append, stretch p]
  exact Nat.add_le_add_left (PartitionLog.countP_between offset) _

theorem ReadThrough.fetched (read : g.ReadThrough g') (member : entry ∈ (g.log p).entries)
    (passed : entry.offset < g'.position p) (new : g.position p ≤ entry.offset) :
    g'.Fetched p entry := by
  obtain ⟨made, deliveries, stretch⟩ := read.made
  rw [fetched_iff, deliveries, entriesOf_append, stretch p]
  exact List.mem_append_right _ (PartitionLog.mem_between.mpr ⟨member, new, passed⟩)

theorem ReadThrough.keeps (read : g.ReadThrough g') (before : g.Fetched p entry) :
    g'.Fetched p entry := by
  obtain ⟨made, deliveries, _⟩ := read.made
  rw [fetched_iff] at before ⊢
  rw [deliveries, entriesOf_append]
  exact List.mem_append_left _ before

/-- The restarts of a run. -/
def restarts (h : List (Transition (Group P Raw) GroupEvent)) : Nat :=
  h.countP fun e => match e.label with
    | .restart => true
    | .iterate => false

/-- What was delivered since `g`, with the restarts of `h`. -/
structure Delivered (g : Group P Raw) (h : List (Transition (Group P Raw) GroupEvent))
    (g' : Group P Raw) : Prop where
  consistent : g'.Consistent
  log : g'.log = g.log
  passed : ∀ p, ∀ entry ∈ (g.log p).entries, g.committed p ≤ entry.offset →
    entry.offset < g'.position p → g'.Fetched p entry
  times_le : ∀ p offset, g'.times p offset ≤
    restarts h + if offset < g'.position p then 1 else 0

theorem committed_iterate (ok : g.Consistent) (p : P) : g.committed p ≤ g.iterate.committed p := by
  cases fetched : g.next with
  | error err => rw [iterate_of_error fetched]
  | ok found =>
      obtain ⟨partition, entry⟩ := found
      obtain ⟨_, _, _, committed⟩ := iterate_of_ok fetched
      have passed := (next_ok fetched).2
      rw [committed]
      split
      · by_cases same : p = partition
        · subst same
          have behind := ok.committed_le p
          rw [Function.update_self]
          omega
        · rw [Function.update_of_ne same]
      · exact Nat.le_refl _

theorem committed_apply (ok : g.Consistent) (e : GroupEvent) (p : P) :
    g.committed p ≤ (g.apply e).committed p := by
  cases e with
  | iterate => exact committed_iterate ok p
  | restart => exact Nat.le_refl _

variable {h : List (Transition (Group P Raw) GroupEvent)}

theorem committed_run (ok : g.Consistent) (run : Trace Step g h g') (p : P) :
    g.committed p ≤ g'.committed p := by
  have both : g'.Consistent ∧ g.committed p ≤ g'.committed p := by
    apply run.invariant (I := fun here => here.Consistent ∧ g.committed p ≤ here.committed p)
    · exact ⟨ok, Nat.le_refl _⟩
    · intro e _ step before
      obtain ⟨here, label, after⟩ := e
      obtain rfl : after = here.apply label := step
      exact ⟨before.1.apply label, before.2.trans (committed_apply before.1 label p)⟩
  exact both.2

theorem Delivered.iterate (inv : Delivered g h g') : Delivered g
    (h ++ [⟨g', .iterate, g'.iterate⟩]) g'.iterate := by
  have read := (ReadThrough.refl g').iterate
  refine ⟨inv.consistent.apply .iterate, read.log.trans inv.log,
    fun p entry member start passed => ?_, fun p offset => ?_⟩
  · rcases Nat.lt_or_ge entry.offset (g'.position p) with before | new
    · exact read.keeps (inv.passed p entry member start before)
    · exact read.fetched (by rwa [inv.log]) passed new
  · have more := read.times_le p offset
    have before := inv.times_le p offset
    have onwards := read.position p
    have none : restarts (h ++ [⟨g', .iterate, g'.iterate⟩]) = restarts h := by simp [restarts]
    rw [none]
    split at more <;> split at before <;> split <;> omega

theorem Delivered.restart (inv : Delivered g h g') : Delivered g
    (h ++ [⟨g', .restart, g'.restart⟩]) g'.restart := by
  refine ⟨inv.consistent.apply .restart, inv.log,
    fun p entry member start passed => ?_, fun p offset => ?_⟩
  · exact inv.passed p entry member start (passed.trans_le (inv.consistent.committed_le p))
  · have before := inv.times_le p offset
    have one : restarts (h ++ [⟨g', .restart, g'.restart⟩]) = restarts h + 1 := by
      simp [restarts]
    have same : g'.restart.times p offset = g'.times p offset := rfl
    rw [one, same]
    split at before <;> split <;> omega

end Group

/-- **What the handler of a consumer group is given.**  Along every run of iterations and
restarts, over any partitions, fetch orders, handler results and commit results: from no
moment of it on does a committed offset go back; every message from the first committed
offset up to where the group stands was delivered; no message was delivered more than once
plus once for each restart; and in every part of the run without a restart each partition
is delivered in order, from where that part began, without gap or repetition. -/
theorem subscribe_delivers [DecidableEq P] {g g' : Group P Raw}
    {h : List (Transition (Group P Raw) GroupEvent)} (fresh : g.Fresh)
    (run : Trace Group.Step g h g') :
    (∀ x y a, h = x ++ y → Trace Group.Step g x a → Trace Group.Step a y g' →
      ∀ p, a.committed p ≤ g'.committed p) ∧
    (∀ p, ∀ entry ∈ (g.log p).entries, g.committed p ≤ entry.offset →
      entry.offset < g'.position p → g'.Fetched p entry) ∧
    (∀ p offset, g'.times p offset ≤ Group.restarts h + 1) ∧
    ∀ x y a, h = x ++ y → Trace Group.Step g x a → Trace Group.Step a y g' →
      (∀ e ∈ y, e.label = .iterate) → ∃ made, g'.deliveries = a.deliveries ++ made ∧
        ∀ p, Group.entriesOf p made = (g.log p).between (a.position p) (g'.position p) := by
  have start : Group.Delivered g [] g := by
    refine ⟨fresh.consistent, rfl, fun p entry _ low high => ?_,
      fun p offset => ?_⟩
    · rw [fresh.position] at high
      omega
    · simp [Group.times, Group.entriesOf, fresh.deliveries]
  have along : ∀ {x a}, Trace Group.Step g x a → Group.Delivered g x a := by
    intro x a part
    refine part.history (I := Group.Delivered g) start fun x e y _ step inv => ?_
    obtain ⟨before, label, after⟩ := e
    obtain rfl : after = before.apply label := step
    cases label with
    | iterate => exact inv.iterate
    | restart => exact inv.restart
  have whole := along run
  refine ⟨fun x y a _ first second => Group.committed_run (along first).consistent second,
    whole.passed, fun p offset => ?_, fun x y a _ first second session => ?_⟩
  · refine (whole.times_le p offset).trans (Nat.add_le_add_left ?_ _)
    split <;> omega
  · obtain ⟨made, deliveries, stretch⟩ := (Group.ReadThrough.of_session second session).made
    rw [(along first).log] at stretch
    exact ⟨made, deliveries, stretch⟩

/-- The first message fails, and is delivered again after a restart. -/
def readAgain : Group Nat String := (twoMessages failsFirst).iterate.restart.iterate.iterate

theorem Group.follow [DecidableEq P] {g g' : Group P Raw}
    {h : List (Transition (Group P Raw) GroupEvent)} (run : Trace Group.Step g h g')
    (e : GroupEvent) : Trace Group.Step g (h ++ [⟨g', e, g'.apply e⟩]) (g'.apply e) :=
  .snoc run rfl

theorem readAgain_run :
    ∃ h, Group.restarts h = 1 ∧ Trace Group.Step (twoMessages failsFirst) h readAgain :=
  ⟨_, rfl, Group.follow (Group.follow (Group.follow (Group.follow .nil .iterate) .restart)
    .iterate) .iterate⟩

/-- Two deliveries of the first message, one of the second, and no more of any. -/
theorem subscribe_delivers_readAgain :
    readAgain.times 0 0 = 2 ∧ readAgain.times 0 1 = 1 ∧
      ∀ p offset, readAgain.times p offset ≤ 2 := by
  obtain ⟨h, once, run⟩ := readAgain_run
  have bound := (subscribe_delivers (twoMessages_fresh failsFirst) run).2.2.1
  rw [once] at bound
  exact ⟨by decide, by decide, bound⟩

end TaskFlow
