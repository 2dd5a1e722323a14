import TaskFlow.Effect.Slice

/-!
# Message headers as a map

`HeaderCarrier` presents the header slice of a Kafka message to the trace
propagator as a map from keys to values.  A header list may name a key more than
once; `Set` removes every entry of its key by compacting the slice into its own
array while it ranges over it, and appends the new entry.

Values are byte strings, as Go's conversions between `string` and `[]byte` keep
the bytes.
-/

namespace TaskFlow

open Effect

structure Header where
  key : String
  value : List UInt8
  deriving DecidableEq, Repr

abbrev HeaderCarrier := Slice Header

namespace HeaderCarrier

/-- The value of the first header with this key, or the empty string. -/
def get (c : HeaderCarrier) (key : String) : List UInt8 :=
  match c.toList.find? (·.key == key) with
  | some h => h.value
  | none => []

/-- The loop of `set` after `k` iterations: from `filtered := (*c)[:0]` on, the
headers of other keys are appended to `filtered`. -/
def ranging (c : HeaderCarrier) (key : String) (k : Nat) : Ranging Header :=
  (Ranging.step (·.key != key))^[k] ⟨c.truncate, 0⟩

/-- The whole loop, and the new header appended to what it kept. -/
def set (c : HeaderCarrier) (key : String) (value : List UInt8) : HeaderCarrier :=
  (c.ranging key c.length).kept.append ⟨key, value⟩

def keys (c : HeaderCarrier) : List String :=
  c.toList.map (·.key)

variable (c : HeaderCarrier) (key : String) (value : List UInt8)

theorem toList_set :
    (c.set key value).toList = c.toList.filter (·.key != key) ++ [⟨key, value⟩] := by
  have kept : (c.ranging key c.length).kept = c.filterInPlace (·.key != key) := rfl
  unfold set
  rw [Slice.toList_append, kept, Slice.toList_filterInPlace]

/-- No header of the key survives the filter. -/
theorem find?_removed : (c.toList.filter (·.key != key)).find? (·.key == key) = none := by
  simp [List.find?_eq_none]

theorem get_set_self : (c.set key value).get key = value := by
  unfold get
  rw [toList_set, List.find?_append, find?_removed]
  simp

theorem get_set_other {other : String} (differs : other ≠ key) :
    (c.set key value).get other = c.get other := by
  have appended : ([⟨key, value⟩] : List Header).find? (·.key == other) = none := by
    simp [differs.symm]
  -- A header of the other key passes the filter, so the first one stays the first.
  have passes : (fun h : Header => decide ((h.key != key) = true ∧ (h.key == other) = true)) =
      fun h => h.key == other := by
    funext h
    by_cases same : h.key = other
    · simp [same, differs]
    · simp [same]
  unfold get
  rw [toList_set, List.find?_append, appended, Option.or_none, List.find?_filter,
    passes]

theorem count_keys_set : (c.set key value).keys.count key = 1 := by
  have removed : key ∉ (c.toList.filter (·.key != key)).map (·.key) := by
    simp
  unfold keys
  rw [toList_set, List.map_append, List.count_append, List.count_eq_zero_of_not_mem removed]
  simp

theorem toList_set_set (second : List UInt8) :
    ((c.set key value).set key second).toList = (c.set key second).toList := by
  simp [toList_set, List.filter_append, List.filter_filter]

/-- `Set` is last-write-wins.  Its loop is never ahead of its reads: before each
iteration it has written at most as many entries as it has read, into the same
array, whose unread entries are untouched.  It leaves the headers of the other
keys in order and the new one after them, and so behaves as an update of a map. -/
theorem set_last_write_wins :
    (∀ k < c.length, (c.ranging key k).next = k ∧ (c.ranging key k).kept.length ≤ k ∧
      (c.ranging key k).kept.backing.size = c.backing.size ∧
      ∀ m, k ≤ m → (c.ranging key k).kept.backing[m]? = c.backing[m]?) ∧
    (c.set key value).toList = c.toList.filter (·.key != key) ++ [⟨key, value⟩] ∧
    (c.set key value).get key = value ∧
    (∀ other, other ≠ key → (c.set key value).get other = c.get other) ∧
    (c.set key value).keys.count key = 1 ∧
    ∀ second, ((c.set key value).set key second).toList = (c.set key second).toList := by
  refine ⟨?_, toList_set c key value, get_set_self c key value, ?_, count_keys_set c key value,
    toList_set_set c key value⟩
  · intro k inside
    have held := Ranging.Behind.iterate (·.key != key) c (Nat.le_of_lt inside)
    exact ⟨held.next, held.behind, held.inPlace, held.unread⟩
  · intro other differs
    exact get_set_other c key value differs

-- Two entries of the key before and after another one: both go, the other stays.
example : (set (.full [⟨"a", [1]⟩, ⟨"b", [2]⟩, ⟨"a", [3]⟩]) "a" [4]).toList =
    [⟨"b", [2]⟩, ⟨"a", [4]⟩] := by decide

end HeaderCarrier

end TaskFlow
