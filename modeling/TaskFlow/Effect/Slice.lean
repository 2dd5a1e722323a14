import Mathlib.Data.List.Basic
import Mathlib.Logic.Function.Iterate

/-!
# Slices over a shared array

A slice is the front part of a backing array.  Appending writes into the array
while it has room, so a slice cut to nothing and appended to overwrites the very
array that another slice is still being read from.

`Slice.filterInPlace` is the loop that compacts a slice into its own array.  It
reads from the array it writes to; `Ranging.Behind` is the invariant that makes
that sound: the write position never passes the read position, and whatever lies
from the read position on is as it was.
-/

namespace Effect

/-- The first `length` entries of a backing array. -/
structure Slice (α : Type) where
  backing : Array α
  length : Nat
  fits : length ≤ backing.size

namespace Slice

variable {α : Type}

/-- The entries of the slice. -/
def toList (s : Slice α) : List α :=
  s.backing.toList.take s.length

/-- A slice that fills its array. -/
def full (entries : List α) : Slice α :=
  ⟨entries.toArray, entries.length, by simp⟩

/-- Cut to nothing; the array stays. -/
def truncate (s : Slice α) : Slice α :=
  ⟨s.backing, 0, Nat.zero_le _⟩

/-- One more entry: written in place while the array has room, and otherwise into
a longer array. -/
def append (s : Slice α) (x : α) : Slice α :=
  if room : s.length < s.backing.size then
    ⟨s.backing.setIfInBounds s.length x, s.length + 1, by
      rw [Array.size_setIfInBounds]
      exact room⟩
  else
    ⟨s.backing.push x, s.length + 1, by simpa using s.fits⟩

@[simp] theorem append_length (s : Slice α) (x : α) : (s.append x).length = s.length + 1 := by
  unfold append
  split <;> rfl

/-- With room left, the array keeps its size and one entry of it changes. -/
theorem append_backing {s : Slice α} (room : s.length < s.backing.size) (x : α) :
    (s.append x).backing = s.backing.setIfInBounds s.length x := by
  unfold append
  rw [dif_pos room]

@[simp] theorem toList_append (s : Slice α) (x : α) :
    (s.append x).toList = s.toList ++ [x] := by
  unfold append
  split
  case isTrue room =>
    have written : (s.backing.toList.set s.length x)[s.length]? = some x := by
      rw [List.getElem?_set_self (by simpa using room)]
    simp only [toList, Array.toList_setIfInBounds]
    rw [List.take_add_one, List.take_set_of_le (Nat.le_refl _), written, Option.toList_some]
  case isFalse full =>
    have whole : s.length = s.backing.toList.length :=
      Nat.le_antisymm s.fits (Nat.le_of_not_lt full)
    simp only [toList, Array.toList_push]
    rw [whole, List.take_length]
    exact List.take_of_length_le (by simp)

end Slice

/-! ## The compacting loop -/

/-- The state of a loop over a slice that appends to another one in the same array:
the slice written so far and the index that is read next. -/
structure Ranging (α : Type) where
  kept : Slice α
  next : Nat

namespace Ranging

variable {α : Type} {keep : α → Bool} {s : Slice α} {k : Nat} {r : Ranging α}

/-- One iteration: read the next entry of the array and append it if it is kept. -/
def step (keep : α → Bool) (r : Ranging α) : Ranging α :=
  match r.kept.backing[r.next]? with
  | some x =>
      if keep x then { kept := r.kept.append x, next := r.next + 1 }
      else { r with next := r.next + 1 }
  | none => { r with next := r.next + 1 }

/-- Before the `k`-th iteration of a loop over `s`: at most `k` entries are written,
all into the array of `s`, which from index `k` on is as it was. -/
structure Behind (keep : α → Bool) (s : Slice α) (k : Nat) (r : Ranging α) : Prop where
  next : r.next = k
  behind : r.kept.length ≤ k
  inPlace : r.kept.backing.size = s.backing.size
  unread : ∀ m, k ≤ m → r.kept.backing[m]? = s.backing[m]?
  kept : r.kept.toList = (s.backing.toList.take k).filter keep

theorem Behind.start (keep : α → Bool) (s : Slice α) : Behind keep s 0 ⟨s.truncate, 0⟩ where
  next := rfl
  behind := Nat.le_refl 0
  inPlace := rfl
  unread := fun _ _ => rfl
  kept := rfl

theorem Behind.step (held : Behind keep s k r) (inside : k < s.backing.size) :
    Behind keep s (k + 1) (r.step keep) := by
  have reads : r.kept.backing[r.next]? = some s.backing[k] := by
    rw [held.next, held.unread k (Nat.le_refl k), Array.getElem?_eq_getElem inside]
  have grown : s.backing.toList.take (k + 1) = s.backing.toList.take k ++ [s.backing[k]] := by
    rw [List.take_add_one, Array.getElem?_toList, Array.getElem?_eq_getElem inside,
      Option.toList_some]
  have room : r.kept.length < r.kept.backing.size := by
    rw [held.inPlace]
    exact Nat.lt_of_le_of_lt held.behind inside
  unfold Ranging.step
  rw [reads]
  dsimp only
  split
  case isTrue keeps =>
    refine ⟨congrArg (· + 1) held.next, ?_, ?_, ?_, ?_⟩
    · rw [Slice.append_length]
      exact Nat.succ_le_succ held.behind
    · rw [Slice.append_backing room, Array.size_setIfInBounds, held.inPlace]
    · intro m later
      -- The write goes to an index at most `k`, so not to `m`.
      have elsewhere : r.kept.length ≠ m :=
        Nat.ne_of_lt (Nat.lt_of_le_of_lt held.behind later)
      rw [Slice.append_backing room, Array.getElem?_setIfInBounds, if_neg elsewhere]
      exact held.unread m (Nat.le_of_succ_le later)
    · rw [Slice.toList_append, held.kept, grown, List.filter_append, List.filter_singleton,
        keeps, cond_true]
  case isFalse drops =>
    refine ⟨congrArg (· + 1) held.next, Nat.le_succ_of_le held.behind, held.inPlace, ?_, ?_⟩
    · intro m later
      exact held.unread m (Nat.le_of_succ_le later)
    · have dropped : keep s.backing[k] = false := Bool.eq_false_iff.mpr drops
      rw [held.kept, grown, List.filter_append, List.filter_singleton, dropped, cond_false,
        List.append_nil]

/-- The invariant holds before each iteration and at the end. -/
theorem Behind.iterate (keep : α → Bool) (s : Slice α) (inside : k ≤ s.length) :
    Behind keep s k ((Ranging.step keep)^[k] ⟨s.truncate, 0⟩) := by
  induction k with
  | zero => exact Behind.start keep s
  | succ k ih =>
      rw [Function.iterate_succ_apply']
      exact (ih (Nat.le_of_succ_le inside)).step (Nat.lt_of_lt_of_le inside s.fits)

end Ranging

namespace Slice

variable {α : Type}

/-- Keep the entries that pass, written into the slice's own array. -/
def filterInPlace (keep : α → Bool) (s : Slice α) : Slice α :=
  ((Ranging.step keep)^[s.length] ⟨s.truncate, 0⟩).kept

@[simp] theorem toList_filterInPlace (keep : α → Bool) (s : Slice α) :
    (s.filterInPlace keep).toList = s.toList.filter keep :=
  (Ranging.Behind.iterate keep s (Nat.le_refl _)).kept

end Slice

end Effect
