import TaskFlow.Retry
import Mathlib.Algebra.Order.Ring.Int
import Mathlib.Data.Nat.Find
import Mathlib.Tactic.Linarith
import Mathlib.Tactic.Ring

/-!
# When the backoff grows

The delay after attempt `a` is `BaseDelay * a²` in wrapping 64-bit arithmetic.  It
is exact while the product stays under `2^63`.  At the first attempt where it does
not, the wrapped delay is smaller than the one before it or negative, with one
exception: if that is attempt 2, four times the base delay may wrap past the sign
and still exceed the base delay.  Then attempt 3 shrinks, so the exception needs
exactly two waits.
-/

namespace TaskFlow

/-! ## Balanced remainders of a growing product -/

theorem bmod_exact {x : Int} (low : 0 ≤ x) (high : x < 2 ^ 63) : x.bmod (2 ^ 64) = x := by
  rw [Int.bmod_def]
  omega

/-- Past the sign bit, by less than a whole turn. -/
theorem bmod_turned {x : Int} (low : 2 ^ 63 ≤ x) (high : x < 3 * 2 ^ 63) :
    x.bmod (2 ^ 64) = x - 2 ^ 64 := by
  rw [Int.bmod_def]
  omega

/-- After three whole turns, before the sign bit. -/
theorem bmod_turned_thrice {x : Int} (low : 3 * 2 ^ 64 ≤ x) (high : x < 3 * 2 ^ 64 + 2 ^ 63) :
    x.bmod (2 ^ 64) = x - 3 * 2 ^ 64 := by
  rw [Int.bmod_def]
  omega

/-- From the third square on, the first product that does not fit wraps to less
than the one before it. -/
theorem bmod_drops {base i : Int} (nonneg : 0 ≤ base) (two : 2 ≤ i)
    (fits : base * (i * i) < 2 ^ 63) (exceeds : 2 ^ 63 ≤ base * ((i + 1) * (i + 1))) :
    (base * ((i + 1) * (i + 1))).bmod (2 ^ 64) < (base * (i * i)).bmod (2 ^ 64) := by
  have odd : 2 * i + 1 ≤ 2 * (i * i) := by nlinarith
  have gap : base * (2 * i + 1) ≤ 2 * (base * (i * i)) := by
    calc base * (2 * i + 1) ≤ base * (2 * (i * i)) := Int.mul_le_mul_of_nonneg_left odd nonneg
      _ = 2 * (base * (i * i)) := by ring
  have next : base * ((i + 1) * (i + 1)) = base * (i * i) + base * (2 * i + 1) := by ring
  have start : 0 ≤ base * (i * i) := Int.mul_nonneg nonneg (mul_self_nonneg i)
  rw [bmod_exact start fits, bmod_turned exceeds (by omega)]
  omega

/-- The first square whose product does not fit. -/
theorem exists_first_exceeding {base : Int} {n : Nat} (exceeds : 2 ^ 63 ≤ base * ((n : Int) * n)) :
    ∃ j ≤ n, 2 ^ 63 ≤ base * ((j : Int) * j) ∧ ∀ i < j, base * ((i : Int) * i) < 2 ^ 63 := by
  have exists_some : ∃ j : Nat, 2 ^ 63 ≤ base * ((j : Int) * j) := ⟨n, exceeds⟩
  refine ⟨Nat.find exists_some, Nat.find_min' exists_some exceeds, Nat.find_spec exists_some, ?_⟩
  intro i less
  exact Int.not_le.mp (Nat.find_min exists_some less)

namespace RetryConfig

variable {m : Type → Type} {cfg : RetryConfig m}

/-- The delays between the attempts of `Do` are non-negative and never decrease. -/
def BackoffGrows (cfg : RetryConfig m) : Prop :=
  ∀ a b : Nat, 1 ≤ a → a ≤ b → b < entitled cfg.maxAttempts →
    0 ≤ cfg.delay a ∧ cfg.delay a ≤ cfg.delay b

theorem toInt_delay (cfg : RetryConfig m) (a : Nat) :
    (cfg.delay a).toInt = (cfg.baseDelay.toInt * ((a : Int) * a)).bmod (2 ^ 64) := by
  unfold delay retryDelay
  rw [Int64.toInt_mul, Int64.toInt_mul, Int64.toInt_ofNat', Int.mul_bmod_bmod]
  rw [show Int64.size = 2 ^ 64 from rfl, ← Int.mul_assoc, Int.mul_bmod_bmod, Int.mul_right_comm,
    Int.mul_bmod_bmod, Int.mul_right_comm, Int.mul_assoc]

/-- The delay is exact where the product fits. -/
theorem toInt_delay_exact (nonneg : 0 ≤ cfg.baseDelay.toInt) {a : Nat}
    (fits : cfg.baseDelay.toInt * ((a : Int) * a) < 2 ^ 63) :
    (cfg.delay a).toInt = cfg.baseDelay.toInt * ((a : Int) * a) := by
  rw [toInt_delay]
  exact bmod_exact (Int.mul_nonneg nonneg (mul_self_nonneg _)) fits

theorem toInt_delay_one (nonneg : 0 ≤ cfg.baseDelay.toInt) :
    (cfg.delay 1).toInt = cfg.baseDelay.toInt := by
  have bound := cfg.baseDelay.toInt_lt
  rw [toInt_delay_exact nonneg (by omega)]
  omega

/-- A backoff in plain integers. -/
theorem BackoffGrows.toInt (grows : cfg.BackoffGrows) {a b : Nat} (one : 1 ≤ a) (le : a ≤ b)
    (last : b < entitled cfg.maxAttempts) :
    0 ≤ (cfg.delay a).toInt ∧ (cfg.delay a).toInt ≤ (cfg.delay b).toInt := by
  obtain ⟨low, ordered⟩ := grows a b one le last
  exact ⟨Int64.le_iff_toInt_le.mp low, Int64.le_iff_toInt_le.mp ordered⟩

/-- While the product of the last wait fits, all delays are exact. -/
theorem backoffGrows_of_fits (nonneg : 0 ≤ cfg.baseDelay.toInt)
    (fits : cfg.baseDelay.toInt * (((entitled cfg.maxAttempts - 1 : Nat) : Int) *
      ((entitled cfg.maxAttempts - 1 : Nat) : Int)) < 2 ^ 63) : cfg.BackoffGrows := by
  intro a b one le last
  have ordered : ∀ {x y : Nat}, x ≤ y →
      cfg.baseDelay.toInt * ((x : Int) * x) ≤ cfg.baseDelay.toInt * ((y : Int) * y) := by
    intro x y le
    have cast : (x : Int) ≤ y := Int.ofNat_le.mpr le
    exact Int.mul_le_mul_of_nonneg_left
      (mul_le_mul cast cast (Int.natCast_nonneg x) (Int.natCast_nonneg y)) nonneg
  have fitsB := Int.lt_of_le_of_lt (ordered (Nat.le_sub_one_of_lt last)) fits
  have fitsA := Int.lt_of_le_of_lt (ordered le) fitsB
  rw [Int64.le_iff_toInt_le, Int64.le_iff_toInt_le, toInt_delay_exact nonneg fitsA,
    toInt_delay_exact nonneg fitsB]
  exact ⟨Int.mul_nonneg nonneg (mul_self_nonneg _), ordered le⟩

/-- The exception: two waits, of which the second wraps past the base delay. -/
theorem backoffGrows_of_turned (three : entitled cfg.maxAttempts = 3)
    (low : 2 ^ 64 ≤ 3 * cfg.baseDelay.toInt) (high : cfg.baseDelay.toInt < 3 * 2 ^ 61) :
    cfg.BackoffGrows := by
  have nonneg : 0 ≤ cfg.baseDelay.toInt := by omega
  have first := toInt_delay_one nonneg
  have second : (cfg.delay 2).toInt = 4 * cfg.baseDelay.toInt - 2 ^ 64 := by
    rw [toInt_delay, bmod_turned (by omega) (by omega)]
    omega
  intro a b one le last
  rw [Int64.le_iff_toInt_le, Int64.le_iff_toInt_le, Int64.toInt_zero]
  have attempts : (a = 1 ∧ b = 1) ∨ (a = 1 ∧ b = 2) ∨ (a = 2 ∧ b = 2) := by omega
  rcases attempts with ⟨rfl, rfl⟩ | ⟨rfl, rfl⟩ | ⟨rfl, rfl⟩
  · omega
  · omega
  · omega

/-- A backoff that grows through attempt 2, although four base delays do not fit,
is the exception. -/
theorem BackoffGrows.turned (nonneg : 0 ≤ cfg.baseDelay.toInt) (grows : cfg.BackoffGrows)
    (waits : 2 < entitled cfg.maxAttempts) (exceeds : 2 ^ 63 ≤ 4 * cfg.baseDelay.toInt) :
    entitled cfg.maxAttempts = 3 ∧ 2 ^ 64 ≤ 3 * cfg.baseDelay.toInt ∧
      cfg.baseDelay.toInt < 3 * 2 ^ 61 := by
  have bound := cfg.baseDelay.toInt_lt
  have first := toInt_delay_one nonneg
  have second := toInt_delay cfg 2
  obtain ⟨_, firstSecond⟩ := grows.toInt (Nat.le_refl 1) (Nat.le_succ 1) waits
  obtain ⟨secondNonneg, _⟩ := grows.toInt (Nat.le_succ 1) (Nat.le_refl 2) waits
  rw [Int.bmod_def] at second
  have range : 2 ^ 64 ≤ 3 * cfg.baseDelay.toInt ∧ cfg.baseDelay.toInt < 3 * 2 ^ 61 := by
    omega
  refine ⟨?_, range⟩
  by_contra more
  have third : (cfg.delay 3).toInt = 9 * cfg.baseDelay.toInt - 3 * 2 ^ 64 := by
    rw [toInt_delay, bmod_turned_thrice (by omega) (by omega)]
    omega
  obtain ⟨_, secondThird⟩ := grows.toInt (a := 2) (b := 3) (Nat.le_succ 1) (by omega) (by omega)
  omega

/-- With a base delay that is not negative, the backoff grows exactly when the
delay before the last attempt fits in 63 bits, or in the exception of two waits. -/
theorem backoffGrows_iff (cfg : RetryConfig m) (nonneg : 0 ≤ cfg.baseDelay) :
    cfg.BackoffGrows ↔
      cfg.baseDelay.toInt * (((entitled cfg.maxAttempts - 1 : Nat) : Int) *
        ((entitled cfg.maxAttempts - 1 : Nat) : Int)) < 2 ^ 63 ∨
      (entitled cfg.maxAttempts = 3 ∧ 2 ^ 64 ≤ 3 * cfg.baseDelay.toInt ∧
        cfg.baseDelay.toInt < 3 * 2 ^ 61) := by
  replace nonneg : 0 ≤ cfg.baseDelay.toInt := Int64.le_iff_toInt_le.mp nonneg
  constructor
  · intro grows
    by_cases fits : cfg.baseDelay.toInt * (((entitled cfg.maxAttempts - 1 : Nat) : Int) *
        ((entitled cfg.maxAttempts - 1 : Nat) : Int)) < 2 ^ 63
    · exact Or.inl fits
    right
    -- `j` is the first attempt whose product does not fit.
    obtain ⟨j, waited, exceeds, least⟩ := exists_first_exceeding (Int.not_lt.mp fits)
    have bound := cfg.baseDelay.toInt_lt
    rcases Nat.lt_or_ge j 3 with small | large
    · obtain rfl | rfl | rfl : j = 0 ∨ j = 1 ∨ j = 2 := by omega
      · omega
      · omega
      · exact grows.turned nonneg (by omega) (by omega)
    · obtain ⟨i, rfl⟩ := Nat.exists_eq_add_of_le' large
      obtain ⟨_, ordered⟩ := grows.toInt (a := i + 2) (b := i + 3) (by omega) (by omega) (by omega)
      have drops := bmod_drops (i := (i : Int) + 2) nonneg (by omega) (least (i + 2) (by omega))
        exceeds
      rw [toInt_delay, toInt_delay] at ordered
      exact absurd drops (Int.not_lt.mpr ordered)
  · rintro (fits | ⟨three, low, high⟩)
    · exact backoffGrows_of_fits nonneg fits
    · exact backoffGrows_of_turned three low high

/-- Three attempts one second apart: the delays are exact and grow. -/
theorem backoffGrows_iff_three :
    (⟨3, 1000000000, none⟩ : RetryConfig Id).BackoffGrows :=
  (backoffGrows_iff ⟨3, 1000000000, none⟩ (by decide)).mpr (Or.inl (by decide))

/-- With a base delay of one second and 100000 attempts, the wait after attempt
96039 is negative. -/
theorem backoff_shrinks : (0 : Int64) ≤ 1000000000 ∧
    ¬ (⟨100000, 1000000000, none⟩ : RetryConfig Id).BackoffGrows := by
  refine ⟨by decide, fun grows => ?_⟩
  obtain ⟨nonneg, _⟩ := grows 96039 96039 (by decide) (Nat.le_refl _) (by decide)
  exact absurd nonneg (by decide)

end RetryConfig

end TaskFlow
