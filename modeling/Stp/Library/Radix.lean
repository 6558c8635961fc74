import Mathlib.Algebra.Order.Floor.Semiring
import Mathlib.Data.Nat.Bitwise

/-!
# Blocks of numbers

Cutting a number at bit `k` leaves the index `n / 2 ^ k` of the aligned block of length `2 ^ k`
that holds it. A hierarchical structure indexed by digits compares numbers by the blocks they
share, and a counter that moves by one leaves a block exactly when it reaches a multiple of its
length. Both facts are stated here for arbitrary positions.
-/

namespace Radix

/-- The index of the aligned block of length `2 ^ k` that holds `n`. -/
def block (k n : Nat) : Nat := n / 2 ^ k

theorem block_add (k w n : Nat) : block (k + w) n = block k n / 2 ^ w := by
  rw [block, block, Nat.pow_add, Nat.div_div_eq_div_mul]

theorem block_mono (k : Nat) {a b : Nat} (hab : a ≤ b) : block k a ≤ block k b :=
  Nat.div_le_div_right hab

theorem lt_of_block_lt {k a b : Nat} (hlt : block k a < block k b) : a < b :=
  Nat.lt_of_not_le fun hba => Nat.not_le.mpr hlt (block_mono k hba)

theorem block_eq_of_le {k m a b : Nat} (hkm : k ≤ m) (hab : block k a = block k b) :
    block m a = block m b := by
  obtain ⟨w, rfl⟩ := Nat.exists_eq_add_of_le hkm
  rw [block_add, block_add, hab]

theorem block_eq_digit_add (k w n : Nat) :
    block k n = 2 ^ w * block (k + w) n + block k n % 2 ^ w := by
  rw [block_add]
  exact (Nat.div_add_mod _ _).symm

theorem digit_pos_of_block_lt {k w a b : Nat} (hab : block (k + w) a = block (k + w) b)
    (hlt : block k a < block k b) : 0 < block k b % 2 ^ w := by
  have ha := block_eq_digit_add k w a
  have hb := block_eq_digit_add k w b
  rw [hab] at ha
  omega

/-- Filling every bit below `k` forgets the offset and nothing else. -/
theorem or_mask_eq_iff (k a b : Nat) :
    a ||| (2 ^ k - 1) = b ||| (2 ^ k - 1) ↔ block k a = block k b := by
  constructor
  · intro h
    apply Nat.eq_of_testBit_eq
    intro i
    have hbit := congrArg (fun n => n.testBit (i + k)) h
    simpa [block, Nat.testBit_div_two_pow, Nat.testBit_two_pow_sub_one, Nat.add_comm] using hbit
  · intro h
    apply Nat.eq_of_testBit_eq
    intro i
    by_cases hi : i < k
    · simp [Nat.testBit_two_pow_sub_one, hi]
    · obtain ⟨j, rfl⟩ := Nat.exists_eq_add_of_le (Nat.le_of_not_lt hi)
      have hbit := congrArg (fun n => n.testBit j) h
      simpa [block, Nat.testBit_div_two_pow, Nat.testBit_two_pow_sub_one, Nat.add_comm] using hbit

/-- Clearing every bit below `k` leaves the start of the block. -/
theorem and_not_mask {k w : Nat} (hk : k ≤ w) {n : Nat} (hn : n < 2 ^ w) :
    n &&& (2 ^ w - 1 - (2 ^ k - 1)) = 2 ^ k * block k n := by
  have hmask : 2 ^ k - 1 < 2 ^ w :=
    Nat.lt_of_lt_of_le (Nat.sub_lt (Nat.two_pow_pos k) Nat.one_pos)
      (Nat.pow_le_pow_right (by decide) hk)
  apply Nat.eq_of_testBit_eq
  intro i
  rw [Nat.testBit_and, Nat.sub_sub, Nat.add_comm 1, Nat.testBit_two_pow_sub_succ hmask,
    Nat.testBit_two_pow_sub_one, Nat.testBit_two_pow_mul, block, Nat.testBit_div_two_pow]
  by_cases hi : i < w
  · by_cases hik : k ≤ i
    · simp [hi, hik, Nat.sub_add_cancel hik]
    · simp [hik, Nat.lt_of_not_le hik]
  · have hbit : n.testBit i = false :=
      Nat.testBit_lt_two_pow (Nat.lt_of_lt_of_le hn
        (Nat.pow_le_pow_right (by decide) (Nat.le_of_not_lt hi)))
    have hik : k ≤ i := by omega
    simp [hbit, hik, Nat.sub_add_cancel hik]

/-! ### A counter moving by one -/

section Succ

variable {k n : Nat}

theorem block_succ_of_not_dvd (hdvd : ¬ 2 ^ k ∣ n + 1) : block k (n + 1) = block k n := by
  simp [block, Nat.succ_div, hdvd]

theorem block_succ_of_dvd (hdvd : 2 ^ k ∣ n + 1) : block k (n + 1) = block k n + 1 := by
  simp [block, Nat.succ_div, hdvd]

/-- A number in a block the counter has just entered, or a later one, is not behind the counter. -/
theorem le_of_block_le_of_dvd {m : Nat} (hdvd : 2 ^ k ∣ n) (hle : block k n ≤ block k m) :
    n ≤ m := by
  calc n = block k n * 2 ^ k := (Nat.div_mul_cancel hdvd).symm
    _ ≤ block k m * 2 ^ k := Nat.mul_le_mul_right _ hle
    _ ≤ m := Nat.div_mul_le_self _ _

theorem dvd_add_iff_digit_eq_zero {w : Nat} (hdvd : 2 ^ k ∣ n) :
    2 ^ (k + w) ∣ n ↔ block k n % 2 ^ w = 0 := by
  obtain ⟨c, rfl⟩ := hdvd
  rw [block, Nat.mul_div_cancel_left _ (Nat.two_pow_pos k), Nat.pow_add,
    Nat.mul_dvd_mul_iff_left (Nat.two_pow_pos k), Nat.dvd_iff_mod_eq_zero]

end Succ

end Radix
