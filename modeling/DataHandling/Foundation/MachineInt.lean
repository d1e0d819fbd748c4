import Mathlib.Data.Nat.Basic
import Mathlib.Tactic.Common

/-! Fixed-width machine arithmetic on natural numbers: 32-bit unsigned values are numbers
below `2^32`, and a cast to a signed 32-bit integer is two's complement. -/

namespace MachineInt

def u32 (n : ℕ) : ℕ := n % 4294967296

def u64 (n : ℕ) : ℕ := n % 18446744073709551616

def i32 (n : ℤ) : ℤ :=
  if n % 4294967296 < 2147483648 then n % 4294967296 else n % 4294967296 - 4294967296

def toSize (n : ℤ) : ℕ := (n % 18446744073709551616).toNat

def u32Max : ℕ := 4294967295

theorem u32_of_lt {n : ℕ} (h : n < 4294967296) : u32 n = n := Nat.mod_eq_of_lt h

theorem u64_of_lt {n : ℕ} (h : n < 18446744073709551616) : u64 n = n := Nat.mod_eq_of_lt h

theorem i32_of_lt {n : ℕ} (h : n < 2147483648) : i32 n = n := by
  unfold i32
  split_ifs <;> omega

theorem i32_spec (n : ℤ) :
    ∃ k, n = i32 n + 4294967296 * k ∧ -2147483648 ≤ i32 n ∧ i32 n < 2147483648 := by
  unfold i32
  split_ifs with hn
  · exact ⟨n / 4294967296, by omega, by omega, by omega⟩
  · exact ⟨n / 4294967296 + 1, by omega, by omega, by omega⟩

theorem i32_congr {m n : ℤ} (h : m % 4294967296 = n % 4294967296) : i32 m = i32 n := by
  rw [i32, i32, h]

theorem i32_sub_i32 (m n : ℤ) : i32 (i32 m - i32 n) = i32 (m - n) := by
  obtain ⟨j, hj, -, -⟩ := i32_spec m
  obtain ⟨k, hk, -, -⟩ := i32_spec n
  exact i32_congr (by omega)

theorem i32_add_i32 (m n : ℤ) : i32 (i32 m + i32 n) = i32 (m + n) := by
  obtain ⟨j, hj, -, -⟩ := i32_spec m
  obtain ⟨k, hk, -, -⟩ := i32_spec n
  exact i32_congr (by omega)

theorem i32_succ_ne_zero {n : ℕ} (hn : n < 2147483648) : i32 ((n + 1 : ℕ) : ℤ) ≠ 0 := by
  obtain ⟨k, hk, _, _⟩ := i32_spec ((n + 1 : ℕ) : ℤ)
  omega

theorem i32_pred_of_succ {n : ℕ} (hn : n < 2147483648) : i32 (i32 ((n + 1 : ℕ) : ℤ) - 1) = n := by
  obtain ⟨k, hk, _, _⟩ := i32_spec ((n + 1 : ℕ) : ℤ)
  obtain ⟨l, hl, _, _⟩ := i32_spec (i32 ((n + 1 : ℕ) : ℤ) - 1)
  omega

theorem toSize_natCast {n : ℕ} (h : n < 18446744073709551616) : toSize n = n := by
  unfold toSize
  omega

theorem toSize_sub {m n : ℕ} (h : n ≤ m) (hm : m < 18446744073709551616) :
    toSize (m - n) = m - n := by
  unfold toSize
  omega

theorem toSize_of_nonneg {n : ℤ} (h0 : 0 ≤ n) (h : n < 2147483648) : (toSize n : ℤ) = n := by
  unfold toSize
  omega

theorem le_toSize_of_neg {n : ℤ} (h0 : n < 0) (h : -2147483648 ≤ n) : 4294967296 ≤ toSize n := by
  unfold toSize
  omega

theorem toSize_inj {m n : ℤ} (hm0 : -2147483648 ≤ m) (hm : m < 2147483648)
    (hn0 : -2147483648 ≤ n) (hn : n < 2147483648) : toSize m = toSize n ↔ m = n := by
  unfold toSize
  omega

theorem toSize_eq_zero_iff {n : ℤ} (h0 : -2147483648 ≤ n) (h : n < 2147483648) :
    toSize n = 0 ↔ n = 0 := by
  unfold toSize
  omega

end MachineInt
