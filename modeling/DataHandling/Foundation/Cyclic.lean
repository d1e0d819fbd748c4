import Mathlib.Data.Nat.Basic
import Mathlib.Tactic.Common

/-! Positions on a circle of `size` slots, counted from a first slot. -/

namespace Cyclic

def slot (size first i : ℕ) : ℕ := if first + i < size then first + i else first + i - size

def distance (size first last : ℕ) : ℕ :=
  if first ≤ last then last - first else size + last - first

variable {size first i j : ℕ}

theorem slot_lt (_ : first < size) (hi : i < size) : slot size first i < size := by
  unfold slot
  split_ifs <;> omega

theorem slot_zero (hf : first < size) : slot size first 0 = first := by
  simp only [slot, Nat.add_zero, hf, if_true]

theorem slot_inj (_ : first < size) (hi : i < size) (hj : j < size)
    (h : slot size first i = slot size first j) : i = j := by
  unfold slot at h
  split_ifs at h <;> omega

theorem slot_succ (hf : first < size) (hi : i < size) :
    (if slot size first i + 1 = size then 0 else slot size first i + 1) =
      slot size first (i + 1) := by
  unfold slot
  split_ifs <;> omega

theorem slot_advance (hf : first < size) (hi : i + 1 < size) :
    slot size (slot size first 1) i = slot size first (i + 1) := by
  unfold slot
  split_ifs <;> omega

theorem distance_lt (hf : first < size) (hj : j < size) : distance size first j < size := by
  unfold distance
  split_ifs <;> omega

theorem slot_distance (hf : first < size) (hj : j < size) :
    slot size first (distance size first j) = j := by
  unfold slot distance
  split_ifs <;> omega

theorem distance_slot (hf : first < size) (hi : i < size) :
    distance size first (slot size first i) = i := by
  unfold slot distance
  split_ifs <;> omega

theorem distance_eq_emod (hf : first < size) (hj : j < size) :
    (distance size first j : ℤ) = ((j : ℤ) - first) % size := by
  unfold distance
  split_ifs with hle
  · rw [Int.emod_eq_of_lt (by omega) (by omega)]
    omega
  · rw [← Int.add_emod_right, Int.emod_eq_of_lt (by omega) (by omega)]
    omega

theorem slot_mod {x : ℕ} (hpos : 0 < size) (hi : i < size) :
    slot size (x % size) i = (x + i) % size := by
  have hx := Nat.mod_lt x hpos
  rw [slot, ← Nat.mod_add_mod]
  split_ifs with hlt
  · exact (Nat.mod_eq_of_lt hlt).symm
  · have hle := Nat.not_lt.mp hlt
    rw [Nat.mod_eq_sub_mod hle]
    exact (Nat.mod_eq_of_lt (by omega)).symm

theorem add_mod_cases {x d : ℕ} (hx : x < size) (hd : d < size) :
    (x + d < size ∧ (x + d) % size = x + d) ∨ (size ≤ x + d ∧ (x + d) % size + size = x + d) := by
  rcases Nat.lt_or_ge (x + d) size with hlt | hge
  · exact .inl ⟨hlt, Nat.mod_eq_of_lt hlt⟩
  · refine .inr ⟨hge, ?_⟩
    rw [Nat.mod_eq_sub_mod hge, Nat.mod_eq_of_lt (by omega), Nat.sub_add_cancel hge]

theorem mod_inj {x y : ℕ} (hxy : x ≤ y) (hy : y < x + size) (h : x % size = y % size) : x = y := by
  have hzero : (y - x) % size = 0 := Nat.sub_mod_eq_zero_of_mod_eq h.symm
  rw [Nat.mod_eq_of_lt (by omega)] at hzero
  omega

end Cyclic
