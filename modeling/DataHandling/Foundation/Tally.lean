import DataHandling.Foundation.MachineInt
import Mathlib.Algebra.BigOperators.Group.List.Basic
import Mathlib.Algebra.Ring.Nat

/-! Two signed 32-bit counters of the same events: the first is exchanged for zero whenever it is
published, the second is only read. A tally knows how often each was incremented since it was set
up, and what was published. -/

open MachineInt

structure Tally where
  num : ℤ
  sum : ℤ
  counted : ℕ
  summed : ℕ
  nums : List ℕ
  sums : List (ℕ × ℕ)

namespace Tally

def zero : Tally := ⟨0, 0, 0, 0, [], []⟩

def incrementNum (t : Tally) : Tally := { t with num := i32 (t.num + 1), counted := t.counted + 1 }

def incrementSum (t : Tally) : Tally := { t with sum := i32 (t.sum + 1), summed := t.summed + 1 }

def resetNum (t : Tally) : Tally := { t with num := 0 }

def resetSum (t : Tally) : Tally := { t with sum := 0 }

def publishNum (t : Tally) : Tally := { t with num := 0, nums := t.nums ++ [toSize t.num] }

def publishSum (t : Tally) : Tally := { t with sums := t.sums ++ [(toSize t.sum, t.summed)] }

/-- The published numbers and the residue add up to the number of events, and the sums are the
number of events. -/
structure Conserved (t : Tally) : Prop where
  residue : t.nums.sum + toSize t.num = t.counted
  total : toSize t.sum = t.summed
  published : ∀ p ∈ t.sums, p.1 = p.2
  num_range : 0 ≤ t.num ∧ t.num < 2147483648
  sum_range : 0 ≤ t.sum ∧ t.sum < 2147483648

variable {t : Tally}

theorem conserved_zero : Conserved zero :=
  ⟨rfl, rfl, nofun, by decide, by decide⟩

theorem toSize_succ {n : ℤ} (h0 : 0 ≤ n) (hlt : n < 2147483647) :
    toSize (i32 (n + 1)) = toSize n + 1 ∧ 0 ≤ i32 (n + 1) ∧ i32 (n + 1) < 2147483648 := by
  obtain ⟨k, hk, _, _⟩ := i32_spec (n + 1)
  unfold toSize
  omega

theorem Conserved.incrementNum (h : t.Conserved) (hlt : t.num < 2147483647) :
    t.incrementNum.Conserved := by
  obtain ⟨hsucc, hrange⟩ := toSize_succ h.num_range.1 hlt
  refine ⟨?_, h.total, h.published, hrange, h.sum_range⟩
  have hresidue := h.residue
  simp only [Tally.incrementNum, hsucc]
  omega

theorem Conserved.incrementSum (h : t.Conserved) (hlt : t.sum < 2147483647) :
    t.incrementSum.Conserved := by
  obtain ⟨hsucc, hrange⟩ := toSize_succ h.sum_range.1 hlt
  refine ⟨h.residue, ?_, h.published, h.num_range, hrange⟩
  simp only [Tally.incrementSum, hsucc, h.total]

theorem Conserved.resetNum (h : t.Conserved) (hzero : t.num = 0) : t.resetNum.Conserved := by
  have heq : t.resetNum = t := by rw [Tally.resetNum, ← hzero]
  rwa [heq]

theorem Conserved.resetSum (h : t.Conserved) (hzero : t.sum = 0) : t.resetSum.Conserved := by
  have heq : t.resetSum = t := by rw [Tally.resetSum, ← hzero]
  rwa [heq]

theorem Conserved.publishNum (h : t.Conserved) : t.publishNum.Conserved := by
  have hpos : (0 : ℤ) < 2147483648 := by decide
  refine ⟨?_, h.total, h.published, ⟨Int.le_refl _, hpos⟩, h.sum_range⟩
  have hresidue := h.residue
  have hzero : toSize 0 = 0 := rfl
  simp only [Tally.publishNum, List.sum_append, List.sum_singleton, hzero]
  omega

theorem Conserved.publishSum (h : t.Conserved) : t.publishSum.Conserved := by
  refine ⟨h.residue, h.total, fun p hp => ?_, h.num_range, h.sum_range⟩
  rcases List.mem_append.mp hp with hold | hnew
  · exact h.published p hold
  · rw [List.mem_singleton.mp hnew]
    exact h.total

theorem Conserved.eq_zero (h : t.Conserved) (hcounted : t.counted = 0) (hsummed : t.summed = 0) :
    t.num = 0 ∧ t.sum = 0 := by
  have hresidue := h.residue
  have htotal := h.total
  have hnum := toSize_of_nonneg h.num_range.1 h.num_range.2
  have hsum := toSize_of_nonneg h.sum_range.1 h.sum_range.2
  omega

end Tally
