import DataHandling.Foundation.MachineInt
import Mathlib.Algebra.BigOperators.Group.List.Basic
import Mathlib.Algebra.Ring.Nat

/-! A signed 32-bit counter of events that is exchanged for zero whenever it is published, in 64
bits. The counter may wrap. -/

open MachineInt

structure Ledger where
  value : Int32
  published : List ℕ

namespace Ledger

def total (l : Ledger) : ℕ := l.published.sum + toSize l.value.toInt

/-- The ledger of `n` events: the total is right as far as 32 bits tell, and right as a number as
long as the events fit in the counter. -/
structure Records (l : Ledger) (n : ℕ) : Prop where
  residue : l.total % 4294967296 = n % 4294967296
  exact : n < 2147483648 → l.total = n

variable {l : Ledger} {n : ℕ}

theorem records_zero : Records ⟨0, []⟩ 0 := ⟨rfl, fun _ => rfl⟩

theorem toSize_toInt_mod (v : Int32) :
    (toSize v.toInt : ℤ) % 4294967296 = v.toInt % 4294967296 := by
  unfold toSize
  omega

theorem toInt_succ_emod (v : Int32) :
    (v + 1).toInt % 4294967296 = (v.toInt + 1) % 4294967296 := by
  have hadd : (v + 1).toInt = (v.toInt + 1).bmod 4294967296 := Int32.toInt_add v 1
  rw [hadd]
  exact Int.bmod_emod

theorem toSize_succ_of_lt {v : Int32} (h : toSize v.toInt < 2147483647) :
    toSize (v + 1).toInt = toSize v.toInt + 1 := by
  have hmod := toInt_succ_emod v
  have hlo := Int32.le_toInt (v + 1)
  have hhi := Int32.toInt_lt (v + 1)
  have hlo' := Int32.le_toInt v
  have hhi' := Int32.toInt_lt v
  unfold toSize at h ⊢
  omega

theorem Records.increment (h : l.Records n) : Records { l with value := l.value + 1 } (n + 1) := by
  refine ⟨?_, fun hlt => ?_⟩
  · have hold := toSize_toInt_mod l.value
    have hnew := toSize_toInt_mod (l.value + 1)
    have hsucc := toInt_succ_emod l.value
    have hresidue := h.residue
    unfold total at hresidue ⊢
    dsimp only
    omega
  · have hexact := h.exact (by omega)
    unfold total at hexact ⊢
    dsimp only
    rw [toSize_succ_of_lt (by omega)]
    omega

theorem Records.publish (h : l.Records n) :
    Records ⟨0, l.published ++ [toSize l.value.toInt]⟩ n := by
  have htotal : total ⟨0, l.published ++ [toSize l.value.toInt]⟩ = l.total := by
    have hzero : toSize (0 : Int32).toInt = 0 := rfl
    simp only [total, List.sum_append, List.sum_singleton, hzero, Nat.add_zero]
  refine ⟨?_, ?_⟩
  · rw [htotal]
    exact h.residue
  · rw [htotal]
    exact h.exact

end Ledger
