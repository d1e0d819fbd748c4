import Mathlib.Data.List.Perm.Basic

/-! Counting the entries of a list that pass a test, where one entry is taken out. -/

namespace Counting

variable {α : Type*} {xs : List α} {i : ℕ} {a : α}

theorem countP_eraseIdx (p : α → Bool) (h : xs[i]? = some a) :
    (xs.eraseIdx i).countP p + (if p a then 1 else 0) = xs.countP p := by
  obtain ⟨hi, rfl⟩ := List.getElem?_eq_some_iff.mp h
  rw [← (List.getElem_cons_eraseIdx_perm hi).countP_eq p, List.countP_cons]

theorem countP_set (p : α → Bool) (b : α) (h : xs[i]? = some a) :
    (xs.set i b).countP p + (if p a then 1 else 0) = xs.countP p + if p b then 1 else 0 := by
  induction xs generalizing i with
  | nil => cases h
  | cons x xs ih =>
    cases i with
    | zero =>
      cases h
      simp only [List.set_cons_zero, List.countP_cons]
      omega
    | succ i =>
      have hrec := ih (by simpa using h)
      simp only [List.set_cons_succ, List.countP_cons]
      omega

theorem mem_set_of_ne {b c : α} (h : xs[i]? = some a) (hc : c ∈ xs) (hne : c ≠ a) :
    c ∈ xs.set i b := by
  obtain ⟨j, hj, rfl⟩ := List.getElem_of_mem hc
  obtain ⟨hi, rfl⟩ := List.getElem?_eq_some_iff.mp h
  have hij : i ≠ j := by
    rintro rfl
    exact hne rfl
  have hj' : j < (xs.set i b).length := by rwa [List.length_set]
  have hget : (xs.set i b)[j] = xs[j] := List.getElem_set_ne hij hj'
  rw [← hget]
  exact List.getElem_mem hj'

theorem countP_and_not (p q : α → Bool) :
    xs.countP p = xs.countP (fun x => p x && !q x) + xs.countP (fun x => p x && q x) := by
  induction xs with
  | nil => rfl
  | cons x xs ih =>
    simp only [List.countP_cons, ih]
    cases p x <;> cases q x <;> simp <;> omega

end Counting
