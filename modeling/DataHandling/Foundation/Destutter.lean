import Mathlib.Data.List.Destutter

/-! Successive repetitions removed from a list that grows at its end. -/

namespace Destutter

variable {α : Type*} [DecidableEq α] {xs : List α}

theorem destutter'_concat (a : α) (xs : List α) (x : α) :
    (xs ++ [x]).destutter' (· ≠ ·) a =
      if (a :: xs).getLast? = some x then xs.destutter' (· ≠ ·) a
      else xs.destutter' (· ≠ ·) a ++ [x] := by
  induction xs generalizing a with
  | nil =>
    rw [List.nil_append, List.destutter'_singleton, List.destutter'_nil, List.getLast?_singleton]
    by_cases h : a = x
    · rw [if_neg (not_not.mpr h), if_pos (congrArg some h)]
    · rw [if_pos h, if_neg fun heq => h (Option.some.inj heq)]
      rfl
  | cons b xs ih =>
    rw [List.getLast?_cons_cons, List.cons_append]
    by_cases h : a ≠ b
    · rw [List.destutter'_cons_pos (h := h), List.destutter'_cons_pos (h := h), ih b]
      split_ifs <;> rfl
    · obtain rfl := not_not.mp h
      rw [List.destutter'_cons_neg (h := h), List.destutter'_cons_neg (h := h), ih a]

theorem destutter_concat (xs : List α) (x : α) :
    (xs ++ [x]).destutter (· ≠ ·) =
      if xs.getLast? = some x then xs.destutter (· ≠ ·) else xs.destutter (· ≠ ·) ++ [x] := by
  cases xs with
  | nil => rfl
  | cons a xs => exact destutter'_concat a xs x

omit [DecidableEq α] in
theorem pairwise_lt_of_isChain {key : α → ℕ} (hkey : Function.Injective key)
    (hle : xs.Pairwise fun x y => key x ≤ key y) (hne : xs.IsChain (· ≠ ·)) :
    xs.Pairwise fun x y => key x < key y := by
  induction xs with
  | nil => exact .nil
  | cons a xs ih =>
    rw [List.pairwise_cons] at hle
    have hrest := ih hle.2 hne.tail
    refine List.pairwise_cons.mpr ⟨fun b hb => ?_, hrest⟩
    cases xs with
    | nil => cases hb
    | cons c xs =>
      have hc : key a < key c := by
        apply lt_of_le_of_ne (hle.1 c List.mem_cons_self)
        intro heq
        exact (List.isChain_cons_cons.mp hne).1 (hkey heq)
      rcases List.mem_cons.mp hb with rfl | hmem
      · exact hc
      · exact hc.trans (List.rel_of_pairwise_cons hrest hmem)

theorem pairwise_lt_destutter {key : α → ℕ} (hkey : Function.Injective key)
    (hle : xs.Pairwise fun x y => key x ≤ key y) :
    (xs.destutter (· ≠ ·)).Pairwise fun x y => key x < key y :=
  pairwise_lt_of_isChain hkey (hle.sublist (List.destutter_sublist _ xs))
    (List.isChain_destutter _ xs)

end Destutter
