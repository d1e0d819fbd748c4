import Mathlib.Data.List.Basic
import Mathlib.Logic.Function.Basic
import Mathlib.Tactic.Common

/-! Writing a list value by value into a memory whose first `size` places are used as a ring. -/

namespace RingWrite

variable {α : Type*} {size pos i k : ℕ} {xs ys : List α} {buf : ℕ → α}

/-- Write the values one after the other at `pos`, `pos + 1`, ... modulo `size`. -/
def ringWrite (size : ℕ) : ℕ → List α → (ℕ → α) → ℕ → α
  | _, [], buf => buf
  | pos, x :: xs, buf => ringWrite size (pos + 1) xs (Function.update buf (pos % size) x)

/-- Write the values at `pos`, `pos + 1`, ... without a turn. -/
def overlay (pos : ℕ) (xs : List α) (buf : ℕ → α) : ℕ → α :=
  fun k => if pos ≤ k then (xs[k - pos]?).getD (buf k) else buf k

theorem overlay_nil (pos : ℕ) (buf : ℕ → α) : overlay pos [] buf = buf := by
  funext k
  simp [overlay]

theorem overlay_cons (pos : ℕ) (x : α) (xs : List α) (buf : ℕ → α) :
    overlay pos (x :: xs) buf = overlay (pos + 1) xs (Function.update buf pos x) := by
  funext k
  unfold overlay
  rcases Nat.lt_trichotomy k pos with hlt | rfl | hgt
  · rw [if_neg (Nat.not_le.mpr hlt), if_neg (by omega), Function.update_of_ne (Nat.ne_of_lt hlt)]
  · rw [if_pos (Nat.le_refl _), if_neg (Nat.not_succ_le_self _), Function.update_self,
      Nat.sub_self]
    rfl
  · rw [if_pos (Nat.le_of_lt hgt), if_pos (Nat.succ_le_of_lt hgt),
      Function.update_of_ne (Nat.ne_of_gt hgt),
      show k - pos = k - (pos + 1) + 1 by omega, List.getElem?_cons_succ]

theorem ringWrite_append (size pos : ℕ) (xs ys : List α) (buf : ℕ → α) :
    ringWrite size pos (xs ++ ys) buf =
      ringWrite size (pos + xs.length) ys (ringWrite size pos xs buf) := by
  induction xs generalizing pos buf with
  | nil => rfl
  | cons x xs ih =>
    rw [List.cons_append, ringWrite, ih, ringWrite, List.length_cons]
    congr 1
    omega

theorem ringWrite_congr {p q : ℕ} (h : p % size = q % size) :
    ringWrite size p xs buf = ringWrite size q xs buf := by
  induction xs generalizing p q buf with
  | nil => rfl
  | cons x xs ih =>
    rw [ringWrite, ringWrite, h]
    exact ih (by rw [Nat.add_mod, h, ← Nat.add_mod])

theorem ringWrite_of_fits (h : pos + xs.length ≤ size) :
    ringWrite size pos xs buf = overlay pos xs buf := by
  induction xs generalizing pos buf with
  | nil => exact (overlay_nil pos buf).symm
  | cons x xs ih =>
    rw [List.length_cons] at h
    rw [ringWrite, overlay_cons, Nat.mod_eq_of_lt (by omega)]
    exact ih (by omega)

theorem ringWrite_of_untouched (h : ∀ i < xs.length, (pos + i) % size ≠ k) :
    ringWrite size pos xs buf k = buf k := by
  induction xs generalizing pos buf with
  | nil => rfl
  | cons x xs ih =>
    rw [ringWrite, ih fun i hi => ?_]
    · exact Function.update_of_ne (h 0 (Nat.succ_pos _)).symm _ _
    · rw [Nat.add_assoc, Nat.add_comm 1]
      exact h (i + 1) (Nat.succ_lt_succ hi)

theorem ringWrite_of_last (hi : i < xs.length) (hlast : xs.length ≤ i + size) :
    ringWrite size pos xs buf ((pos + i) % size) = xs[i] := by
  induction xs generalizing pos buf i with
  | nil => exact absurd hi (Nat.not_lt_zero _)
  | cons x xs ih =>
    rw [List.length_cons] at hi hlast
    cases i with
    | zero =>
      rw [ringWrite, ringWrite_of_untouched fun j hj hmod => ?_]
      · exact Function.update_self _ _ _
      · -- fewer than `size` places on, a slot is another one
        have hdvd : (j + 1) % size = 0 := by
          have hsub := Nat.sub_mod_eq_zero_of_mod_eq hmod
          rwa [show pos + 1 + j - (pos + 0) = j + 1 by omega] at hsub
        rw [Nat.mod_eq_of_lt (by omega)] at hdvd
        omega
    | succ i =>
      rw [ringWrite, show pos + (i + 1) = pos + 1 + i by omega, List.getElem_cons_succ]
      exact ih (by omega) (by omega)

/-- Every slot that is written to is written to by one of the last `size` values. -/
theorem exists_last (hsize : 0 < size) {n : ℕ} (hi : i < n) (pos : ℕ) :
    ∃ j < n, n ≤ j + size ∧ (pos + j) % size = (pos + i) % size := by
  have hdiv := Nat.div_add_mod (n - 1 - i) size
  have hmod := Nat.mod_lt (n - 1 - i) hsize
  refine ⟨i + size * ((n - 1 - i) / size), by omega, by omega, ?_⟩
  rw [← Nat.add_assoc, Nat.add_mul_mod_self_left]

/-- Two writes of equal length leave the same memory just if their last `size` values agree. -/
theorem ringWrite_eq_iff (hsize : 0 < size) (hlen : xs.length = ys.length) :
    ringWrite size pos xs buf = ringWrite size pos ys buf ↔
      ∀ i < xs.length, xs.length ≤ i + size → xs[i]? = ys[i]? := by
  constructor
  · intro h i hi hlast
    have hat := congrFun h ((pos + i) % size)
    rw [ringWrite_of_last hi hlast, ringWrite_of_last (hlen ▸ hi) (hlen ▸ hlast)] at hat
    rw [List.getElem?_eq_getElem hi, List.getElem?_eq_getElem (hlen ▸ hi), hat]
  · intro h
    funext k
    by_cases hk : ∃ i < xs.length, (pos + i) % size = k
    · obtain ⟨i, hi, rfl⟩ := hk
      obtain ⟨j, hj, hlast, hmod⟩ := exists_last hsize hi pos
      have hat := h j hj hlast
      rw [List.getElem?_eq_getElem hj, List.getElem?_eq_getElem (hlen ▸ hj)] at hat
      rw [← hmod, ringWrite_of_last hj hlast, ringWrite_of_last (hlen ▸ hj) (hlen ▸ hlast)]
      exact Option.some.inj hat
    · have hfree : ∀ i < xs.length, (pos + i) % size ≠ k := fun i hi hmod => hk ⟨i, hi, hmod⟩
      rw [ringWrite_of_untouched hfree, ringWrite_of_untouched (hlen ▸ hfree)]

theorem forall_last_append {as bs : List α} (hlen : xs.length = as.length)
    (hlen' : ys.length = bs.length) :
    (∀ i < (as ++ bs).length, (as ++ bs).length ≤ i + size → (xs ++ ys)[i]? = (as ++ bs)[i]?) ↔
      (∀ i < as.length, as.length + bs.length ≤ i + size → xs[i]? = as[i]?) ∧
        ∀ i < bs.length, bs.length ≤ i + size → ys[i]? = bs[i]? := by
  rw [List.length_append, ← hlen, ← hlen']
  constructor
  · intro h
    refine ⟨fun i hi hlast => ?_, fun i hi hlast => ?_⟩
    · have hat := h i (by omega) hlast
      rwa [List.getElem?_append_left hi, List.getElem?_append_left (hlen ▸ hi)] at hat
    · have hat := h (xs.length + i) (by omega) (by omega)
      rwa [List.getElem?_append_right (Nat.le_add_right _ _),
        List.getElem?_append_right (hlen ▸ Nat.le_add_right _ _), ← hlen,
        Nat.add_sub_cancel_left] at hat
  · rintro ⟨hleft, hright⟩ i hi hlast
    rcases Nat.lt_or_ge i xs.length with hlt | hge
    · rw [List.getElem?_append_left hlt, List.getElem?_append_left (hlen ▸ hlt)]
      exact hleft i hlt hlast
    · rw [List.getElem?_append_right hge, List.getElem?_append_right (hlen ▸ hge), ← hlen]
      exact hright (i - xs.length) (by omega) (by omega)

end RingWrite
