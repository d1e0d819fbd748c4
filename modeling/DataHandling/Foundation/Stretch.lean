import Mathlib.Data.List.Basic
import Mathlib.Data.Nat.Basic

/-! Stretches of a list, copied entry by entry, and lists that are made of blocks of one length. -/

namespace Stretch

variable {α β : Type*} {n : ℕ} {block : α → List β}

def stretch (xs : List β) (a b : ℕ) : List β := (xs.take b).drop a

section Stretches
variable {xs ys : List β} {a b : ℕ}

theorem stretch_self : stretch xs a a = [] :=
  List.drop_eq_nil_of_le (List.length_take_le _ _)

theorem length_stretch (hb : b ≤ xs.length) : (stretch xs a b).length = b - a := by
  rw [stretch, List.length_drop, List.length_take_of_le hb]

theorem stretch_succ (hab : a ≤ b) {x : β} (hx : xs[b]? = some x) :
    stretch xs a (b + 1) = stretch xs a b ++ [x] := by
  obtain ⟨hb, rfl⟩ := List.getElem?_eq_some_iff.mp hx
  rw [stretch, stretch, List.take_succ_eq_append_getElem hb, List.drop_append_of_le_length]
  rw [List.length_take_of_le (Nat.le_of_lt hb)]
  exact hab

theorem stretch_of_prefix (h : xs <+: ys) (hb : b ≤ xs.length) :
    stretch ys a b = stretch xs a b := by
  obtain ⟨zs, rfl⟩ := h
  rw [stretch, stretch, List.take_append_of_le_length hb]

theorem stretch_isInfix : stretch xs a b <:+: xs :=
  (List.drop_suffix _ _).isInfix.trans (List.take_prefix _ _).isInfix

theorem stretch_prefix_drop : stretch xs a b <+: xs.drop a := by
  rw [stretch, List.drop_take]
  exact List.take_prefix _ _

end Stretches

section Blocks
variable (hblock : ∀ x, (block x).length = n)
include hblock

theorem length_flatMap (xs : List α) : (xs.flatMap block).length = xs.length * n := by
  induction xs with
  | nil => simp
  | cons x xs ih =>
    rw [List.flatMap_cons, List.length_append, hblock, ih, List.length_cons, Nat.succ_mul,
      Nat.add_comm]

theorem drop_flatMap (xs : List α) (k : ℕ) :
    (xs.flatMap block).drop (k * n) = (xs.drop k).flatMap block := by
  induction xs generalizing k with
  | nil => simp
  | cons x xs ih =>
    cases k with
    | zero => simp
    | succ k =>
      have hlen : (k + 1) * n = (block x).length + k * n := by
        rw [hblock, Nat.succ_mul, Nat.add_comm]
      rw [List.flatMap_cons, hlen, List.drop_append, List.drop_eq_nil_of_le (Nat.le_add_right _ _),
        List.nil_append, Nat.add_sub_cancel_left, ih, List.drop_succ_cons]

theorem take_flatMap (xs : List α) (k : ℕ) :
    (xs.flatMap block).take (k * n) = (xs.take k).flatMap block := by
  induction xs generalizing k with
  | nil => simp
  | cons x xs ih =>
    cases k with
    | zero => simp
    | succ k =>
      have hlen : (k + 1) * n = (block x).length + k * n := by
        rw [hblock, Nat.succ_mul, Nat.add_comm]
      rw [List.flatMap_cons, hlen, List.take_append, List.take_of_length_le (Nat.le_add_right _ _),
        Nat.add_sub_cancel_left, ih, List.take_succ_cons, List.flatMap_cons]

theorem getElem?_flatMap (hn : 0 < n) (xs : List α) (i : ℕ) :
    (xs.flatMap block)[i]? = xs[i / n]?.bind fun x => (block x)[i % n]? := by
  have hsplit : i / n * n + i % n = i := Nat.div_add_mod' i n
  have hdrop := drop_flatMap hblock xs (i / n)
  have hentry : (xs.flatMap block)[i]? = ((xs.drop (i / n)).flatMap block)[i % n]? := by
    rw [← hdrop, List.getElem?_drop, hsplit]
  rw [hentry]
  have hmod := Nat.mod_lt i hn
  cases hxs : xs[i / n]? with
  | none =>
    rw [List.drop_eq_nil_of_le (List.getElem?_eq_none_iff.mp hxs)]
    rfl
  | some x =>
    obtain ⟨hlt, rfl⟩ := List.getElem?_eq_some_iff.mp hxs
    rw [List.drop_eq_getElem_cons hlt, List.flatMap_cons, Option.bind_some,
      List.getElem?_append_left (by rw [hblock]; exact hmod)]

end Blocks

theorem prefix_flatMap {xs ys : List α} (h : xs <+: ys) :
    xs.flatMap block <+: ys.flatMap block := by
  obtain ⟨zs, rfl⟩ := h
  rw [List.flatMap_append]
  exact List.prefix_append _ _

end Stretch
