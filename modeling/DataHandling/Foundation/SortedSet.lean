import Mathlib.Data.List.Basic
import Mathlib.Tactic.Common

/-! Sets kept as sorted lists, over a comparison that is a strict weak order. Entries that
compare equivalent count as one. -/

namespace SortedSet

variable {α : Type*}

structure StrictWeakOrder (lt : α → α → Bool) : Prop where
  asymm : ∀ x y, lt x y = true → lt y x = false
  negTrans : ∀ x y z, lt x y = false → lt y z = false → lt x z = false

def Sorted (lt : α → α → Bool) (xs : List α) : Prop := xs.Pairwise fun x y => lt x y = true

def insert (lt : α → α → Bool) (x : α) : List α → Bool × List α
  | [] => (true, [x])
  | y :: ys =>
    if lt y x then ((insert lt x ys).1, y :: (insert lt x ys).2)
    else if lt x y then (true, x :: y :: ys)
    else (false, y :: ys)

def remove (lt : α → α → Bool) (x : α) : List α → Bool × List α
  | [] => (false, [])
  | y :: ys =>
    if lt y x then ((remove lt x ys).1, y :: (remove lt x ys).2)
    else if lt x y then (false, y :: ys)
    else (true, ys)

variable {lt : α → α → Bool} {x y : α} {xs : List α}

theorem StrictWeakOrder.trans (h : StrictWeakOrder lt) {x y z : α} (hxy : lt x y = true)
    (hyz : lt y z = true) : lt x z = true := by
  by_contra hxz
  have hzy := h.asymm y z hyz
  have := h.negTrans x z y (Bool.eq_false_iff.mpr hxz) hzy
  rw [hxy] at this
  cases this

theorem StrictWeakOrder.irrefl (h : StrictWeakOrder lt) (x : α) : lt x x = false := by
  by_contra hx
  have hlt := Bool.not_eq_false _ ▸ hx
  exact hx (h.asymm x x hlt)

theorem remove_head (h : StrictWeakOrder lt) (x : α) (xs : List α) :
    remove lt x (x :: xs) = (true, xs) := by
  rw [remove, h.irrefl, if_neg Bool.false_ne_true, if_neg Bool.false_ne_true]

theorem remove_sublist (x : α) (xs : List α) : (remove lt x xs).2.Sublist xs := by
  induction xs with
  | nil => exact .slnil
  | cons y ys ih =>
    rw [remove]
    split_ifs
    · exact ih.cons_cons y
    · exact .refl _
    · exact List.sublist_cons_self y ys

theorem insert_of_rejected (h : (insert lt x xs).1 = false) : (insert lt x xs).2 = xs := by
  induction xs with
  | nil => cases h
  | cons y ys ih =>
    rw [insert] at h ⊢
    split_ifs at h ⊢ with hyx hxy
    · exact congrArg (y :: ·) (ih h)
    · rfl

theorem mem_insert (h : (insert lt x xs).1 = true) :
    y ∈ (insert lt x xs).2 ↔ y = x ∨ y ∈ xs := by
  induction xs with
  | nil => simp [insert]
  | cons z zs ih =>
    rw [insert] at h ⊢
    split_ifs at h ⊢ with hzx hxz
    · simp only [List.mem_cons, ih h]
      exact or_left_comm
    · exact List.mem_cons

theorem filter_insert {p : α → Bool} (hx : p x = false) :
    (insert lt x xs).2.filter p = xs.filter p := by
  induction xs with
  | nil => simp [insert, hx]
  | cons y ys ih =>
    rw [insert]
    split_ifs
    · rw [List.filter_cons, List.filter_cons, ih]
    · rw [List.filter_cons_of_neg (by simp [hx])]
    · rfl

theorem Sorted.insert (h : StrictWeakOrder lt) (hs : Sorted lt xs) :
    Sorted lt (insert lt x xs).2 := by
  induction xs with
  | nil => exact List.pairwise_singleton _ _
  | cons y ys ih =>
    obtain ⟨hy, hys⟩ := List.pairwise_cons.mp hs
    rw [SortedSet.insert]
    split_ifs with hyx hxy
    · refine List.pairwise_cons.mpr ⟨fun z hz => ?_, ih hys⟩
      cases hin : (SortedSet.insert lt x ys).1 with
      | false => exact hy z (by rwa [insert_of_rejected hin] at hz)
      | true =>
        rcases (mem_insert hin).mp hz with rfl | hmem
        · exact hyx
        · exact hy z hmem
    · refine List.pairwise_cons.mpr ⟨fun z hz => ?_, hs⟩
      rcases List.mem_cons.mp hz with rfl | hmem
      · exact hxy
      · exact h.trans hxy (hy z hmem)
    · exact hs

theorem insert_of_above (h : ∀ y ∈ xs, lt y x = true) : insert lt x xs = (true, xs ++ [x]) := by
  induction xs with
  | nil => rfl
  | cons y ys ih =>
    rw [insert, if_pos (h y List.mem_cons_self),
      ih fun z hz => h z (List.mem_cons_of_mem _ hz)]
    rfl

theorem insert_fst_iff (h : StrictWeakOrder lt) (hs : Sorted lt xs) :
    (insert lt x xs).1 = true ↔ ∀ y ∈ xs, lt y x = true ∨ lt x y = true := by
  induction xs with
  | nil => simp [insert]
  | cons y ys ih =>
    obtain ⟨hy, hys⟩ := List.pairwise_cons.mp hs
    rw [insert]
    split_ifs with hyx hxy
    · simp [ih hys, hyx]
    · refine iff_of_true rfl fun z hz => ?_
      rcases List.mem_cons.mp hz with rfl | hmem
      · exact .inr hxy
      · exact .inr (h.trans hxy (hy z hmem))
    · simp [hyx, hxy]

theorem Sorted.getLast?_eq_some_iff (h : StrictWeakOrder lt) (hs : Sorted lt xs) :
    xs.getLast? = some x ↔ x ∈ xs ∧ ∀ y ∈ xs, lt x y = false := by
  rcases List.eq_nil_or_concat xs with rfl | ⟨ys, z, rfl⟩
  · simp
  rw [List.concat_eq_append] at hs ⊢
  rw [List.getLast?_concat, Option.some.injEq]
  have hbelow : ∀ y ∈ ys, lt y z = true := fun y hy =>
    (List.pairwise_append.mp hs).2.2 y hy z (List.mem_singleton_self z)
  constructor
  · rintro rfl
    refine ⟨by simp, fun y hy => ?_⟩
    rcases List.mem_append.mp hy with hmem | hmem
    · exact h.asymm y z (hbelow y hmem)
    · rw [List.mem_singleton.mp hmem, h.irrefl]
  · rintro ⟨hx, hmax⟩
    rcases List.mem_append.mp hx with hmem | hmem
    · have hxz := hbelow x hmem
      rw [hmax z (by simp)] at hxz
      cases hxz
    · exact (List.mem_singleton.mp hmem).symm

end SortedSet
