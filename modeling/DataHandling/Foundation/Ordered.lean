import Mathlib.Data.List.Basic
import Mathlib.Data.List.Pairwise
import Mathlib.Data.Nat.Basic
import Mathlib.Order.Lattice

/-! Lists sorted by a key: the first position whose key reaches a bound. -/

namespace Ordered

variable {α κ : Type*} [LinearOrder κ] {key : α → κ} {xs : List α} {k : κ}

/-- The first position whose key is not below `k`, the length if there is none. -/
def lowerBound (key : α → κ) (xs : List α) (k : κ) : ℕ :=
  xs.findIdx fun x => decide (k ≤ key x)

def StrictlyIncreasing (key : α → κ) (xs : List α) : Prop :=
  xs.Pairwise fun x y => key x < key y

theorem lowerBound_le_length : lowerBound key xs k ≤ xs.length :=
  List.findIdx_le_length

theorem lt_of_lt_lowerBound {i : ℕ} (hi : i < lowerBound key xs k) (hlen : i < xs.length) :
    key xs[i] < k := by
  have h := List.not_of_lt_findIdx hi
  simpa only [decide_eq_false_iff_not, not_le] using h

theorem le_key_lowerBound (hlen : lowerBound key xs k < xs.length) :
    k ≤ key xs[lowerBound key xs k] :=
  of_decide_eq_true (List.findIdx_getElem (w := hlen))

theorem StrictlyIncreasing.key_lt (h : StrictlyIncreasing key xs) {i j : ℕ} (hij : i < j)
    (hj : j < xs.length) : key xs[i] < key xs[j] :=
  List.pairwise_iff_getElem.mp h i j _ hj hij

theorem StrictlyIncreasing.key_le (h : StrictlyIncreasing key xs) {i j : ℕ} (hij : i ≤ j)
    (hj : j < xs.length) : key xs[i] ≤ key xs[j] := by
  rcases Nat.lt_or_eq_of_le hij with hlt | rfl
  · exact (h.key_lt hlt hj).le
  · exact le_rfl

theorem le_getLast_of_pairwise (h : xs.Pairwise fun x y => key x ≤ key y) {last : α}
    (hlast : xs.getLast? = some last) : ∀ x ∈ xs, key x ≤ key last := by
  intro x hx
  have : Std.Refl fun x y : α => key x ≤ key y := ⟨fun _ => le_rfl⟩
  rw [List.getLast?_eq_some_getLast (List.ne_nil_of_mem hx), Option.some.injEq] at hlast
  rw [← hlast]
  exact h.rel_getLast hx

theorem StrictlyIncreasing.le_getLast (h : StrictlyIncreasing key xs) {last : α}
    (hlast : xs.getLast? = some last) : ∀ x ∈ xs, key x ≤ key last :=
  le_getLast_of_pairwise (h.imp le_of_lt) hlast

theorem StrictlyIncreasing.le_key (h : StrictlyIncreasing key xs) {i : ℕ}
    (hi : lowerBound key xs k ≤ i) (hlen : i < xs.length) : k ≤ key xs[i] :=
  (le_key_lowerBound (Nat.lt_of_le_of_lt hi hlen)).trans (h.key_le hi hlen)

theorem StrictlyIncreasing.drop_eq_take_iff (h : StrictlyIncreasing key xs) {n : ℕ}
    (hn : n ≤ xs.length) : xs.drop n = xs.take (xs.length - n) ↔ n = 0 ∨ n = xs.length := by
  constructor
  · intro heq
    by_contra hne
    push Not at hne
    have hfirst := congrArg (·[0]?) heq
    have h0 : 0 < xs.length := by omega
    have hlt : n < xs.length := by omega
    simp only [List.getElem?_drop, Nat.add_zero, List.getElem?_eq_getElem hlt] at hfirst
    rw [List.getElem?_take_of_lt (by omega), List.getElem?_eq_getElem h0, Option.some.injEq]
      at hfirst
    have hkey := h.key_lt (Nat.pos_of_ne_zero hne.1) hlt
    rw [hfirst] at hkey
    exact lt_irrefl _ hkey
  · rintro (rfl | rfl)
    · simp
    · simp

theorem lowerBound_eq {p : ℕ} (hp : p ≤ xs.length)
    (hbelow : ∀ i (_ : i < p) (hlen : i < xs.length), key xs[i] < k)
    (hat : ∀ hlen : p < xs.length, k ≤ key xs[p]) : lowerBound key xs k = p := by
  rcases Nat.lt_trichotomy (lowerBound key xs k) p with hlt | heq | hgt
  · have hlen : lowerBound key xs k < xs.length := Nat.lt_of_lt_of_le hlt hp
    exact absurd (hbelow _ hlt hlen) (not_lt.mpr (le_key_lowerBound hlen))
  · exact heq
  · have hlen : p < xs.length := Nat.lt_of_lt_of_le hgt lowerBound_le_length
    exact absurd (lt_of_lt_lowerBound hgt hlen) (not_lt.mpr (hat hlen))

theorem lowerBound_le_of_le_key {p : ℕ} (hp : p < xs.length) (h : k ≤ key xs[p]) :
    lowerBound key xs k ≤ p := by
  by_contra hlt
  exact absurd (lt_of_lt_lowerBound (not_le.mp hlt) hp) (not_lt.mpr h)

theorem le_lowerBound_of_forall {p : ℕ} (hp : p ≤ xs.length)
    (hbelow : ∀ i (_ : i < p) (hlen : i < xs.length), key xs[i] < k) :
    p ≤ lowerBound key xs k := by
  by_contra hlt
  have hlen : lowerBound key xs k < xs.length := Nat.lt_of_lt_of_le (not_le.mp hlt) hp
  exact absurd (hbelow _ (not_le.mp hlt) hlen) (not_lt.mpr (le_key_lowerBound hlen))

theorem lowerBound_drop {r : ℕ} (hr : r ≤ lowerBound key xs k) :
    lowerBound key (xs.drop r) k = lowerBound key xs k - r := by
  have hle : lowerBound key xs k ≤ xs.length := lowerBound_le_length
  refine lowerBound_eq ?_ (fun i hi hlen => ?_) fun hlen => ?_
  · rw [List.length_drop]
    exact Nat.sub_le_sub_right hle r
  · rw [List.getElem_drop]
    exact lt_of_lt_lowerBound (by omega) _
  · rw [List.length_drop] at hlen
    have hat : k ≤ key xs[lowerBound key xs k] := le_key_lowerBound (by omega)
    simpa only [List.getElem_drop, Nat.add_sub_cancel' hr] using hat

theorem lowerBound_concat {x : α} (hx : k ≤ key x) :
    lowerBound key (xs ++ [x]) k = lowerBound key xs k := by
  have hlast : [x].findIdx (fun x => decide (k ≤ key x)) = 0 := by
    rw [List.findIdx_cons, decide_eq_true hx]
    rfl
  have hle : lowerBound key xs k ≤ xs.length := lowerBound_le_length
  unfold lowerBound at hle ⊢
  rw [List.findIdx_append, hlast]
  split_ifs <;> omega

theorem lowerBound_of_isPrefix {ys : List α} (h : xs <+: ys)
    (hlt : lowerBound key xs k < xs.length) :
    lowerBound key ys k = lowerBound key xs k := by
  obtain ⟨rest, rfl⟩ := h
  unfold lowerBound at hlt ⊢
  rw [List.findIdx_append, if_pos hlt]

theorem forall_mem_take {k : ℕ} {p : α → Prop}
    (h : ∀ i (_ : i < k) (hlen : i < xs.length), p xs[i]) : ∀ x ∈ xs.take k, p x := by
  intro x hx
  obtain ⟨i, hi, rfl⟩ := List.getElem_of_mem hx
  rw [List.length_take] at hi
  rw [List.getElem_take]
  exact h i (by omega) (by omega)

theorem forall_mem_drop {k : ℕ} {p : α → Prop}
    (h : ∀ i (_ : k ≤ i) (hlen : i < xs.length), p xs[i]) : ∀ x ∈ xs.drop k, p x := by
  intro x hx
  obtain ⟨i, hi, rfl⟩ := List.getElem_of_mem hx
  rw [List.length_drop] at hi
  rw [List.getElem_drop]
  exact h (k + i) (Nat.le_add_right k i) (by omega)

theorem lt_of_mem_take_lowerBound : ∀ x ∈ xs.take (lowerBound key xs k), key x < k :=
  forall_mem_take fun _ hi hlen => lt_of_lt_lowerBound hi hlen

theorem StrictlyIncreasing.le_of_mem_drop_lowerBound (h : StrictlyIncreasing key xs) :
    ∀ x ∈ xs.drop (lowerBound key xs k), k ≤ key x :=
  forall_mem_drop fun _ hi hlen => h.le_key hi hlen

theorem StrictlyIncreasing.mem_drop_lowerBound_iff (h : StrictlyIncreasing key xs) {x : α} :
    x ∈ xs.drop (lowerBound key xs k) ↔ x ∈ xs ∧ k ≤ key x := by
  constructor
  · exact fun hx => ⟨List.mem_of_mem_drop hx, h.le_of_mem_drop_lowerBound x hx⟩
  · rintro ⟨hx, hk⟩
    rw [← List.take_append_drop (lowerBound key xs k) xs] at hx
    refine (List.mem_append.mp hx).resolve_left fun htake => ?_
    exact absurd (lt_of_mem_take_lowerBound x htake) (not_lt.mpr hk)

theorem StrictlyIncreasing.concat (h : StrictlyIncreasing key xs) {x : α}
    (hx : ∀ y ∈ xs.getLast?, key y < key x) : StrictlyIncreasing key (xs ++ [x]) := by
  refine List.pairwise_append.mpr ⟨h, List.pairwise_singleton _ x, fun y hy z hz => ?_⟩
  obtain rfl := List.mem_singleton.mp hz
  have hlast := List.getLast?_eq_some_getLast (List.ne_nil_of_mem hy)
  exact (h.le_getLast hlast y hy).trans_lt (hx _ hlast)

theorem StrictlyIncreasing.filter_lt (h : StrictlyIncreasing key xs) :
    xs.filter (fun x => decide (key x < k)) = xs.take (lowerBound key xs k) := by
  conv_lhs => rw [← List.take_append_drop (lowerBound key xs k) xs]
  rw [List.filter_append, List.filter_eq_self.mpr, List.filter_eq_nil_iff.mpr, List.append_nil]
  · intro x hx
    rw [decide_eq_true_iff, not_lt]
    exact h.le_of_mem_drop_lowerBound x hx
  · intro x hx
    exact decide_eq_true (lt_of_mem_take_lowerBound x hx)

theorem StrictlyIncreasing.lowerBound_mono (h : StrictlyIncreasing key xs) {l : κ} (hkl : k ≤ l) :
    lowerBound key xs k ≤ lowerBound key xs l := by
  by_contra hlt
  have hlen : lowerBound key xs l < xs.length := (not_le.mp hlt).trans_le lowerBound_le_length
  exact absurd (lt_of_lt_lowerBound (not_le.mp hlt) hlen)
    (not_lt.mpr (hkl.trans (h.le_key le_rfl hlen)))

def slice (key : α → κ) (xs : List α) (k l : κ) : List α :=
  (xs.drop (lowerBound key xs k)).take (lowerBound key xs l - lowerBound key xs k)

theorem StrictlyIncreasing.take_append_slice (h : StrictlyIncreasing key xs) {l : κ} (hkl : k ≤ l) :
    xs.take (lowerBound key xs k) ++ slice key xs k l = xs.take (lowerBound key xs l) := by
  rw [slice, ← List.take_add, Nat.add_sub_cancel' (h.lowerBound_mono hkl)]

theorem StrictlyIncreasing.mem_slice (h : StrictlyIncreasing key xs) {l : κ} (hkl : k ≤ l) :
    ∀ x ∈ slice key xs k l, x ∈ xs ∧ k ≤ key x ∧ key x < l := by
  intro x hx
  have hdrop := List.mem_of_mem_take hx
  have htake : x ∈ xs.take (lowerBound key xs l) := by
    rw [← h.take_append_slice hkl]
    exact List.mem_append_right _ hx
  exact ⟨List.mem_of_mem_drop hdrop, h.le_of_mem_drop_lowerBound x hdrop,
    lt_of_mem_take_lowerBound x htake⟩

theorem StrictlyIncreasing.mem_slice_iff (h : StrictlyIncreasing key xs) {l : κ} (hkl : k ≤ l)
    {x : α} : x ∈ slice key xs k l ↔ x ∈ xs ∧ k ≤ key x ∧ key x < l := by
  refine ⟨h.mem_slice hkl x, ?_⟩
  rintro ⟨hx, hk, hl⟩
  have htake : x ∈ xs.take (lowerBound key xs l) := by
    rw [← h.filter_lt]
    exact List.mem_filter.mpr ⟨hx, decide_eq_true hl⟩
  rw [← h.take_append_slice hkl] at htake
  refine (List.mem_append.mp htake).resolve_left fun hbefore => ?_
  exact absurd (lt_of_mem_take_lowerBound x hbefore) (not_lt.mpr hk)

theorem StrictlyIncreasing.head_le (h : StrictlyIncreasing key xs) {head : α}
    (hhead : xs.head? = some head) : ∀ x ∈ xs, key head ≤ key x := by
  obtain ⟨rest, rfl⟩ := List.head?_eq_some_iff.mp hhead
  intro x hx
  rcases List.mem_cons.mp hx with rfl | hmem
  · exact le_rfl
  · exact (List.rel_of_pairwise_cons h hmem).le

theorem mem_takeWhile_iff {p : α → Bool} (hp : xs.Pairwise fun x y => p y = true → p x = true)
    {x : α} : x ∈ xs.takeWhile p ↔ x ∈ xs ∧ p x = true := by
  induction xs with
  | nil => simp
  | cons y ys ih =>
    obtain ⟨hy, hys⟩ := List.pairwise_cons.mp hp
    cases hpy : p y with
    | true =>
      rw [List.takeWhile_cons_of_pos hpy, List.mem_cons, List.mem_cons, ih hys, or_and_right]
      refine or_congr (iff_self_and.mpr ?_) Iff.rfl
      rintro rfl
      exact hpy
    | false =>
      rw [List.takeWhile_cons_of_neg (by rw [hpy]; exact Bool.false_ne_true)]
      refine iff_of_false List.not_mem_nil fun hx => ?_
      rcases List.mem_cons.mp hx.1 with rfl | hmem
      · rw [hpy] at hx
        cases hx.2
      · rw [hy x hmem hx.2] at hpy
        cases hpy

/-- Where the test only fails towards the end of a list, the entries from its first failure on
can be left out of a concatenation to which they contribute nothing. -/
theorem flatMap_takeWhile {β : Type*} {p : α → Bool} {f : α → List β}
    (hp : xs.Pairwise fun x y => p y = true → p x = true)
    (hf : ∀ x ∈ xs, p x = false → f x = []) : (xs.takeWhile p).flatMap f = xs.flatMap f := by
  induction xs with
  | nil => rfl
  | cons x xs ih =>
    obtain ⟨hx, hxs⟩ := List.pairwise_cons.mp hp
    cases hpx : p x with
    | true =>
      rw [List.takeWhile_cons_of_pos hpx, List.flatMap_cons, List.flatMap_cons,
        ih hxs fun y hy => hf y (List.mem_cons_of_mem _ hy)]
    | false =>
      rw [List.takeWhile_cons_of_neg (by rw [hpx]; exact Bool.false_ne_true), List.flatMap_nil,
        eq_comm, List.flatMap_eq_nil_iff]
      intro y hy
      rcases List.mem_cons.mp hy with rfl | hmem
      · exact hf y hy hpx
      · refine hf y hy (Bool.eq_false_iff.mpr fun hpy => ?_)
        rw [hx y hmem hpy] at hpx
        cases hpx

end Ordered
