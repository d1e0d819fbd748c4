import Mathlib.Data.List.Chain
import Mathlib.Tactic.Common

/-! Streams made of segments of equal entries, the entries of a stream that are chosen at a
distance from each other, and lists of records of one width. -/

namespace Segments

variable {α : Type*} (seg : ℕ → ℕ × α)

/-- The first segments, where `seg` gives the length and the entry of each. -/
def stream (k : ℕ) : List α := (List.range k).flatMap fun i => List.replicate (seg i).1 (seg i).2

def upTo (i c : ℕ) : List α := stream seg i ++ List.replicate c (seg i).2

theorem stream_succ (k : ℕ) :
    stream seg (k + 1) = stream seg k ++ List.replicate (seg k).1 (seg k).2 := by
  rw [stream, stream, List.range_succ, List.flatMap_append, List.flatMap_singleton]

theorem upTo_succ (i c : ℕ) : upTo seg i (c + 1) = upTo seg i c ++ [(seg i).2] := by
  rw [upTo, upTo, List.replicate_succ', List.append_assoc]

theorem upTo_full (i : ℕ) : upTo seg i (seg i).1 = upTo seg (i + 1) 0 := by
  rw [upTo, upTo, stream_succ, List.replicate_zero, List.append_nil]

theorem stream_isPrefix {k l : ℕ} (hkl : k ≤ l) : stream seg k <+: stream seg l := by
  induction l with
  | zero =>
    obtain rfl := Nat.le_zero.mp hkl
    exact List.prefix_rfl
  | succ l ih =>
    rcases Nat.lt_or_eq_of_le hkl with hlt | rfl
    · rw [stream_succ]
      exact (ih (Nat.le_of_lt_succ hlt)).trans (List.prefix_append _ _)
    · exact List.prefix_rfl

theorem upTo_isPrefix {i c k : ℕ} (hc : c ≤ (seg i).1) (hik : i < k) :
    upTo seg i c <+: stream seg k := by
  refine List.IsPrefix.trans ?_ (stream_isPrefix seg hik)
  rw [stream_succ, upTo, ← Nat.add_sub_of_le hc, List.replicate_add, ← List.append_assoc]
  exact List.prefix_append _ _

variable {seg}

theorem le_length_stream (hpos : ∀ i, 0 < (seg i).1) (k : ℕ) : k ≤ (stream seg k).length := by
  induction k with
  | zero => exact Nat.zero_le _
  | succ k ih =>
    rw [stream_succ, List.length_append, List.length_replicate]
    exact Nat.add_le_add ih (hpos k)

theorem le_length_upTo (hpos : ∀ i, 0 < (seg i).1) (i c : ℕ) : i + c ≤ (upTo seg i c).length := by
  rw [upTo, List.length_append, List.length_replicate]
  exact Nat.add_le_add_right (le_length_stream hpos i) c

theorem upTo_eq_take (hpos : ∀ i, 0 < (seg i).1) {i c n : ℕ} (hc : c ≤ (seg i).1) (hc0 : 0 < c)
    (hlen : (upTo seg i c).length = n) : upTo seg i c = (stream seg n).take n := by
  have hle := le_length_upTo hpos i c
  have hpre := upTo_isPrefix seg hc (by omega : i < n)
  rw [← hlen]
  exact List.prefix_iff_eq_take.mp (hlen ▸ hpre)

end Segments

namespace DeadTime

variable {α : Type*} (late : α → α → Bool)

def lastPick (last : α) (ts : List α) : α := ts.foldl (fun l t => if late l t then t else l) last

def picks : α → List α → List Bool
  | _, [] => []
  | last, t :: ts => late last t :: picks (if late last t then t else last) ts

def chosen (last : α) (ts : List α) : List α :=
  ((ts.zip (picks late last ts)).filter Prod.snd).map Prod.fst

theorem lastPick_concat (last : α) (ts : List α) (t : α) :
    lastPick late last (ts ++ [t]) =
      if late (lastPick late last ts) t then t else lastPick late last ts := by
  rw [lastPick, List.foldl_append]
  rfl

theorem picks_concat (last : α) (ts : List α) (t : α) :
    picks late last (ts ++ [t]) = picks late last ts ++ [late (lastPick late last ts) t] := by
  induction ts generalizing last with
  | nil => rfl
  | cons u ts ih =>
    rw [List.cons_append, picks, ih, picks, List.cons_append]
    rfl

theorem length_picks (last : α) (ts : List α) : (picks late last ts).length = ts.length := by
  induction ts generalizing last with
  | nil => rfl
  | cons t ts ih => rw [picks, List.length_cons, ih, List.length_cons]

theorem chosen_spaced (last : α) (ts : List α) :
    (last :: chosen late last ts).IsChain fun a b => late a b = true := by
  induction ts generalizing last with
  | nil => exact .singleton _
  | cons t ts ih =>
    rw [chosen, picks, List.zip_cons_cons, List.filter_cons]
    split_ifs with hlate
    · exact List.isChain_cons_cons.mpr ⟨hlate, ih t⟩
    · exact ih last

end DeadTime

namespace Records

variable {α β : Type*} {width : ℕ} {f : α → List β}

theorem length_flatMap (hf : ∀ x, (f x).length = width) (xs : List α) :
    (xs.flatMap f).length = xs.length * width := by
  induction xs with
  | nil => exact (Nat.zero_mul width).symm
  | cons x xs ih =>
    rw [List.flatMap_cons, List.length_append, hf, ih, List.length_cons, Nat.succ_mul, Nat.add_comm]

theorem drop_take_flatMap (hf : ∀ x, (f x).length = width) {xs : List α} {i : ℕ} {x : α}
    (hx : xs[i]? = some x) : ((xs.flatMap f).drop (i * width)).take width = f x := by
  induction xs generalizing i with
  | nil => cases hx
  | cons y ys ih =>
    rw [List.flatMap_cons]
    cases i with
    | zero =>
      cases hx
      rw [Nat.zero_mul, List.drop_zero, List.take_left' (hf _)]
    | succ i =>
      rw [List.getElem?_cons_succ] at hx
      have hskip : (f y ++ ys.flatMap f).drop ((i + 1) * width) =
          (ys.flatMap f).drop (i * width) := by
        rw [Nat.succ_mul, Nat.add_comm, ← List.drop_drop, List.drop_left' (hf _)]
      rw [hskip]
      exact ih hx

end Records
