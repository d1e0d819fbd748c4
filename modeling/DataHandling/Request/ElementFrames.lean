import DataHandling.Foundation.Ordered
import DataHandling.Request.FragmentPieces
import Mathlib.Data.List.TakeWhile
import Mathlib.Tactic.Ring

/-! The pieces cut from one element, and from the elements that the loop walks over, denote
the frames that overlap the window. -/

namespace DataHandling
open ReadoutType Ordered

theorem frame_end_le (tick : ℕ) {i n : ℕ} (hi : i < n) : i * tick + tick ≤ n * tick := by
  rw [← Nat.succ_mul]
  exact Nat.mul_le_mul_right tick hi

theorem exists_tick_inWindow {n tick ts b e : ℕ} (htick : 1 ≤ tick) (hspan : 0 < n * tick)
    (hbe : b < e) (he : ts < e) (hb : b < ts + n * tick) :
    ∃ i < n, b < ts + i * tick + tick ∧ ts + i * tick < e := by
  have hdiv := Nat.div_add_mod' (b - ts) tick
  have hmod := Nat.mod_lt (b - ts) htick
  refine ⟨(b - ts) / tick, ?_, by omega, by omega⟩
  rw [Nat.div_lt_iff_lt_mul htick]
  omega

variable {T : Type} [ReadoutType T] {n tick : ℕ}

section Layout
variable (hlayout : UniformLayout T n tick)
include hlayout

theorem UniformLayout.frames_eq (x : T) : frames x = (List.range n).map (Frame.mk x) := by
  rw [frames, hlayout.numFrames]

theorem UniformLayout.frame_ts {x : T} {i : ℕ} (hi : i < n)
    (hwrap : tsNat x + i * tick < 2 ^ 64) : (Frame.mk x i).ts = tsNat x + i * tick := by
  have hn : n < 2 ^ 64 := by
    rw [← hlayout.numFrames x]
    exact (getNumFrames x).toNat_lt
  have hitick : i * tick < 2 ^ 64 := by omega
  rw [Frame.ts, hlayout.frameTimestamp_eq x i hi, UInt64.toNat_add, UInt64.toNat_mul,
    UInt64.toNat_ofNat', hlayout.tick_eq, Nat.mod_eq_of_lt (by omega : i < 2 ^ 64),
    Nat.mod_eq_of_lt hitick, ← tsNat, Nat.mod_eq_of_lt hwrap]

theorem inWindow_iff (b e : UInt64) (f : Frame T) :
    f.inWindow b e = true ↔ b.toNat < f.ts + tick ∧ f.ts < e.toNat := by
  rw [Frame.inWindow, hlayout.tick_eq, Bool.and_eq_true, decide_eq_true_iff, decide_eq_true_iff]

theorem UniformLayout.end_toNat {x : T} (hend : tsNat x + n * tick < 2 ^ 64) :
    (getTimestamp x + tickSpan x).toNat = tsNat x + n * tick := by
  rw [UInt64.toNat_add, hlayout.tickSpan_toNat, ← tsNat, Nat.mod_eq_of_lt hend]

theorem ts_of_mem_frames {x : T} (hend : tsNat x + n * tick < 2 ^ 64) {f : Frame T}
    (hf : f ∈ frames x) : tsNat x ≤ f.ts ∧ f.ts + tick ≤ tsNat x + n * tick := by
  rw [hlayout.frames_eq] at hf
  obtain ⟨i, hi, rfl⟩ := List.mem_map.mp hf
  have hin := List.mem_range.mp hi
  have hle := frame_end_le tick hin
  rw [hlayout.frame_ts hin (by omega)]
  omega

theorem frames_filter_of_end_le {x : T} {b e : UInt64} (hend : tsNat x + n * tick < 2 ^ 64)
    (hb : tsNat x + n * tick ≤ b.toNat) : (frames x).filter (Frame.inWindow b e) = [] := by
  rw [List.filter_eq_nil_iff]
  intro f hf
  have hts := ts_of_mem_frames hlayout hend hf
  rw [inWindow_iff hlayout]
  omega

theorem frames_filter_of_le_ts {x : T} {b e : UInt64} (hend : tsNat x + n * tick < 2 ^ 64)
    (he : e.toNat ≤ tsNat x) : (frames x).filter (Frame.inWindow b e) = [] := by
  rw [List.filter_eq_nil_iff]
  intro f hf
  have hts := ts_of_mem_frames hlayout hend hf
  rw [inWindow_iff hlayout]
  omega

end Layout

def elementFrames (b e : UInt64) (x : T) : List (Frame T) :=
  if getTimestamp x + tickSpan x ≤ b then []
  else if getNumFrames x > 1 ∧
      ((getTimestamp x < b ∧ getTimestamp x + tickSpan x > b) ∨
        getTimestamp x + tickSpan x > e) then
    (frames x).filter fun f =>
      decide (frameTimestamp f.element f.index > b - expectedTickDifference T) &&
        decide (frameTimestamp f.element f.index < e)
  else frames x

theorem elementFrames_subset {b e : UInt64} {x : T} {f : Frame T}
    (hf : f ∈ elementFrames b e x) : f ∈ frames x := by
  rw [elementFrames] at hf
  split_ifs at hf
  · cases hf
  · exact List.mem_of_mem_filter hf
  · exact hf

theorem elementFrames_eq_filter (hlayout : UniformLayout T n tick) {x : T} {b e : UInt64}
    (hend : tsNat x + n * tick < 2 ^ 64) (he : tsNat x < e.toNat) (hb : tick ≤ b.toNat) :
    elementFrames b e x = (frames x).filter (Frame.inWindow b e) := by
  have hsum := hlayout.end_toNat hend
  have htick : (b - expectedTickDifference T).toNat = b.toNat - tick := by
    rw [UInt64.toNat_sub_of_le _ _ (UInt64.le_iff_toNat_le.mpr (by rwa [hlayout.tick_eq])),
      hlayout.tick_eq]
  have hpos := hlayout.one_le_tick
  rw [elementFrames]
  split_ifs with hskip hcut
  · rw [UInt64.le_iff_toNat_le, hsum] at hskip
    rw [frames_filter_of_end_le hlayout hend hskip]
  · apply List.filter_congr
    rw [hlayout.frames_eq]
    intro f hf
    obtain ⟨i, hi, rfl⟩ := List.mem_map.mp hf
    have hin := List.mem_range.mp hi
    have hle := frame_end_le tick hin
    have hts := hlayout.frame_ts (x := x) hin (by omega)
    have hfts : (frameTimestamp x i).toNat = tsNat x + i * tick := hts
    rw [Bool.eq_iff_iff, inWindow_iff hlayout, hts, Bool.and_eq_true,
      decide_eq_true_iff, decide_eq_true_iff, gt_iff_lt, UInt64.lt_iff_toNat_lt,
      UInt64.lt_iff_toNat_lt, hfts, htick]
    omega
  · rw [eq_comm, List.filter_eq_self, hlayout.frames_eq]
    intro f hf
    obtain ⟨i, hi, rfl⟩ := List.mem_map.mp hf
    have hin := List.mem_range.mp hi
    have hle := frame_end_le tick hin
    have hone := hlayout.numFrames x
    rw [UInt64.le_iff_toNat_le, hsum] at hskip
    have hts : (getTimestamp x).toNat = tsNat x := rfl
    simp only [gt_iff_lt, UInt64.lt_iff_toNat_lt, hsum, hone, hts] at hcut
    rw [inWindow_iff hlayout, hlayout.frame_ts hin (by omega)]
    rcases Nat.eq_or_lt_of_le hlayout.one_le_frames with rfl | hmany
    · obtain rfl : i = 0 := by omega
      omega
    · have hmany' : (1 : UInt64).toNat < n := hmany
      push Not at hcut
      have hwhole := hcut hmany'
      omega

section Pieces
variable {LB : Type} [LatencyBuffer LB T] {lb : LB}
open LatencyBuffer

theorem framesOf_append (ps qs : List Piece) :
    framesOf lb (ps ++ qs) = framesOf lb ps ++ framesOf lb qs := List.flatMap_append

section Element
variable (hlayout : UniformLayout T n tick) {x : T} {it : ℕ} (hderef : deref lb it = some x)
include hlayout hderef

theorem framesOf_whole : framesOf lb [⟨it, 0, getPayloadSize x⟩] = frames x := by
  rw [framesOf, List.flatMap_singleton, Piece.frames, hderef, hlayout.frames_eq,
    hlayout.payloadSize]
  dsimp only
  rw [Nat.mul_div_cancel _ (hlayout.frameSize_pos x), List.range_eq_range']

theorem framesOf_single (is : List ℕ) :
    framesOf lb (is.map fun i => ⟨it, i, getFrameSize x⟩) = is.map (Frame.mk x) := by
  induction is with
  | nil => rfl
  | cons i is ih =>
    rw [List.map_cons, List.map_cons, ← ih, framesOf, List.flatMap_cons, Piece.frames, hderef]
    dsimp only
    rw [Nat.div_self (hlayout.frameSize_pos x)]
    rfl

theorem framesOf_elementPieces (b e : UInt64) :
    framesOf lb (elementPieces b e it x) = elementFrames b e x := by
  rw [elementPieces, elementFrames]
  split_ifs
  · rfl
  · rw [framesOf_single hlayout hderef, hlayout.numFrames, hlayout.frames_eq, List.filter_map]
    rfl
  · exact framesOf_whole hlayout hderef

end Element

section Loop
variable [BufferView LB T] {xs : List T} (hstores : BufferView.Stores lb xs)
include hstores

theorem gatherPieces_eq (hlayout : UniformLayout T n tick) {b e : UInt64} {fuel it k : ℕ}
    (hat : BufferView.At lb xs it k) (hk : k ≤ xs.length)
    (hfuel : xs.length < fuel + k) :
    ∃ pieces, gatherPieces lb b e fuel it = some pieces ∧
      framesOf lb pieces =
        ((xs.drop k).takeWhile fun x => decide (tsNat x < e.toNat)).flatMap
          (elementFrames b e) := by
  induction fuel generalizing it k with
  | zero => omega
  | succ fuel ih =>
    have hgood := BufferView.good_iff hstores hat
    rcases Nat.lt_or_eq_of_le hk with hlt | rfl
    · have hderef := BufferView.deref_at hstores hat hlt
      rw [gatherPieces, if_pos (hgood.mpr hlt), hderef, Option.bind_some,
        List.drop_eq_getElem_cons hlt]
      by_cases hless : tsNat xs[k] < e.toNat
      · obtain ⟨pieces, hpieces, hframes⟩ := ih (BufferView.next_at hstores hat hlt) hlt (by omega)
        rw [if_pos (UInt64.lt_iff_toNat_lt.mpr hless), hpieces]
        refine ⟨_, rfl, ?_⟩
        rw [framesOf_append, framesOf_elementPieces hlayout hderef, hframes]
        simp only [List.takeWhile_cons, hless, decide_true, if_true, List.flatMap_cons]
      · rw [if_neg fun h => hless (UInt64.lt_iff_toNat_lt.mp h)]
        refine ⟨[], rfl, ?_⟩
        simp only [List.takeWhile_cons, hless, decide_false, Bool.false_eq_true, if_false,
          List.flatMap_nil]
        rfl
    · have hbad : ¬ good lb it = true := fun h => Nat.lt_irrefl _ (hgood.mp h)
      rw [gatherPieces, if_neg hbad, List.drop_length]
      exact ⟨[], rfl, rfl⟩

/-- From any start with only elements before it that end by the begin of the window, the loop
collects the frames of the whole content that overlap the window. -/
theorem gatherPieces_frames (hlayout : UniformLayout T n tick)
    (hsorted : StrictlyIncreasing tsNat xs) (hend : ∀ x ∈ xs, tsNat x + n * tick < 2 ^ 64)
    {b e : UInt64} (hb : n * tick ≤ b.toNat) {fuel it k : ℕ} (hat : BufferView.At lb xs it k)
    (hk : k ≤ xs.length) (hbefore : ∀ x ∈ xs.take k, tsNat x + n * tick ≤ b.toNat)
    (hfuel : xs.length < fuel) :
    ∃ pieces, gatherPieces lb b e fuel it = some pieces ∧
      framesOf lb pieces = (storedFrames xs).filter (Frame.inWindow b e) := by
  obtain ⟨pieces, hpieces, hframes⟩ :=
    gatherPieces_eq hstores hlayout (b := b) (e := e) hat hk (Nat.lt_add_right k hfuel)
  refine ⟨pieces, hpieces, hframes.trans ?_⟩
  have hcut : ∀ x ∈ (xs.drop k).takeWhile fun x => decide (tsNat x < e.toNat),
      elementFrames b e x = (frames x).filter (Frame.inWindow b e) := by
    intro x hx
    exact elementFrames_eq_filter hlayout
      (hend x (List.mem_of_mem_drop (List.takeWhile_sublist _ |>.mem hx)))
      (by simpa using List.mem_takeWhile_imp hx) (hlayout.tick_le_span.trans hb)
  have htake : ((xs.take k).flatMap fun x => (frames x).filter (Frame.inWindow b e)) = [] := by
    rw [List.flatMap_eq_nil_iff]
    intro x hx
    exact frames_filter_of_end_le hlayout (hend x (List.mem_of_mem_take hx)) (hbefore x hx)
  rw [List.flatMap_congr hcut, flatMap_takeWhile]
  · conv_rhs => rw [storedFrames, List.filter_flatMap, ← List.take_append_drop k xs,
      List.flatMap_append, htake, List.nil_append]
  · refine (List.Pairwise.sublist (List.drop_sublist k xs) hsorted).imp fun {x y} hxy hy => ?_
    exact decide_eq_true (Nat.lt_trans hxy (of_decide_eq_true hy))
  · intro x hx hnot
    exact frames_filter_of_le_ts hlayout (hend x (List.mem_of_mem_drop hx))
      (Nat.not_lt.mp (of_decide_eq_false hnot))

end Loop
end Pieces
end DataHandling
