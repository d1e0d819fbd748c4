import DataHandling.Request.Exactness

/-! When an extraction delivers all stored data of a window that overlaps the buffer: the
shifted search key decides whether the oldest elements can be reached. -/

namespace DataHandling
open ReadoutType Ordered IterableQueueModel

variable {T : Type} [ReadoutType T] {n tick : ℕ}

/-- The window is answered with data, and with all stored frames that overlap it. -/
def NothingWithheld {LB : Type} [LatencyBuffer LB T] (lb : LB) (xs : List T)
    (registry : FrameErrorRegistry) (b e : UInt64) : Prop :=
  ∀ fuel > xs.length, ∃ code pieces,
    getFragmentPieces lb registry b e fuel = some (code, pieces) ∧ code.hasPieces = true ∧
      ∀ f ∈ storedFrames xs, f.inWindow b e = true → f ∈ framesOf lb pieces

theorem windowCode_hasPieces (lastTs newestTs b e : UInt64) :
    (windowCode lastTs newestTs b e).hasPieces = true := by
  rw [windowCode]
  split_ifs <;> rfl

section Element
variable (hlayout : UniformLayout T n tick) {x : T} {b e : UInt64}
include hlayout

theorem element_of_mem_frames {f : Frame T} (hf : f ∈ frames x) : f.element = x := by
  rw [hlayout.frames_eq] at hf
  obtain ⟨i, _, rfl⟩ := List.mem_map.mp hf
  rfl

theorem exists_frame_inWindow (hbe : b.toNat < e.toNat) (he : tsNat x < e.toNat)
    (hb : b.toNat < tsNat x + n * tick) : ∃ f ∈ frames x, f.inWindow b e = true := by
  have hlt := e.toNat_lt
  obtain ⟨i, hi, hwindow⟩ := exists_tick_inWindow hlayout.one_le_tick hlayout.span_pos hbe he hb
  refine ⟨⟨x, i⟩, ?_, ?_⟩
  · rw [hlayout.frames_eq]
    exact List.mem_map.mpr ⟨_, List.mem_range.mpr hi, rfl⟩
  · rw [inWindow_iff hlayout, hlayout.frame_ts hi (by omega)]
    exact hwindow

theorem ts_lt_of_inWindow (hrep : tsNat x + (n - 1) * tick < 2 ^ 64) {f : Frame T}
    (hf : f ∈ frames x) (hw : f.inWindow b e = true) : tsNat x < e.toNat := by
  rw [hlayout.frames_eq] at hf
  obtain ⟨i, hi, rfl⟩ := List.mem_map.mp hf
  have hin := List.mem_range.mp hi
  have hle : i * tick ≤ (n - 1) * tick := Nat.mul_le_mul_right tick (by omega)
  rw [inWindow_iff hlayout, hlayout.frame_ts hin (by omega)] at hw
  omega

theorem end_toNat_of_wrap (hwrap : 2 ^ 64 ≤ tsNat x + n * tick) :
    (getTimestamp x + tickSpan x).toNat = tsNat x + n * tick - 2 ^ 64 := by
  have hts := tsNat_lt x
  have hspan := hlayout.span_lt
  rw [UInt64.toNat_add, hlayout.tickSpan_toNat, ← tsNat]
  omega

theorem elementFrames_of_wrap (hwrap : 2 ^ 64 ≤ tsNat x + n * tick)
    (hb : tsNat x + n * tick - 2 ^ 64 ≤ b.toNat) : elementFrames b e x = [] := by
  rw [elementFrames, if_pos]
  rw [UInt64.le_iff_toNat_le, end_toNat_of_wrap hlayout hwrap]
  exact hb

theorem elementFrames_of_wrap_past (hb : 2 ^ 64 + b.toNat < tsNat x + n * tick)
    (he : tsNat x < e.toNat) : elementFrames b e x = frames x := by
  have hspan := hlayout.span_lt
  have hend := end_toNat_of_wrap hlayout (x := x) (by omega)
  have hts : (getTimestamp x).toNat = tsNat x := rfl
  rw [elementFrames, if_neg, if_neg]
  · simp only [gt_iff_lt, UInt64.lt_iff_toNat_lt, hend, hts]
    omega
  · rw [UInt64.le_iff_toNat_le, hend]
    omega

end Element

section Lookup
variable {LB : Type} [LatencyBuffer LB T] [BufferView LB T] {lb : LB} {xs : List T}
  {registry : FrameErrorRegistry} {b e : UInt64} {it : ℕ}

omit [BufferView LB T] in
theorem not_nothingWithheld_of_not_good
    (hit : LatencyBuffer.lowerBound lb (requestElement T b)
      (registry.hasError "MISSING_FRAMES") = some it)
    (hbad : LatencyBuffer.good lb it = false) : ¬ NothingWithheld lb xs registry b e := by
  intro h
  obtain ⟨code, pieces, hres, hcode, _⟩ := h (xs.length + 1) (Nat.lt_succ_self _)
  rw [getFragmentPieces] at hres
  obtain ⟨first, _, hres⟩ := Option.bind_eq_some_iff.mp hres
  obtain ⟨last, _, hres⟩ := Option.bind_eq_some_iff.mp hres
  rw [hit, Option.bind_some, hbad, if_neg Bool.false_ne_true] at hres
  split_ifs at hres <;> cases hres <;> cases hcode

omit [BufferView LB T] in
theorem NothingWithheld.back_isSome (h : NothingWithheld lb xs registry b e) :
    (LatencyBuffer.back lb).isSome := by
  obtain ⟨code, pieces, hres, _⟩ := h (xs.length + 1) (Nat.lt_succ_self _)
  rw [getFragmentPieces] at hres
  obtain ⟨first, _, hres⟩ := Option.bind_eq_some_iff.mp hres
  obtain ⟨last, hlast, _⟩ := Option.bind_eq_some_iff.mp hres
  rw [hlast]
  rfl

variable (hlayout : UniformLayout T n tick) (hsorted : StrictlyIncreasing tsNat xs)
  (hstores : BufferView.Stores lb xs) (hne : xs ≠ [])
  (hback : (LatencyBuffer.back lb).isSome)
  (hnewest : b.toNat ≤ tsNat (xs.getLast hne)) (hfront : tsNat (xs.head hne) < e.toNat)
  {k : ℕ}
  (hit : LatencyBuffer.lowerBound lb (requestElement T b)
    (registry.hasError "MISSING_FRAMES") = some it)
  (hat : BufferView.At lb xs it k) (hk : k < xs.length)
include hlayout hsorted hstores hback hnewest hfront hit hat hk

theorem nothingWithheld_iff_delivered :
    NothingWithheld lb xs registry b e ↔
      ∀ x ∈ xs, ∀ f ∈ frames x, f.inWindow b e = true →
        x ∈ xs.drop k ∧ tsNat x < e.toNat ∧ f ∈ elementFrames b e x := by
  have hgood := (BufferView.good_iff hstores hat).mpr hk
  obtain ⟨last, hlast⟩ := Option.isSome_iff_exists.mp hback
  obtain ⟨_, hlastEq⟩ := exists_getLast_of_back hstores hlast
  have hres : ∀ fuel > xs.length, ∃ pieces,
      getFragmentPieces lb registry b e fuel =
        some (windowCode (getTimestamp (xs.head hne)) (getTimestamp last) b e, pieces) ∧
      ∀ f, f ∈ framesOf lb pieces ↔
        ∃ x ∈ xs.drop k, tsNat x < e.toNat ∧ f ∈ elementFrames b e x := by
    intro fuel hfuel
    obtain ⟨pieces, hpieces, hframes⟩ :=
      gatherPieces_eq hstores hlayout (b := b) (e := e) hat hk.le (Nat.lt_add_right k hfuel)
    refine ⟨pieces, ?_, fun f => ?_⟩
    · rw [getFragmentPieces, BufferView.front_eq hstores, List.head?_eq_some_head hne, hlast,
        Option.bind_some, Option.bind_some, hit, Option.bind_some, if_pos hgood, hpieces,
        if_neg, if_neg]
      · rfl
      · exact UInt64.not_lt.mpr (UInt64.le_iff_toNat_le.mpr hfront.le)
      · rw [← hlastEq]
        exact UInt64.not_lt.mpr (UInt64.le_iff_toNat_le.mpr hnewest)
    · have hanti : (xs.drop k).Pairwise fun x y =>
          decide (tsNat y < e.toNat) = true → decide (tsNat x < e.toNat) = true :=
        (List.Pairwise.sublist (List.drop_sublist k xs) hsorted).imp fun {x y} hxy hy =>
          decide_eq_true (Nat.lt_trans hxy (of_decide_eq_true hy))
      simp only [hframes, List.mem_flatMap, mem_takeWhile_iff hanti, decide_eq_true_iff,
        and_assoc]
  constructor
  · intro h x hx f hf hw
    obtain ⟨pieces, hpieces, hmem⟩ := hres (xs.length + 1) (Nat.lt_succ_self _)
    obtain ⟨code, pieces', hres', _, hall⟩ := h (xs.length + 1) (Nat.lt_succ_self _)
    rw [hpieces] at hres'
    cases hres'
    obtain ⟨y, hy, hye, hfy⟩ := (hmem f).mp (hall f (List.mem_flatMap.mpr ⟨x, hx, hf⟩) hw)
    obtain rfl : y = x := (element_of_mem_frames hlayout (elementFrames_subset hfy)).symm.trans
      (element_of_mem_frames hlayout hf)
    exact ⟨hy, hye, hfy⟩
  · intro h fuel hfuel
    obtain ⟨pieces, hpieces, hmem⟩ := hres fuel hfuel
    refine ⟨_, pieces, hpieces, windowCode_hasPieces _ _ _ _, fun f hf hw => ?_⟩
    obtain ⟨x, hx, hfx⟩ := List.mem_flatMap.mp hf
    exact (hmem f).mpr ⟨x, h x hx f hfx hw⟩

variable (hbe : b.toNat < e.toNat) (hrep : ∀ x ∈ xs, tsNat x + (n - 1) * tick < 2 ^ 64)
include hbe hrep

theorem nothingWithheld_iff_of_span_le (hb : n * tick ≤ b.toNat)
    (hbefore : ∀ x ∈ xs.take k, tsNat x + n * tick ≤ b.toNat) :
    NothingWithheld lb xs registry b e ↔
      ∀ x ∈ xs, tsNat x < e.toNat → tsNat x + n * tick < 2 ^ 64 := by
  rw [nothingWithheld_iff_delivered hlayout hsorted hstores hne hback hnewest hfront hit hat hk]
  constructor
  · intro h x hx he
    by_contra hwrap
    have hb' := b.toNat_lt
    have hts := tsNat_lt x
    obtain ⟨f, hf, hw⟩ := exists_frame_inWindow hlayout (x := x) hbe he (by omega)
    have hmem := (h x hx f hf hw).2.2
    rw [elementFrames_of_wrap hlayout (by omega) (by omega)] at hmem
    cases hmem
  · intro h x hx f hf hw
    have he := ts_lt_of_inWindow hlayout (hrep x hx) hf hw
    have hend := h x hx he
    have hfilter : f ∈ (frames x).filter (Frame.inWindow b e) := List.mem_filter.mpr ⟨hf, hw⟩
    refine ⟨?_, he, ?_⟩
    · rw [← List.take_append_drop k xs] at hx
      refine (List.mem_append.mp hx).resolve_left fun htake => ?_
      rw [frames_filter_of_end_le hlayout hend (hbefore x htake)] at hfilter
      cases hfilter
    · rw [elementFrames_eq_filter hlayout hend he (hlayout.tick_le_span.trans hb)]
      exact hfilter

theorem nothingWithheld_iff_of_lt_span (hb : b.toNat < n * tick)
    (hbefore : ∀ x ∈ xs.take k, tsNat x ≤ 2 ^ 64 + b.toNat - n * tick)
    (hafter : ∀ x ∈ xs.drop k, 2 ^ 64 + b.toNat - n * tick ≤ tsNat x) :
    NothingWithheld lb xs registry b e ↔
      2 ^ 64 + b.toNat < tsNat (xs.head hne) + n * tick := by
  have hspan := hlayout.span_lt
  have hhead := List.head_mem hne
  rw [nothingWithheld_iff_delivered hlayout hsorted hstores hne hback hnewest hfront hit hat hk]
  constructor
  · intro h
    obtain ⟨f, hf, hw⟩ := exists_frame_inWindow hlayout (x := xs.head hne) hbe hfront (by omega)
    obtain ⟨hdrop, _, hmem⟩ := h _ hhead f hf hw
    have hkey := hafter _ hdrop
    by_contra hle
    rw [elementFrames_of_wrap hlayout (by omega) (by omega)] at hmem
    cases hmem
  · intro h x hx f hf hw
    have he := ts_lt_of_inWindow hlayout (hrep x hx) hf hw
    have hle : tsNat (xs.head hne) ≤ tsNat x := by
      obtain ⟨i, hi, rfl⟩ := List.getElem_of_mem hx
      rw [List.head_eq_getElem]
      exact hsorted.key_le (Nat.zero_le i) hi
    refine ⟨?_, he, ?_⟩
    · rw [← List.take_append_drop k xs] at hx
      refine (List.mem_append.mp hx).resolve_left fun htake => ?_
      have := hbefore x htake
      omega
    · rwa [elementFrames_of_wrap_past hlayout (by omega) he]

omit hat hk in
/-- A search that splits the content at its key delivers everything for windows at least one
element after timestamp zero, up to wrapping ends, and for windows before with all elements
above the wrapped key. -/
theorem nothingWithheld_iff_of_split (hat : BufferView.At lb xs it k)
    (htake : ∀ x ∈ xs.take k, tsNat x ≤ tsNat (requestElement T b))
    (hdrop : ∀ x ∈ xs.drop k, tsNat (requestElement T b) ≤ tsNat x) :
    NothingWithheld lb xs registry b e ↔
      n * tick ≤ b.toNat ∧ (∀ x ∈ xs, tsNat x < e.toNat → tsNat x + n * tick < 2 ^ 64) ∨
        b.toNat < n * tick ∧ 2 ^ 64 + b.toNat < tsNat (xs.head hne) + n * tick := by
  have hspan := hlayout.span_lt
  have hspanpos := hlayout.span_pos
  have hkey := tsNat_requestElement hlayout b
  by_cases hk : k < xs.length
  · rcases Nat.lt_or_ge b.toNat (n * tick) with hb | hb
    · rw [if_neg (Nat.not_le.mpr hb)] at hkey
      rw [nothingWithheld_iff_of_lt_span hlayout hsorted hstores hne hback hnewest hfront hit hat
        hk hbe hrep hb (by rwa [hkey] at htake) (by rwa [hkey] at hdrop)]
      exact ⟨fun h => .inr ⟨hb, h⟩, fun h => h.elim (fun h => by omega) And.right⟩
    · rw [if_pos hb] at hkey
      rw [nothingWithheld_iff_of_span_le hlayout hsorted hstores hne hback hnewest hfront hit hat
        hk hbe hrep hb fun x hx => by have := htake x hx; omega]
      exact ⟨fun h => .inl ⟨hb, h⟩, fun h => h.elim And.right fun h => by omega⟩
  · have hbad : LatencyBuffer.good lb it = false :=
      Bool.eq_false_iff.mpr fun hgood => hk ((BufferView.good_iff hstores hat).mp hgood)
    rw [List.take_of_length_le (Nat.not_lt.mp hk)] at htake
    have hhead := htake _ (List.head_mem hne)
    have hlast := htake _ (List.getLast_mem hne)
    refine iff_of_false (not_nothingWithheld_of_not_good hit hbad) fun h => ?_
    split_ifs at hkey <;> omega

end Lookup

section Buffers
variable {xs : List T} {registry : FrameErrorRegistry} {b e : UInt64}
  (hlayout : UniformLayout T n tick) (horder : TimestampConsistent T)
  (hsorted : StrictlyIncreasing tsNat xs) (hne : xs ≠ [])
  (hrep : ∀ x ∈ xs, tsNat x + (n - 1) * tick < 2 ^ 64) (hbe : b.toNat < e.toNat)
  (hnewest : b.toNat ≤ tsNat (xs.getLast hne)) (hfront : tsNat (xs.head hne) < e.toNat)
include hlayout horder hsorted hrep hbe hnewest hfront

theorem SkipListLatencyBufferModel.nothingWithheld_iff (s : SkipListLatencyBufferModel T)
    (h : s.elements = xs) :
    NothingWithheld s xs registry b e ↔
      n * tick ≤ b.toNat ∧ (∀ x ∈ xs, tsNat x < e.toNat → tsNat x + n * tick < 2 ^ 64) ∨
        b.toNat < n * tick ∧ 2 ^ 64 + b.toNat < tsNat (xs.head hne) + n * tick := by
  subst h
  have hback : (LatencyBuffer.back s).isSome := by
    rw [show LatencyBuffer.back s = s.elements.getLast? from rfl,
      List.getLast?_eq_some_getLast hne]
    rfl
  refine nothingWithheld_iff_of_split hlayout hsorted rfl hne hback hnewest hfront rfl hbe hrep
    rfl (forall_mem_take fun i hi hlen => s.le_of_lt_lowerBound horder _ _ hi hlen) ?_
  intro x hx
  obtain ⟨j, hj, rfl⟩ := List.getElem_of_mem hx
  rw [List.length_drop] at hj
  rw [List.getElem_drop]
  exact (s.le_lowerBound horder _ _ (by omega)).trans
    (hsorted.key_le (Nat.le_add_right _ j) (by omega))

omit horder in
theorem nothingWithheld_iff_of_ring {LB : Type} [LatencyBuffer LB T] [BufferView LB T] {lb : LB}
    {it : ℕ} (hstores : BufferView.Stores lb xs) (hback : (LatencyBuffer.back lb).isSome)
    (hit : LatencyBuffer.lowerBound lb (requestElement T b)
      (registry.hasError "MISSING_FRAMES") = some it)
    (hle : tsNat (xs.head hne) ≤ tsNat (requestElement T b))
    (hat : BufferView.At lb xs it (lowerBound tsNat xs (tsNat (requestElement T b)))) :
    NothingWithheld lb xs registry b e ↔
      tsNat (xs.head hne) + n * tick ≤ b.toNat ∧
        ∀ x ∈ xs, tsNat x < e.toNat → tsNat x + n * tick < 2 ^ 64 := by
  have hspan := hlayout.span_lt
  have hkey := tsNat_requestElement hlayout b
  rw [nothingWithheld_iff_of_split hlayout hsorted hstores hne hback hnewest hfront hit hbe hrep
    hat (fun x hx => (lt_of_mem_take_lowerBound x hx).le) hsorted.le_of_mem_drop_lowerBound]
  split_ifs at hkey with hb
  · exact ⟨fun h => h.elim (fun h => ⟨by omega, h.2⟩) fun h => by omega,
      fun h => .inl ⟨hb, h.2⟩⟩
  · exact ⟨fun h => h.elim (fun h => by omega) fun h => by omega, fun h => by omega⟩

theorem search_nothingWithheld_iff {LB : Type} [LatencyBuffer LB T] [BufferView LB T] {lb : LB}
    {q : IterableQueueModel T} (h : Represents q xs) (hstores : BufferView.Stores lb xs)
    (hlb : LatencyBuffer.lowerBound lb (requestElement T b)
      (registry.hasError "MISSING_FRAMES") =
        BinarySearchQueueModel.search q (requestElement T b))
    (hgood : ∀ it, LatencyBuffer.good lb it = q.good it)
    (hat : ∀ it k, At q xs it k → BufferView.At lb xs it k) :
    NothingWithheld lb xs registry b e ↔
      (LatencyBuffer.back lb).isSome ∧ n * tick ≤ b.toNat ∧
        lt (requestElement T b) (xs.head hne) = false ∧
          ∀ x ∈ xs, tsNat x < e.toNat → tsNat x + n * tick < 2 ^ 64 := by
  by_cases hback : (LatencyBuffer.back lb).isSome
  swap
  · exact iff_of_false (fun h => hback h.back_isSome) fun h => hback h.1
  rw [and_iff_right hback]
  have hkey := tsNat_requestElement hlayout b
  have hspan := hlayout.span_lt
  rw [BinarySearchQueueModel.search_eq h horder hsorted hne] at hlb
  cases hless : lt (requestElement T b) (xs.head hne) with
  | true =>
    rw [if_pos hless] at hlb
    refine iff_of_false (not_nothingWithheld_of_not_good hlb ?_) fun h => by simp at h
    rw [hgood, good_endIndex]
  | false =>
    rw [if_neg (Bool.eq_false_iff.mp hless)] at hlb
    have hle := horder.le_of_lt_eq_false hless
    rw [nothingWithheld_iff_of_ring hlayout hsorted hne hrep hbe hnewest hfront hstores hback hlb
      hle (hat _ _ (h.at_slot lowerBound_le_length)), and_iff_right rfl]
    refine and_congr_left' ⟨fun hb => by omega, fun hb => ?_⟩
    rw [if_pos hb] at hkey
    omega

theorem BinarySearchQueueModel.nothingWithheld_iff (q : BinarySearchQueueModel T)
    (h : Represents q.toIterableQueueModel xs) :
    NothingWithheld q xs registry b e ↔
      (LatencyBuffer.back q).isSome ∧ n * tick ≤ b.toNat ∧
        lt (requestElement T b) (xs.head hne) = false ∧
          ∀ x ∈ xs, tsNat x < e.toNat → tsNat x + n * tick < 2 ^ 64 :=
  search_nothingWithheld_iff hlayout horder hsorted hne hrep hbe hnewest hfront h h rfl
    (fun _ => rfl) fun _ _ => id

section Computed
variable (hgap : GapFree (n * tick) xs) (q : FixedRateQueueModel T)
  (h : Represents q.toIterableQueueModel xs)
  (herr : registry.hasError "MISSING_FRAMES" = false)
  (hback : (LatencyBuffer.back q).isSome)
include hgap h herr

omit horder hsorted hrep hbe hnewest hfront hgap in
theorem FixedRateQueueModel.not_nothingWithheld_of_outside
    (hout : tsNat (requestElement T b) < tsNat (xs.head hne) ∨
      (tsNat (xs.head hne) + q.occupancy * (n * tick)) % 2 ^ 64 <
        tsNat (requestElement T b)) : ¬ NothingWithheld q xs registry b e := by
  have hbad : LatencyBuffer.good q endIndex = false := good_endIndex q.toIterableQueueModel
  refine not_nothingWithheld_of_not_good ?_ hbad
  rw [herr]
  exact computedSearch_of_outside h hne (hlayout.hasExtent _) hout

include hback

omit horder in
theorem FixedRateQueueModel.nothingWithheld_iff_of_span_le (hb : n * tick ≤ b.toNat) :
    NothingWithheld q xs registry b e ↔
      tsNat (xs.head hne) + n * tick ≤ b.toNat ∧
        b.toNat - n * tick ≤ (tsNat (xs.head hne) + q.occupancy * (n * tick)) % 2 ^ 64 ∧
          ∀ x ∈ xs, tsNat x < e.toNat → tsNat x + n * tick < 2 ^ 64 := by
  have hkey := tsNat_requestElement hlayout b
  rw [if_pos hb] at hkey
  by_cases hout : tsNat (requestElement T b) < tsNat (xs.head hne) ∨
      (tsNat (xs.head hne) + q.occupancy * (n * tick)) % 2 ^ 64 < tsNat (requestElement T b)
  · exact iff_of_false (q.not_nothingWithheld_of_outside hlayout hne h herr hout)
      fun hall => by omega
  push Not at hout
  have hle : tsNat (requestElement T b) ≤ tsNat (xs.getLast hne) := by omega
  obtain ⟨k, hk, hlt, hit⟩ :=
    computedSearch_of_inside h hgap hne (hlayout.hasExtent _) hle hout.1 hout.2
  rw [hkey] at hk
  rw [DataHandling.nothingWithheld_iff_of_span_le hlayout hsorted h hne hback hnewest hfront
    (by rw [herr]; exact hit) (h.at_slot hlt.le) hlt hbe hrep hb (end_le_of_le_lowerBound hb hk)]
  exact ⟨fun hend => ⟨by omega, by omega, hend⟩, fun hall => hall.2.2⟩

omit horder in
theorem FixedRateQueueModel.not_nothingWithheld_of_lt_span (hsize : q.size < 2147483648)
    (hb : b.toNat < n * tick) : ¬ NothingWithheld q xs registry b e := by
  by_cases hout : tsNat (requestElement T b) < tsNat (xs.head hne) ∨
      (tsNat (xs.head hne) + xs.length * (n * tick)) % 2 ^ 64 < tsNat (requestElement T b)
  · rw [← h.occupancy_eq hsize] at hout
    exact q.not_nothingWithheld_of_outside hlayout hne h herr hout
  · have hlb : LatencyBuffer.lowerBound q (requestElement T b)
        (registry.hasError "MISSING_FRAMES") =
          some (Cyclic.slot q.size q.readIndex
            (Ordered.lowerBound tsNat xs (tsNat (requestElement T b)))) := by
      rw [herr]
      exact (computedSearch_eq h hgap hne (hlayout.hasExtent _) hsize).trans (if_neg hout)
    rw [nothingWithheld_iff_of_ring hlayout hsorted hne hrep hbe hnewest hfront h hback hlb
      (by omega) (h.at_slot lowerBound_le_length)]
    omega

end Computed

theorem FixedRateQueueModel.nothingWithheld_iff (q : FixedRateQueueModel T)
    (h : Represents q.toIterableQueueModel xs) (hgap : GapFree (n * tick) xs)
    (hlookup : registry.hasError "MISSING_FRAMES" = true ∨ q.size < 2147483648 ∨
      n * tick ≤ b.toNat) :
    NothingWithheld q xs registry b e ↔
      (LatencyBuffer.back q).isSome ∧ n * tick ≤ b.toNat ∧
        (if registry.hasError "MISSING_FRAMES" then
          lt (requestElement T b) (xs.head hne) = false
        else tsNat (xs.head hne) + n * tick ≤ b.toNat ∧
          b.toNat - n * tick ≤ (tsNat (xs.head hne) + q.occupancy * (n * tick)) % 2 ^ 64) ∧
        ∀ x ∈ xs, tsNat x < e.toNat → tsNat x + n * tick < 2 ^ 64 := by
  cases herr : registry.hasError "MISSING_FRAMES" with
  | true =>
    rw [search_nothingWithheld_iff hlayout horder hsorted hne hrep hbe hnewest hfront h h
      (by rw [herr]; rfl) (fun _ => rfl) fun _ _ => id, if_pos rfl]
  | false =>
    rw [if_neg Bool.false_ne_true, and_assoc]
    by_cases hback : (LatencyBuffer.back q).isSome
    swap
    · exact iff_of_false (fun h => hback h.back_isSome) fun h => hback h.1
    rw [and_iff_right hback]
    by_cases hb : n * tick ≤ b.toNat
    · rw [and_iff_right hb]
      exact q.nothingWithheld_iff_of_span_le hlayout hsorted hne hrep hbe hnewest hfront hgap h
        herr hback hb
    · rw [herr] at hlookup
      have hsize := (hlookup.resolve_left Bool.false_ne_true).resolve_right hb
      exact iff_of_false (q.not_nothingWithheld_of_lt_span hlayout hsorted hne hrep hbe hnewest
        hfront hgap h herr hback hsize (Nat.not_le.mp hb)) fun hall => hb hall.1

end Buffers

/-- When the answer to an overlapping window withholds nothing. A ring must be asked from one
element after its front on; the skip list also answers earlier windows, as long as the shifted
window begin does not wrap. -/
theorem fragmentPieces_nothingWithheld_iff (hlayout : UniformLayout T n tick)
    (horder : TimestampConsistent T) (xs : List T) (hsorted : StrictlyIncreasing tsNat xs)
    (hne : xs ≠ []) (hrep : ∀ x ∈ xs, tsNat x + (n - 1) * tick < 2 ^ 64)
    (registry : FrameErrorRegistry) (b e : UInt64) (hbe : b.toNat < e.toNat)
    (hnewest : b.toNat ≤ tsNat (xs.getLast hne)) (hfront : tsNat (xs.head hne) < e.toNat) :
    (∀ q : BinarySearchQueueModel T, Represents q.toIterableQueueModel xs →
      (NothingWithheld q xs registry b e ↔
        (LatencyBuffer.back q).isSome ∧ n * tick ≤ b.toNat ∧
          lt (requestElement T b) (xs.head hne) = false ∧
            ∀ x ∈ xs, tsNat x < e.toNat → tsNat x + n * tick < 2 ^ 64)) ∧
    (∀ q : FixedRateQueueModel T, Represents q.toIterableQueueModel xs →
      GapFree (n * tick) xs →
      (registry.hasError "MISSING_FRAMES" = true ∨ q.size < 2147483648 ∨
        n * tick ≤ b.toNat) →
      (NothingWithheld q xs registry b e ↔
        (LatencyBuffer.back q).isSome ∧ n * tick ≤ b.toNat ∧
          (if registry.hasError "MISSING_FRAMES" then
            lt (requestElement T b) (xs.head hne) = false
          else tsNat (xs.head hne) + n * tick ≤ b.toNat ∧
            b.toNat - n * tick ≤ (tsNat (xs.head hne) + q.occupancy * (n * tick)) % 2 ^ 64) ∧
          ∀ x ∈ xs, tsNat x < e.toNat → tsNat x + n * tick < 2 ^ 64)) ∧
    ∀ s : SkipListLatencyBufferModel T, s.elements = xs →
      (NothingWithheld s xs registry b e ↔
        n * tick ≤ b.toNat ∧ (∀ x ∈ xs, tsNat x < e.toNat → tsNat x + n * tick < 2 ^ 64) ∨
          b.toNat < n * tick ∧ 2 ^ 64 + b.toNat < tsNat (xs.head hne) + n * tick) := by
  refine ⟨fun q h => ?_, fun q h hgap hlookup => ?_, fun s h => ?_⟩
  · exact q.nothingWithheld_iff hlayout horder hsorted hne hrep hbe hnewest hfront h
  · exact q.nothingWithheld_iff hlayout horder hsorted hne hrep hbe hnewest hfront h hgap hlookup
  · exact s.nothingWithheld_iff hlayout horder hsorted hne hrep hbe hnewest hfront h

def twoChunks : BinarySearchQueueModel (Chunk 2 5) := ⟨filled 4 [⟨100⟩, ⟨110⟩]⟩

theorem represents_twoChunks : Represents twoChunks.toIterableQueueModel [⟨100⟩, ⟨110⟩] :=
  represents_filled (by decide) _ (by decide) (by decide)

theorem fragmentPieces_nothingWithheld_chunks :
    NothingWithheld twoChunks [⟨100⟩, ⟨110⟩] .empty 110 112 :=
  ((fragmentPieces_nothingWithheld_iff
      (Chunk.uniformLayout 2 5 (by decide) (by decide) (by decide))
      (Chunk.timestampOrder 2 5).consistent [⟨100⟩, ⟨110⟩]
      (by simp [StrictlyIncreasing, tsNat, getTimestamp]) (by simp)
      (by simp [tsNat, getTimestamp]) .empty 110 112 (by decide) (by decide) (by decide)).1
    twoChunks represents_twoChunks).mpr (by decide +kernel)

/-- A window that begins inside the oldest element is answered with no data. -/
theorem not_nothingWithheld_twoChunks :
    ¬ ∀ (q : BinarySearchQueueModel (Chunk 2 5)) (xs : List (Chunk 2 5)) (hne : xs ≠ [])
      (registry : FrameErrorRegistry) (b e : UInt64),
        Represents q.toIterableQueueModel xs → StrictlyIncreasing tsNat xs →
          b.toNat < e.toNat → b.toNat ≤ tsNat (xs.getLast hne) →
            tsNat (xs.head hne) < e.toNat → NothingWithheld q xs registry b e := by
  intro h
  obtain ⟨code, pieces, hres, hcode, _⟩ := h twoChunks [⟨100⟩, ⟨110⟩] (by simp) .empty 103 112
    represents_twoChunks (by simp [StrictlyIncreasing, tsNat, getTimestamp]) (by decide)
    (by decide) (by decide) 3 (by decide)
  rw [show getFragmentPieces twoChunks .empty 103 112 3 = some (.kNotFound, []) from
    by decide +kernel] at hres
  cases hres
  cases hcode

end DataHandling
