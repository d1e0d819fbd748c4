import DataHandling.Buffer.RingBuffers
import DataHandling.Buffer.SkipList
import DataHandling.Chunk
import DataHandling.Request.ElementFrames

/-! The pieces returned for a window denote exactly the stored frames that overlap it, for
each of the buffers. -/

namespace DataHandling
open ReadoutType Ordered IterableQueueModel

def ResultCode.hasPieces : ResultCode → Bool
  | .kFound | .kPartial | .kPartiallyOld => true
  | _ => false

variable {T : Type} [ReadoutType T] {n tick : ℕ}

/-- What an extraction from a buffer with content `xs` gives for one window, once the loop is
given more iterations than there are elements. -/
structure ExactExtraction {LB : Type} [LatencyBuffer LB T] (n tick : ℕ) (lb : LB) (xs : List T)
    (registry : FrameErrorRegistry) (b e : UInt64) : Prop where
  returns : xs ≠ [] → (LatencyBuffer.back lb).isSome → ∀ fuel > xs.length,
    (getFragmentPieces lb registry b e fuel).isSome
  exact : ∀ fuel > xs.length, ∀ code pieces,
    getFragmentPieces lb registry b e fuel = some (code, pieces) → code.hasPieces = true →
      framesOf lb pieces = (storedFrames xs).filter (Frame.inWindow b e)
  covers : ∀ fuel > xs.length, ∀ pieces,
    getFragmentPieces lb registry b e fuel = some (.kFound, pieces) → b < e →
      GapFree (n * tick) xs → ∀ t, b.toNat ≤ t → t < e.toNat →
        (framesOf lb pieces).countP (fun f => decide (f.ts ≤ t) && decide (t < f.ts + tick)) = 1

section Coverage
variable (hlayout : UniformLayout T n tick)

theorem countP_range_covers (tick n s t : ℕ) :
    (List.range n).countP
        (fun i => decide (s + i * tick ≤ t) && decide (t < s + i * tick + tick)) =
      if s ≤ t ∧ t < s + n * tick then 1 else 0 := by
  induction n with
  | zero =>
    rw [if_neg (by omega)]
    rfl
  | succ n ih =>
    have hmul := Nat.zero_le (n * tick)
    rw [List.range_succ, List.countP_append, ih, List.countP_singleton, Nat.succ_mul]
    simp only [Bool.and_eq_true, decide_eq_true_eq]
    split_ifs <;> omega

include hlayout

theorem countP_frames_covers {x : T} (hend : tsNat x + n * tick < 2 ^ 64) (t : ℕ) :
    (frames x).countP (fun f => decide (f.ts ≤ t) && decide (t < f.ts + tick)) =
      if tsNat x ≤ t ∧ t < tsNat x + n * tick then 1 else 0 := by
  rw [hlayout.frames_eq, List.countP_map, ← countP_range_covers tick n (tsNat x) t]
  apply List.countP_congr
  intro i hi
  have hin := List.mem_range.mp hi
  have hle := frame_end_le tick hin
  rw [Function.comp_apply, hlayout.frame_ts hin (by omega)]

/-- In gap-free content every tick from the front to the end of the newest element is covered
by one frame. -/
theorem countP_storedFrames_covers {xs : List T} (hgap : GapFree (n * tick) xs)
    (hend : ∀ x ∈ xs, tsNat x + n * tick < 2 ^ 64) (hne : xs ≠ []) {t : ℕ}
    (hfirst : tsNat (xs.head hne) ≤ t) (hlast : t < tsNat (xs.getLast hne) + n * tick) :
    (storedFrames xs).countP (fun f => decide (f.ts ≤ t) && decide (t < f.ts + tick)) = 1 := by
  have hcount : ∀ y, y ∈ xs → _ := fun y hy => countP_frames_covers hlayout (hend y hy) t
  induction xs with
  | nil => exact absurd rfl hne
  | cons x xs ih =>
    rw [storedFrames, List.flatMap_cons, List.countP_append, ← storedFrames,
      hcount x List.mem_cons_self]
    cases xs with
    | nil =>
      rw [if_pos ⟨hfirst, hlast⟩]
      rfl
    | cons y ys =>
      obtain ⟨hxy, hys⟩ := List.isChain_cons_cons.mp hgap
      by_cases ht : t < tsNat x + n * tick
      · -- the tick lies in the first element, so in no later one
        have hsorted := GapFree.strictlyIncreasing hys hlayout.span_pos
        rw [if_pos ⟨hfirst, ht⟩, storedFrames]
        have hzero : ∀ z ∈ y :: ys,
            (frames z).countP (fun f => decide (f.ts ≤ t) && decide (t < f.ts + tick)) = 0 := by
          intro z hz
          have hyz : tsNat y ≤ tsNat z := by
            rcases List.mem_cons.mp hz with rfl | hmem
            · exact le_rfl
            · exact (List.rel_of_pairwise_cons hsorted hmem).le
          rw [hcount z (List.mem_cons_of_mem _ hz), if_neg (by omega)]
        rw [Nat.add_eq_left, List.countP_eq_zero]
        intro f hf
        obtain ⟨z, hz, hfz⟩ := List.mem_flatMap.mp hf
        exact List.countP_eq_zero.mp (hzero z hz) f hfz
      · rw [if_neg (by omega), Nat.zero_add]
        exact ih hys (fun z hz => hend z (List.mem_cons_of_mem _ hz)) (List.cons_ne_nil _ _)
          (by rw [List.head_cons]; omega) (by rwa [List.getLast_cons_cons] at hlast)
          fun z hz => hcount z (List.mem_cons_of_mem _ hz)

end Coverage

section Key
variable (hlayout : UniformLayout T n tick)
include hlayout

theorem tsNat_requestElement (b : UInt64) :
    tsNat (requestElement T b) =
      if n * tick ≤ b.toNat then b.toNat - n * tick else 2 ^ 64 + b.toNat - n * tick := by
  have hb := b.toNat_lt
  have hspan := hlayout.span_lt
  rw [tsNat, requestElement, hlayout.get_set, UInt64.toNat_sub, hlayout.tickSpan_toNat]
  split_ifs <;> omega

end Key

/-- Where the search gives a good result, the loop that starts there gathers the frames of the
window. -/
def GathersWindow {LB : Type} [LatencyBuffer LB T] (lb : LB) (xs : List T)
    (registry : FrameErrorRegistry) (b e : UInt64) : Prop :=
  ∀ hne : xs ≠ [], b.toNat ≤ tsNat (xs.getLast hne) → tsNat (xs.head hne) ≤ e.toNat → ∀ it,
    LatencyBuffer.lowerBound lb (requestElement T b) (registry.hasError "MISSING_FRAMES") =
      some it → LatencyBuffer.good lb it = true → ∀ fuel > xs.length, ∃ pieces,
        gatherPieces lb b e fuel it = some pieces ∧
          framesOf lb pieces = (storedFrames xs).filter (Frame.inWindow b e)

section Extraction
variable {LB : Type} [LatencyBuffer LB T] [BufferView LB T] {lb : LB} {xs : List T}
  {registry : FrameErrorRegistry} {b e : UInt64}

omit [ReadoutType T] in
theorem exists_getLast_of_back (hstores : BufferView.Stores lb xs) {last : T}
    (hlast : LatencyBuffer.back lb = some last) : ∃ hne : xs ≠ [], xs.getLast hne = last :=
  List.mem_getLast?_eq_getLast (BufferView.back_sound hstores hlast) |>.imp fun _ h => h.symm

theorem GathersWindow.returns (hgathers : GathersWindow lb xs registry b e)
    (hstores : BufferView.Stores lb xs) (hne : xs ≠ [])
    (hsome : (LatencyBuffer.lowerBound lb (requestElement T b)
      (registry.hasError "MISSING_FRAMES")).isSome) (hback : (LatencyBuffer.back lb).isSome)
    {fuel : ℕ} (hfuel : fuel > xs.length) : (getFragmentPieces lb registry b e fuel).isSome := by
  obtain ⟨last, hlast⟩ := Option.isSome_iff_exists.mp hback
  obtain ⟨_, rfl⟩ := exists_getLast_of_back hstores hlast
  obtain ⟨it, hit⟩ := Option.isSome_iff_exists.mp hsome
  rw [getFragmentPieces, BufferView.front_eq hstores, List.head?_eq_some_head hne, hlast,
    Option.bind_some, Option.bind_some, hit, Option.bind_some]
  split_ifs with hnotYet hold hgood
  · rfl
  · rfl
  · have hnewest := UInt64.le_iff_toNat_le.mp (UInt64.not_lt.mp hnotYet)
    have hoverlap := UInt64.le_iff_toNat_le.mp (UInt64.not_lt.mp hold)
    obtain ⟨ps, hps, _⟩ := hgathers hne hnewest hoverlap it hit hgood fuel hfuel
    rw [hps]
    rfl
  · rfl

theorem GathersWindow.exact (hgathers : GathersWindow lb xs registry b e)
    (hstores : BufferView.Stores lb xs) {fuel : ℕ} (hfuel : fuel > xs.length) {code : ResultCode}
    {pieces : List Piece} (hres : getFragmentPieces lb registry b e fuel = some (code, pieces))
    (hcode : code.hasPieces = true) :
    ∃ hne : xs ≠ [],
      code = windowCode (getTimestamp (xs.head hne)) (getTimestamp (xs.getLast hne)) b e ∧
        framesOf lb pieces = (storedFrames xs).filter (Frame.inWindow b e) := by
  rw [getFragmentPieces] at hres
  obtain ⟨first, hfirst, hres⟩ := Option.bind_eq_some_iff.mp hres
  obtain ⟨last, hlast, hres⟩ := Option.bind_eq_some_iff.mp hres
  obtain ⟨hne, rfl⟩ := exists_getLast_of_back hstores hlast
  rw [BufferView.front_eq hstores, List.head?_eq_some_head hne, Option.some.injEq] at hfirst
  subst hfirst
  split_ifs at hres with hnotYet hold
  · cases hres
    cases hcode
  · cases hres
    cases hcode
  obtain ⟨it, hit, hres⟩ := Option.bind_eq_some_iff.mp hres
  split_ifs at hres with hgood
  · have hnewest := UInt64.le_iff_toNat_le.mp (UInt64.not_lt.mp hnotYet)
    have hoverlap := UInt64.le_iff_toNat_le.mp (UInt64.not_lt.mp hold)
    obtain ⟨ps, hps, hframes⟩ := hgathers hne hnewest hoverlap it hit hgood fuel hfuel
    rw [hps] at hres
    cases hres
    exact ⟨hne, rfl, hframes⟩
  · cases hres
    cases hcode

theorem toNat_le_of_windowCode_eq_kFound {oldest newest : UInt64}
    (hcode : .kFound = windowCode oldest newest b e) :
    e.toNat ≤ newest.toNat ∧ oldest.toNat ≤ b.toNat := by
  rw [windowCode] at hcode
  split_ifs at hcode with hpartial hold
  exact ⟨UInt64.le_iff_toNat_le.mp (UInt64.not_lt.mp hpartial),
    UInt64.le_iff_toNat_le.mp (UInt64.not_lt.mp hold)⟩

variable (hlayout : UniformLayout T n tick)
include hlayout

/-- The frames of the window that cover a tick of it are all the frames that cover it. -/
theorem countP_window_covers (hend : ∀ x ∈ xs, tsNat x + n * tick < 2 ^ 64)
    (hgap : GapFree (n * tick) xs) (hne : xs ≠ []) (hfirst : tsNat (xs.head hne) ≤ b.toNat)
    (hlast : e.toNat ≤ tsNat (xs.getLast hne)) {t : ℕ} (hbt : b.toNat ≤ t) (hte : t < e.toNat) :
    ((storedFrames xs).filter (Frame.inWindow b e)).countP
      (fun f => decide (f.ts ≤ t) && decide (t < f.ts + tick)) = 1 := by
  have hpos := hlayout.span_pos
  rw [List.countP_filter, ← countP_storedFrames_covers hlayout hgap hend hne
    (t := t) (by omega) (by omega)]
  apply List.countP_congr
  intro f _
  rw [Bool.and_eq_true, and_iff_left_iff_imp]
  intro hcovers
  rw [Bool.and_eq_true, decide_eq_true_iff, decide_eq_true_iff] at hcovers
  rw [inWindow_iff hlayout]
  omega

variable (hsorted : StrictlyIncreasing tsNat xs)
  (hend : ∀ x ∈ xs, tsNat x + n * tick < 2 ^ 63)
include hsorted hend

/-- A search whose good results leave only elements before them that end by the begin of the
window makes the extraction exact. -/
theorem exactExtraction_of_lookup (hstores : BufferView.Stores lb xs)
    (hsome : xs ≠ [] → (LatencyBuffer.lowerBound lb (requestElement T b)
      (registry.hasError "MISSING_FRAMES")).isSome)
    (hlookup : ∀ hne : xs ≠ [], b.toNat ≤ tsNat (xs.getLast hne) →
      tsNat (xs.head hne) ≤ e.toNat → ∀ it,
      LatencyBuffer.lowerBound lb (requestElement T b)
        (registry.hasError "MISSING_FRAMES") = some it → LatencyBuffer.good lb it = true →
      n * tick ≤ b.toNat ∧
        ∃ k ≤ xs.length, BufferView.At lb xs it k ∧
          ∀ x ∈ xs.take k, tsNat x + n * tick ≤ b.toNat) :
    ExactExtraction n tick lb xs registry b e := by
  have hend' : ∀ x ∈ xs, tsNat x + n * tick < 2 ^ 64 := fun x hx =>
    Nat.lt_trans (hend x hx) (by decide)
  have hgathers : GathersWindow lb xs registry b e := by
    intro hne hnewest hoverlap it hit hgood fuel hfuel
    obtain ⟨hb, k, hk, hat, hbefore⟩ := hlookup hne hnewest hoverlap it hit hgood
    exact gatherPieces_frames hstores hlayout hsorted hend' hb hat hk hbefore hfuel
  refine ⟨fun hne hback fuel hfuel => hgathers.returns hstores hne (hsome hne) hback hfuel,
    fun fuel hfuel code pieces hres hcode => ?_,
    fun fuel hfuel pieces hres hbe hgap t hbt hte => ?_⟩
  · obtain ⟨_, _, hframes⟩ := hgathers.exact hstores hfuel hres hcode
    exact hframes
  · obtain ⟨hne, hcode, hframes⟩ := hgathers.exact hstores hfuel hres rfl
    obtain ⟨hlast, hfirst⟩ := toNat_le_of_windowCode_eq_kFound hcode
    rw [hframes]
    exact countP_window_covers hlayout hend' hgap hne hfirst hlast hbt hte

end Extraction

section Buffers
variable {xs : List T} {registry : FrameErrorRegistry} {b e : UInt64}
  (hlayout : UniformLayout T n tick) (hsorted : StrictlyIncreasing tsNat xs)
  (hend : ∀ x ∈ xs, tsNat x + n * tick < 2 ^ 63)
include hlayout hend

theorem span_le_of_key_le {x : T} (hx : x ∈ xs) (hkey : tsNat (requestElement T b) ≤ tsNat x) :
    n * tick ≤ b.toNat := by
  have h := hend x hx
  rw [tsNat_requestElement hlayout] at hkey
  split_ifs at hkey with hb
  · exact hb
  · omega

omit hlayout hend in
theorem end_le_of_le_lowerBound {k : ℕ} (hb : n * tick ≤ b.toNat)
    (hk : k ≤ lowerBound tsNat xs (b.toNat - n * tick)) :
    ∀ x ∈ xs.take k, tsNat x + n * tick ≤ b.toNat := by
  apply forall_mem_take
  intro i hi hlen
  have := lt_of_lt_lowerBound (Nat.lt_of_lt_of_le hi hk) hlen
  omega

include hsorted

theorem search_lookup (horder : TimestampConsistent T) {q : IterableQueueModel T}
    (h : Represents q xs) {it : ℕ}
    (hit : BinarySearchQueueModel.search q (requestElement T b) = some it)
    (hgood : q.good it = true) :
    n * tick ≤ b.toNat ∧ ∃ k ≤ xs.length, At q xs it k ∧
      ∀ x ∈ xs.take k, tsNat x + n * tick ≤ b.toNat := by
  obtain ⟨hat, hlt, _⟩ := BinarySearchQueueModel.search_good h horder hsorted hit hgood
  have hb := span_le_of_key_le hlayout hend (List.getElem_mem hlt) (le_key_lowerBound hlt)
  rw [tsNat_requestElement hlayout, if_pos hb] at hat hlt
  exact ⟨hb, _, hlt.le, hat, end_le_of_le_lowerBound hb le_rfl⟩

theorem BinarySearchQueueModel.exactExtraction (horder : TimestampConsistent T)
    (q : BinarySearchQueueModel T) (h : Represents q.toIterableQueueModel xs) :
    ExactExtraction n tick q xs registry b e :=
  exactExtraction_of_lookup hlayout hsorted hend h (fun _ => search_isSome h horder hsorted)
    fun _ _ _ _ hit hgood => search_lookup hlayout hsorted hend horder h hit hgood

theorem SkipListLatencyBufferModel.exactExtraction (horder : TimestampConsistent T)
    (s : SkipListLatencyBufferModel T) (h : s.elements = xs) :
    ExactExtraction n tick s xs registry b e := by
  subst h
  refine exactExtraction_of_lookup hlayout hsorted hend rfl (fun _ => rfl) ?_
  intro _ _ _ it hit hgood
  have hlt : it < s.elements.length := of_decide_eq_true hgood
  cases hit
  have hb := span_le_of_key_le hlayout hend (List.getElem_mem hlt)
    (s.le_lowerBound horder (requestElement T b) _ hlt)
  refine ⟨hb, _, hlt.le, rfl, forall_mem_take fun i hi hlen => ?_⟩
  have hle := s.le_of_lt_lowerBound horder _ _ hi hlen
  rw [tsNat_requestElement hlayout, if_pos hb] at hle
  omega

theorem FixedRateQueueModel.exactExtraction (horder : TimestampConsistent T)
    (q : FixedRateQueueModel T) (h : Represents q.toIterableQueueModel xs)
    (hfast : registry.hasError "MISSING_FRAMES" = true ∨
      GapFree (n * tick) xs ∧ (n * tick ≤ b.toNat ∨ q.occupancy = xs.length ∨
        ∀ hne : xs ≠ [], e.toNat < tsNat (xs.head hne) ∨ tsNat (xs.getLast hne) < b.toNat)) :
    ExactExtraction n tick q xs registry b e := by
  cases herr : registry.hasError "MISSING_FRAMES" with
  | true =>
    refine exactExtraction_of_lookup hlayout hsorted hend h ?_ ?_
    · rw [herr]
      exact fun _ => BinarySearchQueueModel.search_isSome h horder hsorted
    · rw [herr]
      exact fun _ _ _ _ hit hgood => search_lookup hlayout hsorted hend horder h hit hgood
  | false =>
    obtain ⟨hgap, hkey⟩ := hfast.resolve_left (Bool.eq_false_iff.mp herr)
    refine exactExtraction_of_lookup hlayout hsorted hend h ?_ ?_
    · rw [herr]
      exact fun hne => computedSearch_isSome h hne
    rw [herr]
    intro hne hnewest hoverlap it hit hgood
    have hit' : computedSearch q.toIterableQueueModel (requestElement T b) = some it := hit
    have hb : n * tick ≤ b.toNat := by
      rcases hkey with hb | hocc | hapart
      · exact hb
      swap
      · exact absurd (hapart hne) (by omega)
      by_contra hnot
      -- a key that wrapped lies past the extrapolated newest element
      have habove : tsNat (xs.head hne) + xs.length * (n * tick) <
          tsNat (requestElement T b) := by
        have hlast := hend _ (List.getLast_mem hne)
        have hpos := List.length_pos_iff.mpr hne
        have hmul : (xs.length - 1) * (n * tick) + n * tick = xs.length * (n * tick) := by
          rw [← Nat.succ_mul, Nat.succ_eq_add_one, Nat.sub_add_cancel hpos]
        rw [List.getLast_eq_getElem, hgap.tsNat_getElem, ← List.head_eq_getElem hne] at hlast
        rw [tsNat_requestElement hlayout, if_neg hnot]
        omega
      have hlt := tsNat_lt (requestElement T b)
      rw [computedSearch_of_outside h hne (hlayout.hasExtent _)
        (.inr (by rw [hocc, Nat.mod_eq_of_lt (by omega)]; exact habove))] at hit'
      cases hit'
      exact absurd hgood (Bool.eq_false_iff.mp (good_endIndex q.toIterableQueueModel))
    have hkey : tsNat (requestElement T b) = b.toNat - n * tick := by
      rw [tsNat_requestElement hlayout, if_pos hb]
    obtain ⟨k, hk, hlt, rfl⟩ :=
      computedSearch_le h hgap hne (hlayout.hasExtent _) (by omega) hit' hgood
    rw [hkey] at hk
    exact ⟨hb, k, hlt.le, h.at_slot hlt.le, end_le_of_le_lowerBound hb hk⟩

end Buffers

section OversizedRing

def steadyChunk (i : ℕ) : Chunk 1 3 := ⟨UInt64.ofNat (3 + 3 * i)⟩

theorem tsNat_steadyChunk {i : ℕ} (hi : i < 4294967296) : tsNat (steadyChunk i) = 3 + 3 * i := by
  rw [tsNat, steadyChunk]
  exact UInt64.toNat_ofNat_of_lt (by omega : 3 + 3 * i < 2 ^ 64)

/-- A full ring of `2^32 - 1` slots, with the write index one slot before the read index. -/
def oversizedRing : FixedRateQueueModel (Chunk 1 3) :=
  ⟨⟨positioned 4294967295 2 4294967294 steadyChunk⟩⟩

/-- The signed index difference of that ring is minus one, so its extrapolated newest
timestamp is the key that the window at zero wraps to. -/
theorem getFragmentPieces_oversizedRing :
    getFragmentPieces oversizedRing .empty 0 4 (4294967294 + 1) = some (.kPartiallyOld, []) := by
  decide +kernel

theorem gapFree_steadyChunks {length : ℕ} (hlength : length < 4294967296) :
    GapFree (1 * 3) ((List.range length).map steadyChunk) := by
  rw [GapFree, List.isChain_iff_getElem]
  intro i hi
  rw [List.length_map, List.length_range] at hi
  rw [List.getElem_map, List.getElem_map, List.getElem_range, List.getElem_range,
    tsNat_steadyChunk (by omega), tsNat_steadyChunk (by omega)]
  omega

end OversizedRing

end DataHandling
