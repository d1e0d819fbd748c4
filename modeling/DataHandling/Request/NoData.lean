import DataHandling.Request.DataRequest
import DataHandling.Request.OldEdge

/-! What the answers `kNotYet` and `kTooOld` say about the buffer. The window is compared with
the begin of the newest element, which extends over several frames. -/

namespace DataHandling
open ReadoutType Ordered IterableQueueModel

variable {T : Type} [ReadoutType T]

def OverlapsWindow (x : T) (b e : UInt64) : Prop :=
  ∃ i < (getNumFrames x).toNat,
    b.toNat < tsNat x + i * (expectedTickDifference T).toNat + (expectedTickDifference T).toNat ∧
      tsNat x + i * (expectedTickDifference T).toNat < e.toNat

def ResultCode.noData (code : ResultCode) : Bool := code == .kNotYet || code == .kTooOld

/-- An extraction or a request that is answered without data hides none. -/
structure HidesNothing {LB : Type} [LatencyBuffer LB T] (lb : LB) (xs : List T)
    (registry : FrameErrorRegistry) (b e : UInt64) : Prop where
  pieces : ∀ fuel code pieces, getFragmentPieces lb registry b e fuel = some (code, pieces) →
    code.noData = true → ∀ x ∈ xs, ¬ OverlapsWindow x b e
  answers : ∀ source fuel stats result stats' dr, dr.windowBegin = b → dr.windowEnd = e →
    dataRequest lb registry source fuel stats dr = some (result, stats') →
      result.resultCode.noData = true → ∀ x ∈ xs, ¬ OverlapsWindow x b e

section Window
variable {n : ℕ} {b e : UInt64} {x : T}

theorem overlapsWindow_iff (hn : (getNumFrames x).toNat = n) (hpos : 1 ≤ n)
    (htick : 1 ≤ (expectedTickDifference T).toNat) (hbe : b.toNat < e.toNat) :
    OverlapsWindow x b e ↔
      tsNat x < e.toNat ∧ b.toNat < tsNat x + n * (expectedTickDifference T).toNat := by
  unfold OverlapsWindow
  rw [hn]
  generalize (expectedTickDifference T).toNat = tick at htick ⊢
  constructor
  · rintro ⟨i, hi, hb, he⟩
    have hle := frame_end_le tick hi
    omega
  · rintro ⟨he, hb⟩
    exact exists_tick_inWindow htick (Nat.mul_pos hpos htick) hbe he hb

theorem overlapsWindow_iff_exists_frame {tick : ℕ} (hlayout : UniformLayout T n tick)
    (hrep : tsNat x + (n - 1) * tick < 2 ^ 64) :
    OverlapsWindow x b e ↔ ∃ f ∈ frames x, f.inWindow b e = true := by
  rw [hlayout.frames_eq, OverlapsWindow, hlayout.numFrames, hlayout.tick_eq]
  have hframe : ∀ i < n, (Frame.mk x i).inWindow b e = true ↔
      b.toNat < tsNat x + i * tick + tick ∧ tsNat x + i * tick < e.toNat := by
    intro i hi
    have hle : i * tick ≤ (n - 1) * tick := Nat.mul_le_mul_right tick (by omega)
    rw [inWindow_iff hlayout, hlayout.frame_ts hi (by omega)]
  constructor
  · rintro ⟨i, hi, hw⟩
    exact ⟨_, List.mem_map.mpr ⟨i, List.mem_range.mpr hi, rfl⟩, (hframe i hi).mpr hw⟩
  · rintro ⟨f, hf, hw⟩
    obtain ⟨i, hi, rfl⟩ := List.mem_map.mp hf
    have hin := List.mem_range.mp hi
    exact ⟨i, hin, (hframe i hin).mp hw⟩

theorem windowCode_noData (lastTs newestTs b e : UInt64) :
    (windowCode lastTs newestTs b e).noData = false := by
  rw [windowCode]
  split_ifs <;> rfl

end Window

section Buffer
variable {LB : Type} [LatencyBuffer LB T] {lb : LB} {registry : FrameErrorRegistry}
  {b e : UInt64} {fuel : ℕ} {code : ResultCode} {pieces : List Piece}

theorem noData_cases (hres : getFragmentPieces lb registry b e fuel = some (code, pieces))
    (hcode : code.noData = true) :
    ∃ first last, LatencyBuffer.front lb = some first ∧ LatencyBuffer.back lb = some last ∧
      (b > getTimestamp last ∨ e < getTimestamp first) := by
  rw [getFragmentPieces] at hres
  obtain ⟨first, hfirst, hres⟩ := Option.bind_eq_some_iff.mp hres
  obtain ⟨last, hlast, hres⟩ := Option.bind_eq_some_iff.mp hres
  refine ⟨first, last, hfirst, hlast, ?_⟩
  split_ifs at hres with hearly hlate
  · exact .inl hearly
  · exact .inr hlate
  · obtain ⟨it, _, hres⟩ := Option.bind_eq_some_iff.mp hres
    split_ifs at hres
    · obtain ⟨ps, _, heq⟩ := Option.map_eq_some_iff.mp hres
      obtain ⟨rfl, -⟩ := Prod.mk.inj heq
      rw [windowCode_noData] at hcode
      cases hcode
    · cases hres
      cases hcode

theorem exists_pieces_of_dataRequest {source : FragmentSource} {stats stats' : RequestStats}
    {dr : DataRequest} {result : RequestResult}
    (hres : dataRequest lb registry source fuel stats dr = some (result, stats'))
    (hcode : result.resultCode.noData = true) :
    ∃ pieces, getFragmentPieces lb registry dr.windowBegin dr.windowEnd fuel =
      some (result.resultCode, pieces) := by
  rw [dataRequest] at hres
  split_ifs at hres
  · cases hres
    cases hcode
  · obtain ⟨⟨code, pieces⟩, hpieces, hres⟩ := Option.bind_eq_some_iff.mp hres
    obtain ⟨_, _, hres⟩ := Option.bind_eq_some_iff.mp hres
    obtain ⟨_, _, heq⟩ := Option.map_eq_some_iff.mp hres
    obtain ⟨rfl, -⟩ := Prod.mk.inj heq
    exact ⟨pieces, hpieces⟩

variable [BufferView LB T] {xs : List T} {n : ℕ}

/-- Nothing is hidden unless the window begins inside the newest element. -/
theorem hidesNothing_iff (hstores : BufferView.Stores lb xs)
    (hsorted : StrictlyIncreasing tsNat xs) (hne : xs ≠ [])
    (hn : ∀ x ∈ xs, (getNumFrames x).toNat = n) (hpos : 1 ≤ n)
    (htick : 1 ≤ (expectedTickDifference T).toNat) (hbe : b.toNat < e.toNat) :
    HidesNothing lb xs registry b e ↔
      ((LatencyBuffer.back lb).isSome →
        b.toNat ≤ tsNat (xs.getLast hne) ∨
          tsNat (xs.getLast hne) + n * (expectedTickDifference T).toNat ≤ b.toNat) := by
  have hoverlap : ∀ x ∈ xs, OverlapsWindow x b e ↔
      tsNat x < e.toNat ∧ b.toNat < tsNat x + n * (expectedTickDifference T).toNat :=
    fun x hx => overlapsWindow_iff (hn x hx) hpos htick hbe
  have hbelow : ∀ x ∈ xs, tsNat x ≤ tsNat (xs.getLast hne) :=
    hsorted.le_getLast (List.getLast?_eq_some_getLast hne)
  constructor
  · rintro ⟨hpieces, -⟩ hback
    by_contra hinside
    push Not at hinside
    obtain ⟨last, hlast⟩ := Option.isSome_iff_exists.mp hback
    obtain ⟨_, hlast'⟩ := exists_getLast_of_back hstores hlast
    have hres : getFragmentPieces lb registry b e 0 = some (.kNotYet, []) := by
      rw [getFragmentPieces, BufferView.front_eq hstores, List.head?_eq_some_head hne, hlast,
        Option.bind_some, Option.bind_some, if_pos]
      rw [← hlast']
      exact UInt64.lt_iff_toNat_lt.mpr hinside.1
    refine hpieces 0 _ _ hres rfl _ (List.getLast_mem hne)
      ((hoverlap _ (List.getLast_mem hne)).mpr ⟨?_, hinside.2⟩)
    exact Nat.lt_trans hinside.1 hbe
  · intro h
    have hnone : ∀ fuel code pieces, getFragmentPieces lb registry b e fuel = some (code, pieces) →
        code.noData = true → ∀ x ∈ xs, ¬ OverlapsWindow x b e := by
      intro fuel code pieces hres hcode x hx
      rw [hoverlap x hx]
      rintro ⟨he, hb⟩
      obtain ⟨first, last, hfirst, hlast, hcases⟩ := noData_cases hres hcode
      obtain ⟨_, hlast'⟩ := exists_getLast_of_back hstores hlast
      rcases hcases with hearly | hlate
      · have hlt : tsNat (xs.getLast hne) < b.toNat := by
          rw [hlast']
          exact UInt64.lt_iff_toNat_lt.mp hearly
        have hle := hbelow x hx
        rcases h (by rw [hlast]; rfl) with hle' | hpast <;> omega
      · rw [BufferView.front_eq hstores, List.head?_eq_getElem?] at hfirst
        obtain ⟨hpos, hfirst⟩ := List.getElem?_eq_some_iff.mp hfirst
        obtain ⟨i, hi, rfl⟩ := List.getElem_of_mem hx
        have hle := hsorted.key_le (Nat.zero_le i) hi
        rw [hfirst] at hle
        have hlt : e.toNat < tsNat first := UInt64.lt_iff_toNat_lt.mp hlate
        omega
    refine ⟨hnone, fun source fuel stats result stats' dr hb he hres hcode => ?_⟩
    obtain ⟨pieces, hpieces⟩ := exists_pieces_of_dataRequest hres hcode
    rw [hb, he] at hpieces
    exact hnone _ _ _ hpieces hcode

end Buffer

/-- For each of the buffers and every window, when an answer without data hides none. -/
theorem fragmentPieces_hidesNothing_iff (xs : List T) (hsorted : StrictlyIncreasing tsNat xs)
    (hne : xs ≠ []) {n : ℕ} (hframes : ∀ x ∈ xs, (getNumFrames x).toNat = n) (hpos : 1 ≤ n)
    (htick : 1 ≤ (expectedTickDifference T).toNat) (registry : FrameErrorRegistry) (b e : UInt64)
    (hbe : b.toNat < e.toNat) :
    (∀ q : BinarySearchQueueModel T, Represents q.toIterableQueueModel xs →
      (HidesNothing q xs registry b e ↔
        ((LatencyBuffer.back q).isSome →
          b.toNat ≤ tsNat (xs.getLast hne) ∨
            tsNat (xs.getLast hne) + n * (expectedTickDifference T).toNat ≤ b.toNat))) ∧
    (∀ q : FixedRateQueueModel T, Represents q.toIterableQueueModel xs →
      (HidesNothing q xs registry b e ↔
        ((LatencyBuffer.back q).isSome →
          b.toNat ≤ tsNat (xs.getLast hne) ∨
            tsNat (xs.getLast hne) + n * (expectedTickDifference T).toNat ≤ b.toNat))) ∧
    ∀ s : SkipListLatencyBufferModel T, s.elements = xs →
      (HidesNothing s xs registry b e ↔
        (b.toNat ≤ tsNat (xs.getLast hne) ∨
          tsNat (xs.getLast hne) + n * (expectedTickDifference T).toNat ≤ b.toNat)) := by
  refine ⟨fun q h => ?_, fun q h => ?_, fun s h => ?_⟩
  · exact hidesNothing_iff h hsorted hne hframes hpos htick hbe
  · exact hidesNothing_iff h hsorted hne hframes hpos htick hbe
  · have hback : (LatencyBuffer.back s).isSome := by
      change s.elements.getLast?.isSome
      rw [h, List.getLast?_eq_some_getLast hne]
      rfl
    have hstores : BufferView.Stores s xs := h
    rw [hidesNothing_iff hstores hsorted hne hframes hpos htick hbe]
    exact ⟨fun hall => hall hback, fun hcase _ => hcase⟩

theorem fragmentPieces_hidesNothing_iff_past :
    HidesNothing twoChunks [⟨100⟩, ⟨110⟩] .empty 120 130 :=
  ((fragmentPieces_hidesNothing_iff [⟨100⟩, ⟨110⟩]
    (by simp [StrictlyIncreasing, tsNat, getTimestamp]) (by simp)
    (fun x _ => (rfl : (getNumFrames x).toNat = 2)) (by decide) (by decide) .empty 120 130
    (by decide)).1
    twoChunks represents_twoChunks).mpr fun _ => .inr (by decide)

/-- A window that begins in the second frame of the newest element. -/
theorem not_hidesNothing_of_newest :
    ¬ ∀ (q : BinarySearchQueueModel (Chunk 2 5)) (xs : List (Chunk 2 5)) (_ : xs ≠ [])
      (registry : FrameErrorRegistry) (b e : UInt64),
        Represents q.toIterableQueueModel xs → StrictlyIncreasing tsNat xs →
          b.toNat < e.toNat → HidesNothing q xs registry b e := by
  intro h
  have hhides := h twoChunks [⟨100⟩, ⟨110⟩] (by simp) .empty 117 130 represents_twoChunks
    (by simp [StrictlyIncreasing, tsNat, getTimestamp]) (by decide)
  exact hhides.pieces 0 .kNotYet [] (by decide +kernel) rfl ⟨110⟩ (by simp)
    ⟨1, by decide, by decide, by decide⟩

end DataHandling
