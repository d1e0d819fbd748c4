import DataHandling.Request.ConcurrentExtraction
import DataHandling.Request.DataRequest

/-! The ring at earlier instants of an extraction: what its content has in common with the present
one, and what an extraction at one instant collects there. -/

namespace DataHandling
open MachineInt Cyclic Ordered ReadoutType IterableQueueModel

namespace ExtractionSystem
variable {T : Type} [ReadoutType T] {n tick : ℕ} {fastPath : Bool}

/-- A ring as it was, with its content, at some time since the content was `xs` and until it was
`ys`. -/
structure Snapshot (q : IterableQueueModel T) (xs ys : List T) (ring : IterableQueueModel T)
    (zs : List T) : Prop where
  represents : Represents ring zs
  size_eq : ring.size = q.size
  readIndex_eq : ring.readIndex = q.readIndex
  since : xs <+: zs
  upTo : zs <+: ys

/-- The boundaries of `ys`, for a window that is neither too new nor too old. -/
structure Bounded (b e : UInt64) (ys : List T) (lastTs newestTs : UInt64) : Prop where
  head : ys.head?.map getTimestamp = some lastTs
  last : ys.getLast?.map getTimestamp = some newestTs
  notYet : ¬ b > newestTs
  notOld : ¬ e < lastTs

/-- The search finds position `k`. -/
structure Starts (fastPath : Bool) (b : UInt64) (ys : List T) (k : ℕ) : Prop where
  notBelow : ∀ x ∈ ys.head?, below fastPath (requestElement T b) x = false
  lowerBound_eq : Ordered.lowerBound tsNat ys (tsNat (requestElement T b)) = k
  lt_length : k < ys.length

def stretchPieces (q : IterableQueueModel T) (b e : UInt64) (xs : List T) (k m : ℕ) : List Piece :=
  (List.range' k m).flatMap fun i =>
    (xs[i]?).elim [] (elementPieces b e (slot q.size q.readIndex i))

/-- The loop has gone over `m` elements from position `k` on, all before the end of the window. -/
structure Gathered (q : IterableQueueModel T) (b e : UInt64) (xs : List T) (k m : ℕ)
    (pieces : List Piece) : Prop where
  le_length : k + m ≤ xs.length
  before : ∀ i, k ≤ i → i < k + m → ∀ x ∈ xs[i]?, getTimestamp x < e
  pieces_eq : pieces = stretchPieces q b e xs k m

section Prefix
variable {q : IterableQueueModel T} {b e : UInt64} {xs ys zs ws : List T} {k m : ℕ}
  {pieces : List Piece}

omit [ReadoutType T] in
theorem Snapshot.mono {ring : IterableQueueModel T} (h : Snapshot q xs ys ring zs)
    (hpre : ys <+: ws) : Snapshot q xs ws ring zs :=
  { h with upTo := h.upTo.trans hpre }

omit [ReadoutType T] in
theorem getElem?_of_isPrefix {i : ℕ} (hpre : xs <+: ys) (hi : i < xs.length) : ys[i]? = xs[i]? := by
  obtain ⟨rest, rfl⟩ := hpre
  rw [List.getElem?_append_left hi]

omit [ReadoutType T] in
theorem head?_of_isPrefix (hpre : xs <+: ys) (hne : xs ≠ []) : ys.head? = xs.head? := by
  rw [List.head?_eq_getElem?, List.head?_eq_getElem?,
    getElem?_of_isPrefix hpre (List.length_pos_iff.mpr hne)]

theorem Bounded.ne_nil {lastTs newestTs : UInt64} (h : Bounded b e ys lastTs newestTs) :
    ys ≠ [] := by
  rintro rfl
  have hhead := h.head
  cases hhead

theorem Starts.later (h : Starts fastPath b ys k) (hpre : ys <+: zs) :
    Starts fastPath b zs k where
  notBelow := by
    have hne : ys ≠ [] := List.length_pos_iff.mp (Nat.lt_of_le_of_lt (Nat.zero_le k) h.lt_length)
    rw [head?_of_isPrefix hpre hne]
    exact h.notBelow
  lowerBound_eq := by
    rw [lowerBound_of_isPrefix hpre (h.lowerBound_eq ▸ h.lt_length), h.lowerBound_eq]
  lt_length := Nat.lt_of_lt_of_le h.lt_length hpre.length_le

theorem stretchPieces_succ {x : T} (hx : xs[k]? = some x) :
    stretchPieces q b e xs k (m + 1) =
      elementPieces b e (slot q.size q.readIndex k) x ++ stretchPieces q b e xs (k + 1) m := by
  rw [stretchPieces, List.range'_succ, List.flatMap_cons, hx]
  rfl

theorem stretchPieces_of_isPrefix (hpre : xs <+: ys) (hle : k + m ≤ xs.length) :
    stretchPieces q b e ys k m = stretchPieces q b e xs k m := by
  refine List.flatMap_congr fun i hi => ?_
  have hlt := (List.mem_range'_1.mp hi).2
  rw [getElem?_of_isPrefix hpre (by omega)]

theorem Gathered.mono (h : Gathered q b e xs k m pieces) (hpre : xs <+: ys) :
    Gathered q b e ys k m pieces where
  le_length := Nat.le_trans h.le_length hpre.length_le
  before := by
    intro i hki him x hx
    have hle := h.le_length
    rw [getElem?_of_isPrefix hpre (by omega)] at hx
    exact h.before i hki him x hx
  pieces_eq := by rw [stretchPieces_of_isPrefix hpre h.le_length, h.pieces_eq]

theorem Gathered.of_isPrefix (h : Gathered q b e ys k m pieces) (hpre : xs <+: ys)
    (hle : k + m ≤ xs.length) : Gathered q b e xs k m pieces where
  le_length := hle
  before := by
    intro i hki him x hx
    rw [← getElem?_of_isPrefix hpre (by omega)] at hx
    exact h.before i hki him x hx
  pieces_eq := by rw [← stretchPieces_of_isPrefix hpre hle, h.pieces_eq]

theorem gathered_zero (hk : k ≤ xs.length) : Gathered q b e xs k 0 [] :=
  ⟨hk, fun _ hki him => absurd him (by omega), rfl⟩

theorem Gathered.succ (h : Gathered q b e xs k m pieces) {x : T} (hx : xs[k + m]? = some x)
    (hless : getTimestamp x < e) :
    Gathered q b e xs k (m + 1)
      (pieces ++ elementPieces b e (slot q.size q.readIndex (k + m)) x) where
  le_length := by
    have hlt := (List.getElem?_eq_some_iff.mp hx).1
    omega
  before := by
    intro i hki him y hy
    rcases Nat.lt_or_ge i (k + m) with hlt | hge
    · exact h.before i hki hlt y hy
    · obtain rfl : i = k + m := by omega
      rw [hx] at hy
      obtain rfl := Option.some.inj hy
      exact hless
  pieces_eq := by
    rw [stretchPieces, List.range'_concat, List.flatMap_append, Nat.one_mul,
      List.flatMap_singleton, hx, h.pieces_eq]
    rfl

end Prefix

section Atomic
variable {LB : Type} [LatencyBuffer LB T] [RingBuffer LB T] {wrap : IterableQueueModel T → LB}
  {registry : FrameErrorRegistry}

/-- `wrap` makes a latency buffer of a ring, whose search takes the computed index or not. -/
structure Wraps (fastPath : Bool) (wrap : IterableQueueModel T → LB)
    (registry : FrameErrorRegistry) : Prop where
  queue_wrap : ∀ q, RingBuffer.queue (wrap q) = q
  lowerBound_wrap : ∀ q element, LatencyBuffer.lowerBound (wrap q) element
    (registry.hasError "MISSING_FRAMES") = lookup fastPath q element

section Stored
variable {q ring : IterableQueueModel T} {xs ys zs : List T} {b e : UInt64}
  {lastTs newestTs : UInt64} (hwrap : Wraps fastPath wrap registry)
  (h : Snapshot q xs ys ring zs)
include hwrap h

theorem Snapshot.front_wrap : LatencyBuffer.front (wrap ring) = zs.head? := by
  rw [RingBuffer.front_eq, hwrap.queue_wrap, h.represents.front_records]

theorem Snapshot.back_wrap (hsize : q.size < 2147483648) :
    LatencyBuffer.back (wrap ring) = zs.getLast? := by
  rw [RingBuffer.back_eq, hwrap.queue_wrap,
    h.represents.back_records (h.size_eq ▸ Nat.le_of_lt hsize)]

theorem Snapshot.getFragmentPieces_eq (hsize : q.size < 2147483648) {it : ℕ} (fuel : ℕ)
    (hbounded : Bounded b e zs lastTs newestTs)
    (hlookup : lookup fastPath ring (requestElement T b) = some it) :
    getFragmentPieces (wrap ring) registry b e fuel =
      if ring.good it then
        (gatherPieces (wrap ring) b e fuel it).map fun pieces =>
          (windowCode lastTs newestTs b e, pieces)
      else some (.kNotFound, []) := by
  have hne := hbounded.ne_nil
  have hhead := hbounded.head
  have hlast := hbounded.last
  rw [List.head?_eq_some_head hne, Option.map_some, Option.some.injEq] at hhead
  rw [List.getLast?_eq_some_getLast hne, Option.map_some, Option.some.injEq] at hlast
  rw [getFragmentPieces, h.front_wrap hwrap, h.back_wrap hwrap hsize, List.head?_eq_some_head hne,
    List.getLast?_eq_some_getLast hne, Option.bind_some, Option.bind_some, hhead, hlast,
    if_neg hbounded.notYet, if_neg hbounded.notOld, hwrap.lowerBound_wrap, hlookup,
    Option.bind_some, RingBuffer.good_eq, hwrap.queue_wrap]

theorem Snapshot.dataRequest_eq (hsize : q.size < 2147483648) (hne : zs ≠ [])
    (source : FragmentSource) (stats : RequestStats) {dr : DataRequest} {fuel : ℕ}
    {code : ResultCode} {pieces : List Piece}
    (hpieces : getFragmentPieces (wrap ring) registry dr.windowBegin dr.windowEnd fuel =
      some (code, pieces)) :
    dataRequest (wrap ring) registry source fuel stats dr =
      some (.ofCode source dr code pieces, stats.count code) := by
  have hocc : LatencyBuffer.occupancy (wrap ring) ≠ 0 := by
    rw [RingBuffer.occupancy_eq, hwrap.queue_wrap]
    exact mt h.represents.occupancy_eq_zero_iff.mp hne
  rw [dataRequest, if_neg hocc, hpieces, Option.bind_some, h.front_wrap hwrap,
    h.back_wrap hwrap hsize, List.head?_eq_some_head hne, List.getLast?_eq_some_getLast hne]
  rfl

theorem Snapshot.gatherPieces_eq (fuel : ℕ) {k m : ℕ} {pieces : List Piece}
    (hgathered : Gathered q b e zs k m pieces)
    (hend : ∀ x ∈ zs[k + m]?, ¬ getTimestamp x < e) {it : ℕ}
    (hat : IterableQueueModel.At ring zs it k) (hfuel : m < fuel) :
    gatherPieces (wrap ring) b e fuel it = some pieces := by
  rw [hgathered.pieces_eq]
  have hle := hgathered.le_length
  have hbefore := hgathered.before
  clear hgathered
  induction m generalizing k it fuel with
  | zero =>
    obtain ⟨fuel, rfl⟩ : ∃ f, fuel = f + 1 := ⟨fuel - 1, by omega⟩
    rw [gatherPieces, RingBuffer.good_eq, RingBuffer.deref_eq, hwrap.queue_wrap]
    split_ifs with hgood
    · have hlt := (h.represents.good_iff hat).mp hgood
      rw [h.represents.records_of_at hat hlt, Option.bind_some,
        if_neg (hend _ (by rw [Nat.add_zero, List.getElem?_eq_getElem hlt]; rfl))]
      rfl
    · rfl
  | succ m ih =>
    obtain ⟨fuel, rfl⟩ : ∃ f, fuel = f + 1 := ⟨fuel - 1, by omega⟩
    have hlt : k < zs.length := by omega
    have hslot : it = slot q.size q.readIndex k := by
      rcases hat with ⟨_, rfl⟩ | ⟨rfl, _⟩
      · rw [h.size_eq, h.readIndex_eq]
      · omega
    have hless := hbefore k (Nat.le_refl k) (by omega) _ (List.getElem?_eq_getElem hlt)
    have hrest : gatherPieces (wrap ring) b e fuel (ring.next it) =
        some (stretchPieces q b e zs (k + 1) m) :=
      ih fuel (by rwa [Nat.add_right_comm]) (h.represents.next_at hat hlt) (by omega) (by omega)
        fun i hki him => hbefore i (by omega) (by omega)
    rw [gatherPieces, RingBuffer.good_eq, RingBuffer.deref_eq, RingBuffer.next_eq,
      hwrap.queue_wrap, if_pos ((h.represents.good_iff hat).mpr hlt),
      h.represents.records_of_at hat hlt, Option.bind_some, if_pos hless, hrest, Option.map_some,
      stretchPieces_succ (List.getElem?_eq_getElem hlt), hslot]

end Stored

def Classified (q : IterableQueueModel T) (b e : UInt64) (xs ys zs : List T)
    (lastTs newestTs : UInt64) : Prop :=
  Bounded b e zs lastTs newestTs ∧ ∃ ring, Snapshot q xs ys ring zs

section Search
variable (hlayout : UniformLayout T n tick) (horder : TimestampConsistent T)
  {q ring : IterableQueueModel T} {xs ys zs ws : List T} {b e lastTs newestTs : UInt64}
  (hsize : q.size < 2147483648) (hb : n * tick ≤ b.toNat) (hin : InOrder n tick fastPath ys)
include hlayout horder hsize hb hin

omit hlayout horder hsize hb in
theorem Bounded.later (h : Bounded b e zs lastTs newestTs) (hpre : zs <+: ws) (hws : ws <+: ys) :
    ∃ newestTs', Bounded b e ws lastTs newestTs' := by
  have hne := h.ne_nil
  have hne' : ws ≠ [] := by
    rintro rfl
    exact hne (List.prefix_nil.mp hpre)
  have hlast := h.last
  rw [List.getLast?_eq_some_getLast hne, Option.map_some, Option.some.injEq] at hlast
  have hle := (hin.of_isPrefix hws).sorted.le_getLast (List.getLast?_eq_some_getLast hne')
    (zs.getLast hne) (hpre.subset (List.getLast_mem hne))
  refine ⟨getTimestamp (ws.getLast hne'), ?_, ?_, ?_, h.notOld⟩
  · rw [head?_of_isPrefix hpre hne, h.head]
  · rw [List.getLast?_eq_some_getLast hne', Option.map_some]
  · have hnot := h.notYet
    rw [← hlast] at hnot
    rw [gt_iff_lt, UInt64.lt_iff_toNat_lt, Nat.not_lt] at hnot ⊢
    exact Nat.le_trans hnot hle

theorem Snapshot.lookup_eq (h : Snapshot q zs ys ring ws)
    (hbounded : Bounded b e zs lastTs newestTs) :
    (lookup fastPath ring (requestElement T b) = some endIndex ∧
        ∀ x ∈ zs.head?, below fastPath (requestElement T b) x = true) ∨
      ∃ k, Starts fastPath b zs k ∧
        lookup fastPath ring (requestElement T b) = some (slot q.size q.readIndex k) := by
  have hne := hbounded.ne_nil
  have hne' : ws ≠ [] := by
    rintro rfl
    exact hne (List.prefix_nil.mp h.since)
  have hlast := hbounded.last
  rw [List.getLast?_eq_some_getLast hne, Option.map_some, Option.some.injEq] at hlast
  have hnot := hbounded.notYet
  rw [← hlast, gt_iff_lt, UInt64.lt_iff_toNat_lt, Nat.not_lt] at hnot
  have hkey : tsNat (requestElement T b) ≤ tsNat (zs.getLast hne) := by
    rw [tsNat_requestElement hlayout, if_pos hb]
    exact Nat.le_trans (Nat.sub_le _ _) hnot
  have hws := hin.of_isPrefix h.upTo
  have hnewest : tsNat (zs.getLast hne) ≤ tsNat (ws.getLast hne') :=
    hws.sorted.le_getLast (List.getLast?_eq_some_getLast hne') _
      (h.since.subset (List.getLast_mem hne))
  have hlower : Ordered.lowerBound tsNat zs (tsNat (requestElement T b)) < zs.length := by
    have hpos := List.length_pos_iff.mpr hne
    rw [List.getLast_eq_getElem] at hkey
    have hle : Ordered.lowerBound tsNat zs (tsNat (requestElement T b)) ≤ zs.length - 1 :=
      lowerBound_le_of_le_key (by omega) hkey
    omega
  have hlookup := ExtractionSystem.lookup_eq hlayout horder h.represents (h.size_eq ▸ hsize) hws
    hne' (Nat.le_trans hkey hnewest)
  have hhead := head?_of_isPrefix h.since hne
  rw [List.head?_eq_some_head hne'] at hhead
  rw [lowerBound_of_isPrefix h.since hlower, h.size_eq, h.readIndex_eq] at hlookup
  cases hbelow : below fastPath (requestElement T b) (ws.head hne') with
  | true =>
    rw [hbelow, if_pos rfl] at hlookup
    refine .inl ⟨hlookup, fun x hx => ?_⟩
    rw [← hhead] at hx
    exact Option.some.inj hx ▸ hbelow
  | false =>
    rw [hbelow, if_neg Bool.false_ne_true] at hlookup
    refine .inr ⟨_, ⟨fun x hx => ?_, rfl, hlower⟩, hlookup⟩
    rw [← hhead] at hx
    exact Option.some.inj hx ▸ hbelow

theorem Snapshot.lookup_of_starts {k : ℕ} (h : Snapshot q zs ys ring ws)
    (hbounded : Bounded b e zs lastTs newestTs) (hstarts : Starts fastPath b zs k) :
    lookup fastPath ring (requestElement T b) = some (slot q.size q.readIndex k) := by
  rcases h.lookup_eq hlayout horder hsize hb hin hbounded with ⟨_, hbelow⟩ | ⟨k', hk', hlookup⟩
  · have hne := hbounded.ne_nil
    have hnot := hstarts.notBelow _ (List.head?_eq_some_head hne)
    rw [hbelow _ (List.head?_eq_some_head hne)] at hnot
    cases hnot
  · rw [← hstarts.lowerBound_eq, hk'.lowerBound_eq, hlookup]

theorem Snapshot.lookup_of_below (h : Snapshot q zs ys ring ws)
    (hbounded : Bounded b e zs lastTs newestTs)
    (hbelow : ∀ x ∈ zs.head?, below fastPath (requestElement T b) x = true) :
    lookup fastPath ring (requestElement T b) = some endIndex := by
  rcases h.lookup_eq hlayout horder hsize hb hin hbounded with ⟨hlookup, _⟩ | ⟨_, hk, _⟩
  · exact hlookup
  · have hne := hbounded.ne_nil
    have hnot := hk.notBelow _ (List.head?_eq_some_head hne)
    rw [hbelow _ (List.head?_eq_some_head hne)] at hnot
    cases hnot

end Search

end Atomic
end ExtractionSystem
end DataHandling
