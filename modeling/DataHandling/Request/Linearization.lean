import DataHandling.Foundation.Execution
import DataHandling.Request.ExtractionSnapshots

/-! A call of `data_request` while the producer writes: the request thread is never stopped by the
producer, and its answer is the one that it gives at some instant of the call. -/

namespace DataHandling
open MachineInt Cyclic Ordered ReadoutType IterableQueueModel

namespace ExtractionSystem
variable {T : Type} [ReadoutType T] {n tick : ℕ} {fastPath : Bool}

section Atomic
variable {LB : Type} [LatencyBuffer LB T] [RingBuffer LB T]

variable (fastPath) (wrap : IterableQueueModel T → LB) (registry : FrameErrorRegistry)
  (source : FragmentSource) (stats : RequestStats)
  (dr : DataRequest) (q : IterableQueueModel T)

/-- The answer is one that `data_request` gives at once, on the ring as it was when the boundaries
were read; only the pieces of a partial one are those of a later ring. -/
def Answered (xs ys : List T) (code : ResultCode) (pieces : List Piece) : Prop :=
  ∃ ring zs first, Snapshot q xs ys ring zs ∧
    dataRequest (wrap ring) registry source q.size stats dr =
      some (.ofCode source dr code first, stats.count code) ∧
    ∃ ring' zs' last, Snapshot q zs ys ring' zs' ∧
      dataRequest (wrap ring') registry source q.size stats dr =
        some (.ofCode source dr last pieces, stats.count last) ∧
      last.hasPieces = code.hasPieces ∧ (code ≠ .kPartial → pieces = first)

/-- The loop is under way from position `k` on, past `m` elements. -/
def Collects (xs ys zs : List T) (k m : ℕ) (code : ResultCode) (pieces : List Piece) : Prop :=
  ∃ lastTs newestTs, Classified q dr.windowBegin dr.windowEnd xs ys zs lastTs newestTs ∧
    code = windowCode lastTs newestTs dr.windowBegin dr.windowEnd ∧
    Starts fastPath dr.windowBegin zs k ∧
    Gathered q dr.windowBegin dr.windowEnd ys k m pieces

/-- What the request thread knows in each phase, after some steps of its own, where the ring held
`xs` at first and holds `ys` now. -/
def PhaseOk (xs ys : List T) (ownSteps : ℕ) : ExtractionPhase → Prop
  | .atOccupancy => ownSteps = 0
  | .atFront => ownSteps ≤ 1 ∧ ys ≠ []
  | .atBack lastTs => ownSteps ≤ 2 ∧ ys.head?.map getTimestamp = some lastTs
  | .atLowerBound lastTs newestTs => ownSteps ≤ 3 ∧
      ∃ zs, Classified q dr.windowBegin dr.windowEnd xs ys zs lastTs newestTs
  | .searching lastTs newestTs startIndex endIndex => fastPath = false ∧
      ∃ zs, Classified q dr.windowBegin dr.windowEnd xs ys zs lastTs newestTs ∧
        ∃ ring ws fuel it, Snapshot q zs ys ring ws ∧ ownSteps + fuel ≤ 4 + q.size ∧
          BinarySearchQueueModel.searchLoop ring (requestElement T dr.windowBegin) fuel startIndex
            endIndex = some it ∧
          BinarySearchQueueModel.search ring (requestElement T dr.windowBegin) = some it
  | .atGood lastTs newestTs startIter => ownSteps ≤ 4 + q.size ∧
      ∃ zs, Classified q dr.windowBegin dr.windowEnd xs ys zs lastTs newestTs ∧
        ∃ ring ws, Snapshot q zs ys ring ws ∧
          lookup fastPath ring (requestElement T dr.windowBegin) = some startIter
  | .atElement code iter pieces => ∃ zs k m, Collects fastPath dr q xs ys zs k m code pieces ∧
      ownSteps ≤ 5 + q.size + 3 * m ∧
      (iter = slot q.size q.readIndex (k + m) ∨
        iter = endIndex ∧ ∃ ring ws, Snapshot q zs ys ring ws ∧ ws.length = k + m)
  | .incrementing code iter pieces =>
      ∃ zs k m, Collects fastPath dr q xs ys zs k (m + 1) code pieces ∧
        ownSteps ≤ 6 + q.size + 3 * m ∧ iter = slot q.size q.readIndex (k + m)
  | .incremented code iter pieces =>
      ∃ zs k m, Collects fastPath dr q xs ys zs k (m + 1) code pieces ∧
        ownSteps ≤ 7 + q.size + 3 * m ∧ iter = slot q.size q.readIndex (k + m + 1)
  | .returned code pieces => ownSteps ≤ 4 * q.size + 3 ∧
      Answered wrap registry source stats dr q xs ys code pieces

def Proceeds (xs : List T) (s : ExtractionSystem T) (ownSteps : ℕ) (phase : ExtractionPhase) :
    Prop :=
  ∃ next, extract fastPath dr.windowBegin dr.windowEnd s.queue phase = some next ∧
    PhaseOk fastPath wrap registry source stats dr q xs s.content (ownSteps + 1) next

variable {fastPath wrap registry source stats dr q} {xs ys ws : List T}

theorem windowCode_hasPieces (lastTs newestTs b e : UInt64) :
    (windowCode lastTs newestTs b e).hasPieces = true := by
  rw [windowCode]
  split_ifs <;> rfl

omit [RingBuffer LB T] in
theorem Answered.mono {code : ResultCode} {pieces : List Piece}
    (h : Answered wrap registry source stats dr q xs ys code pieces) (hpre : ys <+: ws) :
    Answered wrap registry source stats dr q xs ws code pieces := by
  obtain ⟨ring, zs, first, hsnap, hfirst, ring', zs', last, hsnap', hlast, hcode⟩ := h
  exact ⟨ring, zs, first, hsnap.mono hpre, hfirst, ring', zs', last, hsnap'.mono hpre, hlast, hcode⟩

theorem Classified.mono {zs : List T} {b e lastTs newestTs : UInt64}
    (h : Classified q b e xs ys zs lastTs newestTs) (hpre : ys <+: ws) :
    Classified q b e xs ws zs lastTs newestTs :=
  ⟨h.1, h.2.imp fun _ hsnap => hsnap.mono hpre⟩

theorem Collects.mono {zs : List T} {k m : ℕ} {code : ResultCode} {pieces : List Piece}
    (h : Collects fastPath dr q xs ys zs k m code pieces) (hpre : ys <+: ws) :
    Collects fastPath dr q xs ws zs k m code pieces := by
  obtain ⟨lastTs, newestTs, hclassified, hcode, hstarts, hgathered⟩ := h
  exact ⟨lastTs, newestTs, hclassified.mono hpre, hcode, hstarts, hgathered.mono hpre⟩

omit [RingBuffer LB T] in
theorem PhaseOk.mono {ownSteps : ℕ} {phase : ExtractionPhase}
    (h : PhaseOk fastPath wrap registry source stats dr q xs ys ownSteps phase)
    (hpre : ys <+: ws) : PhaseOk fastPath wrap registry source stats dr q xs ws ownSteps phase := by
  cases phase with
  | atOccupancy => exact h
  | atFront =>
    refine ⟨h.1, fun hnil => h.2 ?_⟩
    rw [hnil] at hpre
    exact List.prefix_nil.mp hpre
  | atBack lastTs =>
    obtain ⟨hsteps, hhead⟩ := h
    refine ⟨hsteps, ?_⟩
    rw [head?_of_isPrefix hpre, hhead]
    rintro rfl
    cases hhead
  | atLowerBound lastTs newestTs =>
    obtain ⟨hsteps, zs, hclassified⟩ := h
    exact ⟨hsteps, zs, hclassified.mono hpre⟩
  | searching lastTs newestTs startIndex endIndex =>
    obtain ⟨hfast, zs, hclassified, ring, vs, fuel, it, hsnap, hrest⟩ := h
    exact ⟨hfast, zs, hclassified.mono hpre, ring, vs, fuel, it, hsnap.mono hpre, hrest⟩
  | atGood lastTs newestTs startIter =>
    obtain ⟨hsteps, zs, hclassified, ring, vs, hsnap, hlookup⟩ := h
    exact ⟨hsteps, zs, hclassified.mono hpre, ring, vs, hsnap.mono hpre, hlookup⟩
  | atElement code iter pieces =>
    obtain ⟨zs, k, m, hcollects, hsteps, hiter⟩ := h
    refine ⟨zs, k, m, hcollects.mono hpre, hsteps, hiter.imp id ?_⟩
    rintro ⟨hend, ring, vs, hsnap, hlen⟩
    exact ⟨hend, ring, vs, hsnap.mono hpre, hlen⟩
  | incrementing code iter pieces =>
    obtain ⟨zs, k, m, hcollects, hrest⟩ := h
    exact ⟨zs, k, m, hcollects.mono hpre, hrest⟩
  | incremented code iter pieces =>
    obtain ⟨zs, k, m, hcollects, hrest⟩ := h
    exact ⟨zs, k, m, hcollects.mono hpre, hrest⟩
  | returned code pieces => exact ⟨h.1, h.2.mono hpre⟩

section Ended
variable (hwrap : Wraps fastPath wrap registry) (hlayout : UniformLayout T n tick)
  (horder : TimestampConsistent T) (hsize : q.size < 2147483648)
  (hb : n * tick ≤ dr.windowBegin.toNat) (hin : InOrder n tick fastPath ys)
include hwrap hlayout horder hsize hb hin

/-- Once the loop has come to the end of a content, or to an element past the window, it has
collected the pieces that an atomic loop collects. -/
theorem answered_of_ended {ring : IterableQueueModel T} {zs : List T} {k m : ℕ} {code : ResultCode}
    {pieces : List Piece} (h : Collects fastPath dr q xs ys zs k m code pieces)
    (hsnap : Snapshot q zs ys ring ws) (hle : k + m ≤ ws.length)
    (hend : ∀ x ∈ ws[k + m]?, ¬ getTimestamp x < dr.windowEnd) :
    Answered wrap registry source stats dr q xs ys code pieces := by
  obtain ⟨lastTs, newestTs, ⟨hbounded, ring₀, hsnap₀⟩, rfl, hstarts, hgathered⟩ := h
  have hzs : zs <+: ys := hsnap₀.upTo
  have hlen₀ := hsnap₀.represents.length_lt
  have hlen := hsnap.represents.length_lt
  rw [hsnap₀.size_eq] at hlen₀
  rw [hsnap.size_eq] at hlen
  have hself : Snapshot q zs ys ring₀ zs := { hsnap₀ with since := List.prefix_rfl }
  -- both searches give the iterator at the start position
  have hlookup₀ := hself.lookup_of_starts hlayout horder hsize hb hin hbounded hstarts
  have hlookup := hsnap.lookup_of_starts hlayout horder hsize hb hin hbounded hstarts
  have hat₀ := hsnap₀.represents.at_slot (Nat.le_of_lt hstarts.lt_length)
  have hat := hsnap.represents.at_slot (Nat.le_trans (Nat.le_of_lt hstarts.lt_length)
    hsnap.since.length_le)
  rw [hsnap₀.size_eq, hsnap₀.readIndex_eq] at hat₀
  rw [hsnap.size_eq, hsnap.readIndex_eq] at hat
  have hgood₀ := (hsnap₀.represents.good_iff hat₀).mpr hstarts.lt_length
  have hgood := (hsnap.represents.good_iff hat).mpr (hstarts.later hsnap.since).lt_length
  obtain ⟨newestTs', hbounded'⟩ := hbounded.later hin hsnap.since hsnap.upTo
  have hsame := (windowCode_hasPieces lastTs newestTs' dr.windowBegin dr.windowEnd).trans
    (windowCode_hasPieces lastTs newestTs dr.windowBegin dr.windowEnd).symm
  have hne := hbounded.ne_nil
  -- the loop on the later ring
  have hgather := hsnap.gatherPieces_eq hwrap q.size
    (hgathered.of_isPrefix hsnap.upTo hle) hend hat (by omega)
  have hlast := hsnap.getFragmentPieces_eq hwrap hsize q.size hbounded' hlookup
  rw [if_pos hgood, hgather, Option.map_some] at hlast
  have hfirst := hself.getFragmentPieces_eq hwrap hsize q.size hbounded hlookup₀
  rw [if_pos hgood₀] at hfirst
  by_cases hpartial : dr.windowEnd > newestTs
  · have hstores : BufferView.Stores (wrap ring₀) zs := by
      show Represents (RingBuffer.queue (wrap ring₀)) zs
      rw [hwrap.queue_wrap]
      exact hsnap₀.represents
    have hview : BufferView.At (wrap ring₀) zs (slot q.size q.readIndex k) k := by
      show IterableQueueModel.At (RingBuffer.queue (wrap ring₀)) zs _ k
      rw [hwrap.queue_wrap]
      exact hat₀
    obtain ⟨first, hgather₀, -⟩ := DataHandling.gatherPieces_eq hstores hlayout
      (b := dr.windowBegin) (e := dr.windowEnd) hview (Nat.le_of_lt hstarts.lt_length)
      (Nat.lt_add_right k hlen₀)
    rw [hgather₀, Option.map_some] at hfirst
    exact ⟨ring₀, zs, first, hsnap₀, hself.dataRequest_eq hwrap hsize hne source stats hfirst,
      ring, ws, _, hsnap, hsnap.dataRequest_eq hwrap hsize hbounded'.ne_nil source stats hlast,
      hsame, fun hcode => absurd (if_pos hpartial) hcode⟩
  · -- the newest element of the boundaries is past the window, so the loop ends before it
    have hnewest := hbounded.last
    rw [List.getLast?_eq_getElem?, List.getElem?_eq_getElem (by have := hstarts.lt_length; omega),
      Option.map_some, Option.some.injEq] at hnewest
    have hlt : k + m < zs.length := by
      by_contra hge
      have hpos := hstarts.lt_length
      have hless := hgathered.before (zs.length - 1) (by omega) (by omega) zs[zs.length - 1]
        (by rw [getElem?_of_isPrefix hzs (by omega), List.getElem?_eq_getElem (by omega)]; rfl)
      rw [hnewest] at hless
      exact hpartial hless
    have hend₀ : ∀ x ∈ zs[k + m]?, ¬ getTimestamp x < dr.windowEnd := by
      intro x hx
      rw [← getElem?_of_isPrefix hsnap.since hlt] at hx
      exact hend x hx
    have hgather₀ := hself.gatherPieces_eq hwrap q.size
      (hgathered.of_isPrefix hzs (Nat.le_of_lt hlt)) hend₀ hat₀ (by omega)
    rw [hgather₀, Option.map_some] at hfirst
    exact ⟨ring₀, zs, pieces, hsnap₀, hself.dataRequest_eq hwrap hsize hne source stats hfirst,
      ring, ws, _, hsnap, hsnap.dataRequest_eq hwrap hsize hbounded'.ne_nil source stats hlast,
      hsame, fun _ => rfl⟩

end Ended

section Step
variable {s : ExtractionSystem T} {ring : IterableQueueModel T}
  (hwrap : Wraps fastPath wrap registry)
  (hlayout : UniformLayout T n tick) (horder : TimestampConsistent T)
  (hsize : q.size < 2147483648) (hb : n * tick ≤ dr.windowBegin.toNat)
  (hin : InOrder n tick fastPath s.content) (h : Publishes q xs s ring)
include hwrap hlayout horder hsize hb hin h

omit [ReadoutType T] hwrap hlayout horder hsize hb hin in
theorem Publishes.snapshot : Snapshot q xs s.content ring s.content :=
  ⟨h.represents, h.size_eq, h.readIndex_eq, h.kept, List.prefix_rfl⟩

omit [ReadoutType T] hwrap hlayout horder hsize hb hin in
theorem Publishes.two_le_size : 2 ≤ q.size := h.size_eq ▸ h.represents.two_le_size

omit [RingBuffer LB T] hwrap hlayout horder hsize hb hin in
theorem Publishes.computedSearch_eq (hne : s.content ≠ []) (element : T) :
    FixedRateQueueModel.computedSearch s.queue element =
      FixedRateQueueModel.computedSearch ring element := by
  have hrecord := h.records_slot (List.length_pos_iff.mpr hne)
  have hstored := h.represents.stored 0 (List.length_pos_iff.mpr hne)
  have hread := h.represents.read_lt
  rw [h.size_eq, h.readIndex_eq] at hread hstored
  rw [slot_zero hread] at hrecord hstored
  have hqueue := h.queue_eq
  revert hrecord
  rw [hqueue]
  intro hrecord
  have hsame : (s.producer.pending ring).records ring.readIndex = ring.records ring.readIndex := by
    rw [h.readIndex_eq, hrecord, hstored]
  cases hp : s.producer with
  | idle => rfl
  | claimed record => rfl
  | constructed record =>
    rw [hp] at hsame
    rw [FixedRateQueueModel.computedSearch, FixedRateQueueModel.computedSearch,
      WalkSystem.pending_readIndex, hsame]
    rfl

omit hlayout horder hsize hb hin in
theorem Publishes.extract_atOccupancy {ownSteps : ℕ} (hsteps : ownSteps = 0) :
    Proceeds fastPath wrap registry source stats dr q xs s ownSteps .atOccupancy := by
  have h2 := h.two_le_size
  by_cases hnil : s.content = []
  · refine ⟨.returned .kNotFound [], ?_, by omega, ?_⟩
    · rw [extract, if_pos (h.occupancy_eq_zero_iff.mpr hnil)]
    · have hanswer : dataRequest (wrap ring) registry source q.size stats dr =
          some (.ofCode source dr .kNotFound [], stats.count .kNotFound) := by
        rw [dataRequest, if_pos]
        rw [RingBuffer.occupancy_eq, hwrap.queue_wrap]
        exact h.represents.occupancy_eq_zero_iff.mpr hnil
      exact ⟨ring, s.content, [], h.snapshot, hanswer, ring, s.content, .kNotFound,
        { h.snapshot with since := List.prefix_rfl }, hanswer, rfl, fun _ => rfl⟩
  · refine ⟨.atFront, ?_, by omega, hnil⟩
    rw [extract, if_neg (mt h.occupancy_eq_zero_iff.mp hnil)]

omit [RingBuffer LB T] hwrap hlayout horder hsize hb hin in
theorem Publishes.extract_atFront {ownSteps : ℕ} (hsteps : ownSteps ≤ 1) (hne : s.content ≠ []) :
    Proceeds fastPath wrap registry source stats dr q xs s ownSteps .atFront := by
  have hhead := List.head?_eq_some_head hne
  refine ⟨.atBack (getTimestamp (s.content.head hne)), ?_, by omega, ?_⟩
  · rw [extract, h.front_records, hhead, Option.map_some]
  · rw [hhead, Option.map_some]

omit hlayout horder hb hin in
theorem Publishes.extract_atBack {ownSteps : ℕ} (hsteps : ownSteps ≤ 2) {lastTs : UInt64}
    (hhead : s.content.head?.map getTimestamp = some lastTs) :
    Proceeds fastPath wrap registry source stats dr q xs s ownSteps (.atBack lastTs) := by
  have h2 := h.two_le_size
  have hne : s.content ≠ [] := by
    intro hnil
    rw [hnil] at hhead
    cases hhead
  have hlast := List.getLast?_eq_some_getLast hne
  have hself : Snapshot q s.content s.content ring s.content :=
    { h.snapshot with since := List.prefix_rfl }
  obtain ⟨front, hfront, rfl⟩ := Option.map_eq_some_iff.mp hhead
  have hpieces : ∀ code, getFragmentPieces (wrap ring) registry dr.windowBegin dr.windowEnd q.size =
      some (code, []) →
        Answered wrap registry source stats dr q xs s.content code [] := fun code hcode =>
    ⟨ring, s.content, [], h.snapshot, h.snapshot.dataRequest_eq hwrap hsize hne source stats hcode,
      ring, s.content, code, hself,
      h.snapshot.dataRequest_eq hwrap hsize hne source stats hcode, rfl, fun _ => rfl⟩
  refine ⟨classify dr.windowBegin dr.windowEnd (getTimestamp front)
    (getTimestamp (s.content.getLast hne)), ?_, ?_⟩
  · rw [extract, h.back_records (Nat.le_of_lt hsize), hlast, Option.map_some]
  unfold classify
  split_ifs with hnotYet hold
  · refine ⟨by omega, hpieces .kNotYet ?_⟩
    rw [getFragmentPieces, h.snapshot.front_wrap hwrap, h.snapshot.back_wrap hwrap hsize, hlast,
      hfront, Option.bind_some, Option.bind_some, if_pos hnotYet]
  · refine ⟨by omega, hpieces .kTooOld ?_⟩
    rw [getFragmentPieces, h.snapshot.front_wrap hwrap, h.snapshot.back_wrap hwrap hsize, hlast,
      hfront, Option.bind_some, Option.bind_some, if_neg hnotYet, if_pos hold]
  · exact ⟨by omega, s.content, ⟨hhead, by rw [hlast, Option.map_some], hnotYet, hold⟩, ring,
      h.snapshot⟩

omit hwrap hlayout hsize hb [RingBuffer LB T] in
theorem Publishes.extract_atLowerBound {ownSteps : ℕ} (hsteps : ownSteps ≤ 3) {zs : List T}
    {lastTs newestTs : UInt64}
    (hclassified : Classified q dr.windowBegin dr.windowEnd xs s.content zs lastTs newestTs) :
    Proceeds fastPath wrap registry source stats dr q xs s ownSteps
      (.atLowerBound lastTs newestTs) := by
  have hbounded := hclassified.1
  obtain ⟨_, hzs⟩ := hclassified.2
  have hsnap : Snapshot q zs s.content ring s.content := { h.snapshot with since := hzs.upTo }
  have hne : s.content ≠ [] := by
    intro hnil
    rw [hnil] at hsnap
    exact hbounded.ne_nil (List.prefix_nil.mp hsnap.since)
  cases hfast : fastPath with
  | true =>
    have hsome : (FixedRateQueueModel.computedSearch ring
        (requestElement T dr.windowBegin)).isSome :=
      FixedRateQueueModel.computedSearch_isSome h.represents hne
    obtain ⟨it, hit⟩ := Option.isSome_iff_exists.mp hsome
    refine ⟨.atGood lastTs newestTs it, ?_, by omega, zs, hclassified, ring, s.content, hsnap, hit⟩
    rw [extract, beginLowerBound, if_pos rfl, h.computedSearch_eq hne, hit, Option.map_some]
  | false =>
    have hrw : ring.readIndex ≠ ring.writeIndex :=
      mt h.represents.readIndex_eq_writeIndex_iff.mp hne
    have hpos := List.length_pos_iff.mpr hne
    have hread := h.represents.read_lt
    have hrecord := h.records_slot hpos
    have hstored := h.represents.stored 0 hpos
    rw [h.size_eq, h.readIndex_eq] at hstored
    rw [h.size_eq, h.readIndex_eq] at hread
    rw [slot_zero hread] at hrecord hstored
    have hsome : (BinarySearchQueueModel.search ring (requestElement T dr.windowBegin)).isSome :=
      BinarySearchQueueModel.search_isSome h.represents horder hin.sorted
    obtain ⟨it, hit⟩ := Option.isSome_iff_exists.mp hsome
    have hloop := hit
    rw [BinarySearchQueueModel.search, if_neg hrw, h.readIndex_eq, hstored,
      Option.bind_some] at hloop
    have hbegin :
        extract false dr.windowBegin dr.windowEnd s.queue (.atLowerBound lastTs newestTs) =
        some (if lt (requestElement T dr.windowBegin) s.content[0] then
            .atGood lastTs newestTs endIndex
          else .searching lastTs newestTs q.readIndex
            (if ring.writeIndex = 0 then ring.size - 1 else ring.writeIndex - 1)) := by
      have hindices : s.queue.readIndex = q.readIndex ∧ s.queue.writeIndex = ring.writeIndex ∧
          s.queue.size = ring.size := by
        rw [h.queue_eq, WalkSystem.pending_readIndex, WalkSystem.pending_writeIndex,
          WalkSystem.pending_size]
        exact ⟨h.readIndex_eq, rfl, rfl⟩
      rw [extract, beginLowerBound, if_neg Bool.false_ne_true, hindices.1, hindices.2.1,
        hindices.2.2, if_neg (h.readIndex_eq ▸ hrw), hrecord, Option.map_some]
    by_cases hbelow : lt (requestElement T dr.windowBegin) s.content[0] = true
    · rw [if_pos hbelow] at hloop hbegin
      exact ⟨_, hbegin, by omega, zs, hclassified, ring, s.content, hsnap, hloop ▸ hit⟩
    · rw [if_neg hbelow] at hloop hbegin
      refine ⟨_, hbegin, rfl, zs, hclassified, ring, s.content, ring.size, it, hsnap, ?_, hloop,
        hit⟩
      rw [h.size_eq]
      omega

omit [ReadoutType T] hwrap hb hlayout horder hin hsize in
theorem Publishes.records_of_snapshot {ring' : IterableQueueModel T} {zs ws : List T} {j : ℕ}
    {x : T}
    (hsnap : Snapshot q zs s.content ring' ws) (hx : ring'.records j = some x) :
    s.queue.records j = some x := by
  obtain ⟨i, hi, rfl⟩ := (hsnap.represents.records_isSome_iff j).mp (hx ▸ rfl)
  have hlt := Nat.lt_of_lt_of_le hi hsnap.upTo.length_le
  have hget := getElem?_of_isPrefix hsnap.upTo hi
  rw [List.getElem?_eq_getElem hi, List.getElem?_eq_getElem hlt, Option.some.injEq] at hget
  rw [hsnap.size_eq, hsnap.readIndex_eq, h.records_slot hlt, hget, ← hx,
    hsnap.represents.stored i hi]

omit hwrap hb hlayout horder hin hsize [RingBuffer LB T] in
theorem Publishes.extract_searching {ownSteps : ℕ} {lastTs newestTs : UInt64} {i j : ℕ}
    (hok : PhaseOk fastPath wrap registry source stats dr q xs s.content ownSteps
      (.searching lastTs newestTs i j)) :
    Proceeds fastPath wrap registry source stats dr q xs s ownSteps
      (.searching lastTs newestTs i j) := by
  obtain ⟨hfast, zs, hclassified, ring', ws, fuel, it, hsnap, hle, hloop, hsearch⟩ := hok
  have hsame : s.queue.size = ring'.size := h.size_queue.trans hsnap.size_eq.symm
  have hlookup : lookup fastPath ring' (requestElement T dr.windowBegin) = some it := by
    rw [lookup, hfast]
    exact hsearch
  obtain ⟨fuel, rfl⟩ : ∃ f, fuel = f + 1 := by
    cases fuel with
    | zero => cases hloop
    | succ fuel => exact ⟨fuel, rfl⟩
  rw [BinarySearchQueueModel.searchLoop] at hloop
  obtain ⟨between, hbetween, hloop⟩ := Option.bind_eq_some_iff.mp hloop
  have hrecord := h.records_of_snapshot hsnap hbetween
  have hdiff : BinarySearchQueueModel.candidateDistance s.queue i j =
      BinarySearchQueueModel.candidateDistance ring' i j := by
    rw [BinarySearchQueueModel.candidateDistance, BinarySearchQueueModel.candidateDistance, hsame]
  have hwrapIndex : BinarySearchQueueModel.wrapIndex s.queue =
      BinarySearchQueueModel.wrapIndex ring' := by
    funext index
    rw [BinarySearchQueueModel.wrapIndex, BinarySearchQueueModel.wrapIndex, hsame]
  have hmiddle : BinarySearchQueueModel.middleIndex s.queue =
      BinarySearchQueueModel.middleIndex ring' := by
    funext start diff
    rw [BinarySearchQueueModel.middleIndex, BinarySearchQueueModel.middleIndex, hwrapIndex]
  have hup : BinarySearchQueueModel.oneUp s.queue = BinarySearchQueueModel.oneUp ring' := by
    funext middle
    rw [BinarySearchQueueModel.oneUp, BinarySearchQueueModel.oneUp, hwrapIndex]
  have hdown : BinarySearchQueueModel.oneDown s.queue = BinarySearchQueueModel.oneDown ring' := by
    funext middle
    rw [BinarySearchQueueModel.oneDown, BinarySearchQueueModel.oneDown, hsame]
  have hgood : ∀ middle, some middle = some it →
      PhaseOk fastPath wrap registry source stats dr q xs s.content (ownSteps + 1)
        (.atGood lastTs newestTs middle) := fun middle hmid =>
    ⟨by omega, zs, hclassified, ring', ws, hsnap, hmid ▸ hlookup⟩
  have hagain : ∀ i' j', BinarySearchQueueModel.searchLoop ring' (requestElement T dr.windowBegin)
      fuel i' j' = some it →
      PhaseOk fastPath wrap registry source stats dr q xs s.content (ownSteps + 1)
        (.searching lastTs newestTs i' j') := fun i' j' hrest =>
    ⟨hfast, zs, hclassified, ring', ws, fuel, it, hsnap, by omega, hrest, hsearch⟩
  rw [Proceeds, extract, searchOnce, hmiddle, hdiff, hup, hdown]
  rw [hrecord, Option.map_some]
  refine ⟨_, rfl, ?_⟩
  split_ifs at hloop ⊢
  · exact hgood _ hloop
  · exact hgood _ hloop
  · exact hgood _ hloop
  · exact hagain _ _ hloop
  · exact hagain _ _ hloop

omit hwrap hb hlayout horder hin hsize [RingBuffer LB T] in
theorem Publishes.extract_incrementing {ownSteps : ℕ} {code : ResultCode} {iter : ℕ}
    {pieces : List Piece}
    (hok : PhaseOk fastPath wrap registry source stats dr q xs s.content ownSteps
      (.incrementing code iter pieces)) :
    Proceeds fastPath wrap registry source stats dr q xs s ownSteps
      (.incrementing code iter pieces) := by
  obtain ⟨zs, k, m, hcollects, hsteps, rfl⟩ := hok
  obtain ⟨_, _, _, _, _, hgathered⟩ := id hcollects
  have hlt : k + m < s.content.length := hgathered.le_length
  have hgood := (h.good_slot_iff (Nat.le_of_lt hlt)).mpr hlt
  refine ⟨.incremented code (slot q.size q.readIndex (k + m + 1)) pieces, ?_, zs, k, m, hcollects,
    by omega, rfl⟩
  rw [extract, if_pos hgood, h.nextRecord_slot hlt]

omit hwrap hb hlayout horder hin hsize [RingBuffer LB T] in
theorem Publishes.extract_incremented {ownSteps : ℕ} {code : ResultCode} {iter : ℕ}
    {pieces : List Piece}
    (hok : PhaseOk fastPath wrap registry source stats dr q xs s.content ownSteps
      (.incremented code iter pieces)) :
    Proceeds fastPath wrap registry source stats dr q xs s ownSteps
      (.incremented code iter pieces) := by
  obtain ⟨zs, k, m, hcollects, hsteps, rfl⟩ := hok
  obtain ⟨_, _, ⟨_, _, hzs⟩, _, _, hgathered⟩ := id hcollects
  have hle : k + m + 1 ≤ s.content.length := hgathered.le_length
  have hgood := h.good_slot_iff hle
  by_cases hlt : k + m + 1 < s.content.length
  · refine ⟨.atElement code (slot q.size q.readIndex (k + m + 1)) pieces, ?_, zs, k, m + 1,
      hcollects, by omega, .inl rfl⟩
    rw [extract, if_pos (hgood.mpr hlt)]
  · refine ⟨.atElement code endIndex pieces, ?_, zs, k, m + 1, hcollects, by omega,
      .inr ⟨rfl, ring, s.content, { h.snapshot with since := hzs.upTo }, ?_⟩⟩
    · rw [extract, if_neg (mt hgood.mp hlt)]
    · omega

theorem Publishes.extract_atGood {ownSteps : ℕ} {lastTs newestTs : UInt64} {it : ℕ}
    (hok : PhaseOk fastPath wrap registry source stats dr q xs s.content ownSteps
      (.atGood lastTs newestTs it)) :
    Proceeds fastPath wrap registry source stats dr q xs s ownSteps
      (.atGood lastTs newestTs it) := by
  obtain ⟨hsteps, zs, hclassified, ring', ws, hsnap, hlookup⟩ := hok
  have h2 := h.two_le_size
  obtain ⟨hbounded, ring₀, hzs⟩ := id hclassified
  rcases hsnap.lookup_eq hlayout horder hsize hb hin hbounded with ⟨hend, hbelow⟩ | ⟨k, hk, hslot⟩
  · -- the element lies below the front
    obtain rfl : it = endIndex := Option.some.inj (hlookup.symm.trans hend)
    have hself : Snapshot q zs s.content ring₀ zs := { hzs with since := List.prefix_rfl }
    have hfirst := hself.getFragmentPieces_eq hwrap hsize q.size hbounded
      (hself.lookup_of_below hlayout horder hsize hb hin hbounded hbelow)
    rw [good_endIndex, if_neg Bool.false_ne_true] at hfirst
    have hanswer := hself.dataRequest_eq hwrap hsize hbounded.ne_nil source stats hfirst
    refine ⟨.returned .kNotFound [], ?_, by omega, ring₀, zs, [], hzs, hanswer, ring₀, zs,
      .kNotFound, hself, hanswer, rfl, fun _ => rfl⟩
    rw [extract, good_endIndex, if_neg Bool.false_ne_true]
  · obtain rfl : it = slot q.size q.readIndex k := Option.some.inj (hlookup.symm.trans hslot)
    have hlt := (hk.later hzs.upTo).lt_length
    refine ⟨.atElement (windowCode lastTs newestTs dr.windowBegin dr.windowEnd)
      (slot q.size q.readIndex k) [], ?_, zs, k, 0, ⟨lastTs, newestTs, hclassified, rfl, hk,
      gathered_zero (Nat.le_of_lt hlt)⟩, by omega, .inl rfl⟩
    rw [extract, if_pos ((h.good_slot_iff (Nat.le_of_lt hlt)).mpr hlt)]

theorem Publishes.extract_atElement {ownSteps : ℕ} {code : ResultCode} {iter : ℕ}
    {pieces : List Piece}
    (hok : PhaseOk fastPath wrap registry source stats dr q xs s.content ownSteps
      (.atElement code iter pieces)) :
    Proceeds fastPath wrap registry source stats dr q xs s ownSteps
      (.atElement code iter pieces) := by
  obtain ⟨zs, k, m, hcollects, hsteps, hiter⟩ := hok
  obtain ⟨lastTs, newestTs, hclassified, hcode, hstarts, hgathered⟩ := id hcollects
  have hle := hgathered.le_length
  have hlen := h.represents.length_lt
  rw [h.size_eq] at hlen
  obtain ⟨_, _, hzs⟩ := id hclassified
  have hsnap : Snapshot q zs s.content ring s.content := { h.snapshot with since := hzs.upTo }
  rcases hiter with rfl | ⟨rfl, ring', ws, hsnap', hws⟩
  · by_cases hlt : k + m < s.content.length
    · have hgood := (h.good_slot_iff hle).mpr hlt
      have hget : s.content[k + m]? = some s.content[k + m] := List.getElem?_eq_getElem hlt
      by_cases hless : getTimestamp s.content[k + m] < dr.windowEnd
      · refine ⟨.incrementing code (slot q.size q.readIndex (k + m)) (pieces ++ elementPieces
          dr.windowBegin dr.windowEnd (slot q.size q.readIndex (k + m)) s.content[k + m]), ?_,
          zs, k, m, ⟨lastTs, newestTs, hclassified, hcode, hstarts, hgathered.succ hget hless⟩,
          by omega, rfl⟩
        rw [extract, lookAtElement, if_pos hgood, h.records_slot hlt, Option.map_some, if_pos hless]
      · refine ⟨.returned code pieces, ?_, by omega, answered_of_ended hwrap hlayout horder hsize hb
          hin hcollects hsnap hle fun x hx => ?_⟩
        · rw [extract, lookAtElement, if_pos hgood, h.records_slot hlt, Option.map_some,
            if_neg hless]
        · rw [hget] at hx
          exact Option.some.inj hx ▸ hless
    · refine ⟨.returned code pieces, ?_, by omega, answered_of_ended hwrap hlayout horder hsize hb
        hin hcollects hsnap hle fun x hx => ?_⟩
      · rw [extract, lookAtElement, if_neg (mt (h.good_slot_iff hle).mp hlt)]
      · rw [List.getElem?_eq_none (by omega)] at hx
        cases hx
  · refine ⟨.returned code pieces, ?_, by omega, answered_of_ended hwrap hlayout horder hsize hb
      hin hcollects hsnap' (Nat.le_of_eq hws.symm) fun x hx => ?_⟩
    · rw [extract, lookAtElement, good_endIndex, if_neg Bool.false_ne_true]
    · rw [List.getElem?_eq_none (by omega)] at hx
      cases hx

/-- Until it has returned, the request thread can always go on. -/
theorem Publishes.extract {ownSteps : ℕ} {phase : ExtractionPhase}
    (hok : PhaseOk fastPath wrap registry source stats dr q xs s.content ownSteps phase)
    (hphase : ∀ code pieces, phase ≠ .returned code pieces) :
    Proceeds fastPath wrap registry source stats dr q xs s ownSteps phase := by
  cases phase with
  | atOccupancy => exact h.extract_atOccupancy hwrap hok
  | atFront => exact h.extract_atFront hok.1 hok.2
  | atBack lastTs => exact h.extract_atBack hwrap hsize hok.1 hok.2
  | atLowerBound lastTs newestTs =>
    obtain ⟨hsteps, _, hclassified⟩ := hok
    exact h.extract_atLowerBound horder hin hsteps hclassified
  | searching lastTs newestTs i j => exact h.extract_searching hok
  | atGood lastTs newestTs it => exact h.extract_atGood hwrap hlayout horder hsize hb hin hok
  | atElement code iter pieces => exact h.extract_atElement hwrap hlayout horder hsize hb hin hok
  | incrementing code iter pieces => exact h.extract_incrementing hok
  | incremented code iter pieces => exact h.extract_incremented hok
  | returned code pieces => exact absurd rfl (hphase code pieces)

omit [RingBuffer LB T] hwrap hlayout horder hsize hb hin in
theorem Publishes.ownSteps_le {ownSteps : ℕ} {phase : ExtractionPhase}
    (hok : PhaseOk fastPath wrap registry source stats dr q xs s.content ownSteps phase) :
    ownSteps ≤ 4 * q.size + 3 := by
  have h2 := h.two_le_size
  have hlen := h.represents.length_lt
  rw [h.size_eq] at hlen
  cases phase with
  | atOccupancy =>
    rw [hok]
    exact Nat.zero_le _
  | atFront => exact Nat.le_trans hok.1 (by omega)
  | atBack lastTs => exact Nat.le_trans hok.1 (by omega)
  | atLowerBound lastTs newestTs => exact Nat.le_trans hok.1 (by omega)
  | searching lastTs newestTs i j =>
    obtain ⟨_, _, _, _, _, fuel, _, _, hle, _⟩ := hok
    omega
  | atGood lastTs newestTs it => exact Nat.le_trans hok.1 (by omega)
  | atElement code iter pieces =>
    obtain ⟨_, k, m, ⟨_, _, _, _, _, hgathered⟩, hle, _⟩ := hok
    have := hgathered.le_length
    omega
  | incrementing code iter pieces =>
    obtain ⟨_, k, m, ⟨_, _, _, _, _, hgathered⟩, hle, _⟩ := hok
    have := hgathered.le_length
    omega
  | incremented code iter pieces =>
    obtain ⟨_, k, m, ⟨_, _, _, _, _, hgathered⟩, hle, _⟩ := hok
    have := hgathered.le_length
    omega
  | returned code pieces => exact hok.1

end Step

variable (fastPath wrap registry source stats dr q)

/-- One call of `data_request`, at any time: it can go on until it returns, which takes a bounded
number of its own steps, and its answer is one that it gives at once on the ring of an instant. -/
structure Linearized (xs : List T) (s : ExtractionSystem T) : Prop where
  stored : s.queue.liveSlots.map s.queue.records = s.content.map some
  kept : xs <+: s.content
  proceeds : (∀ code pieces, s.phase ≠ .returned code pieces) →
    (step fastPath dr.windowBegin dr.windowEnd s .extract).isSome
  bounded : s.ownSteps ≤ 4 * q.size + 3
  answered : ∀ code pieces, s.phase = .returned code pieces →
    Answered wrap registry source stats dr q xs s.content code pieces

/-- The invariant of a call. What the request thread knows rests on the order of the elements. -/
def Extracting (n tick : ℕ) (xs : List T) (s : ExtractionSystem T) : Prop :=
  (∃ ring, Publishes q xs s ring) ∧ (InOrder n tick fastPath s.content →
    PhaseOk fastPath wrap registry source stats dr q xs s.content s.ownSteps s.phase)

variable {fastPath wrap registry source stats dr q} {s s' : ExtractionSystem T}

omit [RingBuffer LB T] in
theorem extracting_init (h : Represents q xs) :
    Extracting fastPath wrap registry source stats dr q n tick xs (init q xs) :=
  ⟨⟨q, h, rfl, rfl, rfl, fun hne => absurd rfl hne, List.prefix_rfl⟩, fun _ => rfl⟩

omit [RingBuffer LB T] in
theorem Extracting.of_sameReader
    (h : Extracting fastPath wrap registry source stats dr q n tick xs s)
    (hpublishes : ∃ ring', Publishes q xs s' ring') (hsame : SameReader s s') :
    Extracting fastPath wrap registry source stats dr q n tick xs s' := by
  refine ⟨hpublishes, fun hin => ?_⟩
  rw [hsame.phase, hsame.ownSteps]
  exact (h.2 (hin.of_isPrefix hsame.content)).mono hsame.content

section Run
variable (hwrap : Wraps fastPath wrap registry) (hlayout : UniformLayout T n tick)
  (horder : TimestampConsistent T) (hsize : q.size < 2147483648)
  (hb : n * tick ≤ dr.windowBegin.toNat)
include hwrap hlayout horder hsize hb

theorem Extracting.step {a : ExtractionAction T}
    (h : Extracting fastPath wrap registry source stats dr q n tick xs s)
    (hs : step fastPath dr.windowBegin dr.windowEnd s a = some s') :
    Extracting fastPath wrap registry source stats dr q n tick xs s' := by
  obtain ⟨⟨ring, hpublishes⟩, hok⟩ := id h
  cases a with
  | write record =>
    obtain ⟨hpublishes', hsame⟩ := hpublishes.startWrite hs
    exact h.of_sameReader hpublishes' hsame
  | produce =>
    obtain ⟨hpublishes', hsame⟩ := hpublishes.stepProducer hs
    exact h.of_sameReader hpublishes' hsame
  | extract =>
    obtain ⟨next, hnext, rfl⟩ := Option.map_eq_some_iff.mp hs
    refine ⟨⟨ring, { hpublishes with }⟩, fun hin => ?_⟩
    have hphase : ∀ code pieces, s.phase ≠ .returned code pieces := by
      intro code pieces heq
      rw [heq] at hnext
      cases hnext
    have hin' : InOrder n tick fastPath s.content := hin
    obtain ⟨next', hnext', hok'⟩ :=
      hpublishes.extract hwrap hlayout horder hsize hb hin' (hok hin') hphase
    obtain rfl := Option.some.inj (hnext.symm.trans hnext')
    exact hok'

theorem Extracting.linearized (h : Extracting fastPath wrap registry source stats dr q n tick xs s)
    (hin : InOrder n tick fastPath s.content) :
    Linearized fastPath wrap registry source stats dr q xs s := by
  obtain ⟨⟨ring, hpublishes⟩, hok⟩ := h
  refine ⟨?_, hpublishes.kept, fun hphase => ?_, hpublishes.ownSteps_le (hok hin),
    fun code pieces heq => ?_⟩
  · rw [← hpublishes.represents.liveSlots_map, hpublishes.queue_eq, WalkSystem.pending_liveSlots]
    refine List.map_congr_left fun j hj => WalkSystem.pending_records _ _ ?_
    rintro rfl
    have hsome := (hpublishes.represents.mem_liveSlots_iff _).mp hj
    rw [hpublishes.represents.records_writeIndex] at hsome
    cases hsome
  · obtain ⟨next, hnext, -⟩ :=
      hpublishes.extract hwrap hlayout horder hsize hb hin (hok hin) hphase
    rw [ExtractionSystem.step, hnext]
    rfl
  · have hreturned := hok hin
    rw [heq] at hreturned
    exact hreturned.2

theorem run_extracting (source : FragmentSource) (stats : RequestStats) (h : Represents q xs)
    {as : List (ExtractionAction T)}
    (hrun : Execution.run (ExtractionSystem.step fastPath dr.windowBegin dr.windowEnd) (init q xs)
      as = some s) : Extracting fastPath wrap registry source stats dr q n tick xs s :=
  Execution.run_invariant (fun _ _ _ hI hs => hI.step hwrap hlayout horder hsize hb hs)
    (extracting_init h) hrun

end Run
end Atomic

section Buffers
variable {T : Type} [ReadoutType T] {n tick : ℕ} (registry : FrameErrorRegistry)

def wrapFixedRate (q : IterableQueueModel T) : FixedRateQueueModel T := ⟨⟨q⟩⟩

theorem wraps_binarySearch : Wraps false (BinarySearchQueueModel.mk (T := T)) registry :=
  ⟨fun _ => rfl, fun _ _ => rfl⟩

theorem wraps_fixedRate :
    Wraps (!registry.hasError "MISSING_FRAMES") (wrapFixedRate (T := T)) registry := by
  refine ⟨fun _ => rfl, fun q element => ?_⟩
  cases registry.hasError "MISSING_FRAMES" with
  | true => rfl
  | false => rfl

/-- The pieces denote, in the ring as it is when they are returned, the frames of the window that
were stored at some instant, and a complete answer denotes all of them. -/
structure CoversWindow {LB : Type} [LatencyBuffer LB T] (lb : LB) (dr : DataRequest)
    (xs ys : List T) (code : ResultCode) (pieces : List Piece) : Prop where
  instant : ∃ zs, xs <+: zs ∧ zs <+: ys ∧
    framesOf lb pieces = (storedFrames zs).filter (Frame.inWindow dr.windowBegin dr.windowEnd)
  complete : code ≠ .kPartial →
    framesOf lb pieces = (storedFrames ys).filter (Frame.inWindow dr.windowBegin dr.windowEnd)

end Buffers

section Frames
variable {T : Type} [ReadoutType T] {n tick : ℕ} {LB : Type} [LatencyBuffer LB T] {lb : LB}
  {registry : FrameErrorRegistry} {b e : UInt64} {fuel : ℕ} {code : ResultCode}
  {pieces : List Piece}

theorem deref_of_mem_gatherPieces {it : ℕ} (h : gatherPieces lb b e fuel it = some pieces) :
    ∀ p ∈ pieces, (LatencyBuffer.deref lb p.iterator).isSome := by
  induction fuel generalizing it pieces with
  | zero => cases h
  | succ fuel ih =>
    rw [gatherPieces] at h
    split_ifs at h with hgood
    · obtain ⟨element, hderef, h⟩ := Option.bind_eq_some_iff.mp h
      split_ifs at h with hless
      · obtain ⟨rest, hrest, rfl⟩ := Option.map_eq_some_iff.mp h
        intro p hp
        rcases List.mem_append.mp hp with hfirst | hlater
        · rw [iterator_of_mem_elementPieces hfirst, hderef]
          rfl
        · exact ih hrest p hlater
      · obtain rfl := Option.some.inj h
        exact fun p hp => absurd hp List.not_mem_nil
    · obtain rfl := Option.some.inj h
      exact fun p hp => absurd hp List.not_mem_nil

theorem getFragmentPieces_hasPieces
    (h : getFragmentPieces lb registry b e fuel = some (code, pieces))
    (hcode : code.hasPieces = true) :
    (∃ first last, LatencyBuffer.front lb = some first ∧ LatencyBuffer.back lb = some last ∧
        code = windowCode (getTimestamp first) (getTimestamp last) b e) ∧
      ∀ p ∈ pieces, (LatencyBuffer.deref lb p.iterator).isSome := by
  rw [getFragmentPieces] at h
  obtain ⟨first, hfirst, h⟩ := Option.bind_eq_some_iff.mp h
  obtain ⟨last, hlast, h⟩ := Option.bind_eq_some_iff.mp h
  split_ifs at h with hnotYet hold
  · cases h
    cases hcode
  · cases h
    cases hcode
  obtain ⟨it, -, h⟩ := Option.bind_eq_some_iff.mp h
  split_ifs at h with hgood
  · obtain ⟨ps, hps, heq⟩ := Option.map_eq_some_iff.mp h
    cases heq
    exact ⟨⟨first, last, hfirst, hlast, rfl⟩, deref_of_mem_gatherPieces hps⟩
  · cases h
    cases hcode

theorem getFragmentPieces_of_dataRequest {source : FragmentSource} {stats stats' : RequestStats}
    {dr : DataRequest}
    (h : dataRequest lb registry source fuel stats dr =
      some (.ofCode source dr code pieces, stats')) (hcode : code ≠ .kNotFound) :
    getFragmentPieces lb registry dr.windowBegin dr.windowEnd fuel = some (code, pieces) := by
  rw [dataRequest] at h
  split_ifs at h with hempty
  · have hanswer := congrArg (fun r => r.1.resultCode) (Option.some.inj h)
    exact absurd hanswer.symm hcode
  · obtain ⟨res, hres, h⟩ := Option.bind_eq_some_iff.mp h
    obtain ⟨_, _, h⟩ := Option.bind_eq_some_iff.mp h
    obtain ⟨_, _, h⟩ := Option.map_eq_some_iff.mp h
    have hanswer := congrArg (fun r => (r.1.resultCode, r.1.pieces)) h
    rw [hres]
    exact congrArg some hanswer

theorem framesOf_congr {LB' : Type} [LatencyBuffer LB' T] {lb' : LB'}
    (hsame : ∀ p ∈ pieces, LatencyBuffer.deref lb p.iterator = LatencyBuffer.deref lb' p.iterator) :
    framesOf lb pieces = framesOf lb' pieces :=
  List.flatMap_congr fun p hp => by rw [Piece.frames, hsame p hp, Piece.frames]

end Frames

section Covers
variable {T : Type} [ReadoutType T] {n tick : ℕ} {fastPath : Bool} {LB : Type}
  [LatencyBuffer LB T] [RingBuffer LB T] {wrap : IterableQueueModel T → LB}
  {registry : FrameErrorRegistry} {source : FragmentSource} {stats : RequestStats}
  {dr : DataRequest} {q : IterableQueueModel T} {xs : List T} {s : ExtractionSystem T}

theorem filter_storedFrames_of_isPrefix (hlayout : UniformLayout T n tick) {zs ys : List T}
    (hsorted : StrictlyIncreasing tsNat ys) (hextent : ∀ x ∈ ys, tsNat x + n * tick < 2 ^ 64)
    (hpre : zs <+: ys) {last : T} (hlast : zs.getLast? = some last) {b e : UInt64}
    (he : ¬ e > getTimestamp last) :
    (storedFrames ys).filter (Frame.inWindow b e) =
      (storedFrames zs).filter (Frame.inWindow b e) := by
  obtain ⟨rest, rfl⟩ := hpre
  have hmem : last ∈ zs := List.mem_of_getLast? hlast
  rw [gt_iff_lt, UInt64.lt_iff_toNat_lt, Nat.not_lt] at he
  have hrest : (storedFrames rest).filter (Frame.inWindow b e) = [] := by
    rw [storedFrames, List.filter_flatMap, List.flatMap_eq_nil_iff]
    intro x hx
    have hlt := (List.pairwise_append.mp hsorted).2.2 last hmem x hx
    exact frames_filter_of_le_ts hlayout (hextent x (List.mem_append_right _ hx))
      (Nat.le_trans he (Nat.le_of_lt hlt))
  rw [storedFrames, List.flatMap_append, List.filter_append, ← storedFrames, ← storedFrames, hrest,
    List.append_nil]

theorem Answered.coversWindow (hwrap : Wraps fastPath wrap registry)
    (hlayout : UniformLayout T n tick) (hsize : q.size < 2147483648)
    (hin : InOrder n tick fastPath s.content)
    (hexact : ∀ ring zs, Represents ring zs → ring.size = q.size → zs <+: s.content →
      ExactExtraction n tick (wrap ring) zs registry dr.windowBegin dr.windowEnd)
    {ring : IterableQueueModel T} (hpublishes : Publishes q xs s ring) {code : ResultCode}
    {pieces : List Piece} (hcode : code.hasPieces = true)
    (h : Answered wrap registry source stats dr q xs s.content code pieces) :
    CoversWindow (wrap s.queue) dr xs s.content code pieces := by
  obtain ⟨ring₀, zs, first, hsnap, hfirst, ring', zs', last, hsnap', hlast, hhas, hpartial⟩ := h
  have hfound : ∀ c : ResultCode, c.hasPieces = true → c ≠ .kNotFound := by
    rintro c hc rfl
    cases hc
  have hpieces := getFragmentPieces_of_dataRequest hlast (hfound last (hhas.trans hcode))
  have hderef := (getFragmentPieces_hasPieces hpieces (hhas.trans hcode)).2
  have hlen := hsnap'.represents.length_lt
  rw [hsnap'.size_eq] at hlen
  -- the records that the pieces point to are still there
  have hframes : framesOf (wrap s.queue) pieces = framesOf (wrap ring') pieces := by
    refine framesOf_congr fun p hp => ?_
    obtain ⟨x, hx⟩ := Option.isSome_iff_exists.mp (hderef p hp)
    have hrecord := hx
    rw [RingBuffer.deref_eq, hwrap.queue_wrap] at hrecord
    rw [hx, RingBuffer.deref_eq, hwrap.queue_wrap, hpublishes.records_of_snapshot hsnap' hrecord]
  have hinstant := (hexact ring' zs' hsnap'.represents hsnap'.size_eq hsnap'.upTo).exact q.size hlen
    last pieces hpieces (hhas.trans hcode)
  refine ⟨⟨zs', hsnap.since.trans hsnap'.since, hsnap'.upTo, hframes.trans hinstant⟩, fun hne => ?_⟩
  obtain rfl := hpartial hne
  have hpieces₀ := getFragmentPieces_of_dataRequest hfirst (hfound code hcode)
  obtain ⟨front, newest, _, hback, hwindow⟩ := (getFragmentPieces_hasPieces hpieces₀ hcode).1
  rw [hsnap.back_wrap hwrap hsize] at hback
  have hnewest : ¬ dr.windowEnd > getTimestamp newest := by
    intro hgt
    rw [windowCode, if_pos hgt] at hwindow
    exact hne hwindow
  have hsorted := hin.of_isPrefix hsnap'.upTo
  rw [hframes, hinstant,
    filter_storedFrames_of_isPrefix hlayout hin.sorted hin.extent hsnap.upTo hback hnewest,
    filter_storedFrames_of_isPrefix hlayout hsorted.sorted hsorted.extent hsnap'.since hback
      hnewest]

end Covers

section Buffers
variable {T : Type} [ReadoutType T] {n tick : ℕ} (registry : FrameErrorRegistry)

/-- Whatever the producer writes while `data_request` is under way on a ring of either kind, the
request thread comes to its end, and its answer is that of one instant. -/
theorem run_linearized (hlayout : UniformLayout T n tick) (horder : TimestampConsistent T)
    (source : FragmentSource) (stats : RequestStats) (dr : DataRequest)
    (hb : n * tick ≤ dr.windowBegin.toNat) {q : IterableQueueModel T} {xs : List T}
    (h : Represents q xs) (hsize : q.size < 2147483648) (as : List (ExtractionAction T))
    (s : ExtractionSystem T) :
    (Execution.run (step false dr.windowBegin dr.windowEnd) (init q xs) as = some s →
      InOrder n tick false s.content →
        Linearized false BinarySearchQueueModel.mk registry source stats dr q xs s) ∧
    (Execution.run (step (!registry.hasError "MISSING_FRAMES") dr.windowBegin dr.windowEnd)
        (init q xs) as = some s →
      InOrder n tick (!registry.hasError "MISSING_FRAMES") s.content →
        Linearized (!registry.hasError "MISSING_FRAMES") wrapFixedRate registry source stats dr q
          xs s) :=
  ⟨fun hrun => (run_extracting (wraps_binarySearch registry) hlayout horder hsize hb source stats h
      hrun).linearized (wraps_binarySearch registry) hlayout horder hsize hb,
    fun hrun => (run_extracting (wraps_fixedRate registry) hlayout horder hsize hb source stats h
      hrun).linearized (wraps_fixedRate registry) hlayout horder hsize hb⟩

/-- The frames that a ring of either kind answers a window with are those that were stored in it
together, at an instant of the call; an answer that is not partial lacks none of the frames stored
when it is returned. -/
theorem run_coversWindow (hlayout : UniformLayout T n tick) (horder : TimestampConsistent T)
    (dr : DataRequest) (hb : n * tick ≤ dr.windowBegin.toNat) {q : IterableQueueModel T}
    {xs : List T} (h : Represents q xs) (hsize : q.size < 2147483648)
    (as : List (ExtractionAction T)) (s : ExtractionSystem T)
    (hextent : ∀ x ∈ s.content, tsNat x + n * tick < 2 ^ 63) {code : ResultCode}
    {pieces : List Piece} (hphase : s.phase = .returned code pieces)
    (hcode : code.hasPieces = true) :
    (Execution.run (step false dr.windowBegin dr.windowEnd) (init q xs) as = some s →
      InOrder n tick false s.content →
        CoversWindow (BinarySearchQueueModel.mk s.queue) dr xs s.content code pieces) ∧
    (Execution.run (step (!registry.hasError "MISSING_FRAMES") dr.windowBegin dr.windowEnd)
        (init q xs) as = some s →
      InOrder n tick (!registry.hasError "MISSING_FRAMES") s.content →
        CoversWindow (wrapFixedRate s.queue) dr xs s.content code pieces) := by
  have hsub : ∀ {zs : List T}, zs <+: s.content → ∀ x ∈ zs, tsNat x + n * tick < 2 ^ 63 :=
    fun hpre x hx => hextent x (hpre.subset hx)
  constructor
  · intro hrun hin
    obtain ⟨⟨ring, hpublishes⟩, hok⟩ := run_extracting (wraps_binarySearch registry) hlayout horder
      hsize hb ⟨0, 0, (0, 0)⟩ .zero h hrun
    have hreturned := hok hin
    rw [hphase] at hreturned
    refine hreturned.2.coversWindow (wraps_binarySearch registry) hlayout hsize hin ?_ hpublishes
      hcode
    intro ring' zs hrep _ hpre
    exact BinarySearchQueueModel.exactExtraction hlayout (hin.of_isPrefix hpre).sorted (hsub hpre)
      horder ⟨ring'⟩ hrep
  · intro hrun hin
    obtain ⟨⟨ring, hpublishes⟩, hok⟩ := run_extracting (wraps_fixedRate registry) hlayout horder
      hsize hb ⟨0, 0, (0, 0)⟩ .zero h hrun
    have hreturned := hok hin
    rw [hphase] at hreturned
    refine hreturned.2.coversWindow (wraps_fixedRate registry) hlayout hsize hin ?_ hpublishes hcode
    intro ring' zs hrep _ hpre
    refine FixedRateQueueModel.exactExtraction hlayout (hin.of_isPrefix hpre).sorted (hsub hpre)
      horder (wrapFixedRate ring') hrep ?_
    cases herr : registry.hasError "MISSING_FRAMES" with
    | true => exact .inl rfl
    | false => exact .inr ⟨(hin.of_isPrefix hpre).gapFree (by rw [herr]; rfl), .inl hb⟩

end Buffers

section Chunks

def twoChunks : IterableQueueModel (Chunk 2 5) := filled 8 [⟨100⟩, ⟨110⟩]

def writtenMeanwhile (fastPath : Bool) : List (ExtractionAction (Chunk 2 5)) :=
  [.extract, .extract, .write ⟨120⟩, .produce, .produce, .extract, .write ⟨130⟩, .extract, .produce,
    .produce] ++ List.replicate (if fastPath then 5 else 7) .extract

def chunkRequest : DataRequest := ⟨1, 0, 1, 0, 112, 120, "fragments"⟩

def answeredSystem (fastPath : Bool) : ExtractionSystem (Chunk 2 5) :=
  (Execution.run (step fastPath chunkRequest.windowBegin chunkRequest.windowEnd)
    (init twoChunks [⟨100⟩, ⟨110⟩]) (writtenMeanwhile fastPath)).get
      (by cases fastPath <;> decide +kernel)

theorem run_answeredSystem (fastPath : Bool) :
    Execution.run (step fastPath chunkRequest.windowBegin chunkRequest.windowEnd)
      (init twoChunks [⟨100⟩, ⟨110⟩]) (writtenMeanwhile fastPath) =
        some (answeredSystem fastPath) := (Option.some_get _).symm

theorem content_answeredSystem (fastPath : Bool) :
    (answeredSystem fastPath).content = [⟨100⟩, ⟨110⟩, ⟨120⟩, ⟨130⟩] := by
  cases fastPath <;> decide +kernel

theorem phase_answeredSystem (fastPath : Bool) :
    (answeredSystem fastPath).phase = .returned .kFound [⟨1, 0, 1024⟩, ⟨1, 1, 1024⟩] := by
  cases fastPath <;> decide +kernel

theorem inOrder_answeredSystem (fastPath : Bool) :
    InOrder 2 5 fastPath (answeredSystem fastPath).content := by
  rw [content_answeredSystem]
  refine ⟨?_, ?_, fun _ => ?_⟩
  · simp [StrictlyIncreasing, tsNat, getTimestamp]
  · simp [tsNat, getTimestamp]
  · simp [GapFree, tsNat, getTimestamp]

theorem run_linearized_chunks :
    Linearized false BinarySearchQueueModel.mk .empty ⟨1, 2, (3, 4)⟩ .zero chunkRequest twoChunks
        [⟨100⟩, ⟨110⟩] (answeredSystem false) ∧
      Linearized true wrapFixedRate .empty ⟨1, 2, (3, 4)⟩ .zero chunkRequest twoChunks
        [⟨100⟩, ⟨110⟩] (answeredSystem true) :=
  have hlayout := Chunk.uniformLayout 2 5 (by decide) (by decide) (by decide)
  have horder := (Chunk.timestampOrder 2 5).consistent
  have hstored : Represents twoChunks [⟨100⟩, ⟨110⟩] :=
    represents_filled (by decide) _ (by decide) (by decide)
  ⟨(run_linearized .empty hlayout horder ⟨1, 2, (3, 4)⟩ .zero chunkRequest (by decide) hstored
      (by decide) (writtenMeanwhile false) (answeredSystem false)).1 (run_answeredSystem false)
      (inOrder_answeredSystem false),
    (run_linearized .empty hlayout horder ⟨1, 2, (3, 4)⟩ .zero chunkRequest (by decide) hstored
      (by decide) (writtenMeanwhile true) (answeredSystem true)).2 (run_answeredSystem true)
      (inOrder_answeredSystem true)⟩

theorem run_coversWindow_chunks :
    CoversWindow (BinarySearchQueueModel.mk (answeredSystem false).queue) chunkRequest
        [⟨100⟩, ⟨110⟩] (answeredSystem false).content .kFound [⟨1, 0, 1024⟩, ⟨1, 1, 1024⟩] ∧
      CoversWindow (wrapFixedRate (answeredSystem true).queue) chunkRequest
        [⟨100⟩, ⟨110⟩] (answeredSystem true).content .kFound [⟨1, 0, 1024⟩, ⟨1, 1, 1024⟩] :=
  have hlayout := Chunk.uniformLayout 2 5 (by decide) (by decide) (by decide)
  have horder := (Chunk.timestampOrder 2 5).consistent
  have hstored : Represents twoChunks [⟨100⟩, ⟨110⟩] :=
    represents_filled (by decide) _ (by decide) (by decide)
  have hextent : ∀ fastPath, ∀ x ∈ (answeredSystem fastPath).content, tsNat x + 2 * 5 < 2 ^ 63 := by
    intro fastPath
    rw [content_answeredSystem]
    simp [tsNat, getTimestamp]
  ⟨(run_coversWindow .empty hlayout horder chunkRequest (by decide) hstored (by decide)
      (writtenMeanwhile false) (answeredSystem false) (hextent false)
      (phase_answeredSystem false) rfl).1
      (run_answeredSystem false) (inOrder_answeredSystem false),
    (run_coversWindow .empty hlayout horder chunkRequest (by decide) hstored (by decide)
      (writtenMeanwhile true) (answeredSystem true) (hextent true)
      (phase_answeredSystem true) rfl).2
      (run_answeredSystem true) (inOrder_answeredSystem true)⟩

end Chunks
end ExtractionSystem
end DataHandling
