import DataHandling.Buffer.Enumeration
import DataHandling.Request.Exactness
import Mathlib.Data.List.Chain

/-! `data_request` on a ring while the producer writes. Cleanup waits until no request is being
served, so nothing is removed meanwhile. Every load of the write index, every record that the
search looks at, the construction of a record and the store of the write index are steps of their
own, in any order. -/

namespace DataHandling
open MachineInt Cyclic Ordered ReadoutType IterableQueueModel

/-- Where the request thread stands, with what it has read and collected so far. -/
inductive ExtractionPhase where
  | atOccupancy
  | atFront
  | atBack (lastTs : UInt64)
  | atLowerBound (lastTs newestTs : UInt64)
  | searching (lastTs newestTs : UInt64) (startIndex endIndex : ℕ)
  | atGood (lastTs newestTs : UInt64) (startIter : ℕ)
  | atElement (code : ResultCode) (iter : ℕ) (pieces : List Piece)
  | incrementing (code : ResultCode) (iter : ℕ) (pieces : List Piece)
  | incremented (code : ResultCode) (iter : ℕ) (pieces : List Piece)
  | returned (code : ResultCode) (pieces : List Piece)
  deriving DecidableEq

/-- The ring with its producer, the request thread and the number of its steps, and what the
producer has published. -/
structure ExtractionSystem (T : Type) where
  queue : IterableQueueModel T
  producer : WritePhase T
  content : List T
  phase : ExtractionPhase
  ownSteps : ℕ

inductive ExtractionAction (T : Type) where
  | write (record : T)
  | produce
  | extract

namespace ExtractionSystem
variable {T : Type} [ReadoutType T]

def init (q : IterableQueueModel T) (xs : List T) : ExtractionSystem T where
  queue := q
  producer := .idle
  content := xs
  phase := .atOccupancy
  ownSteps := 0

/-- The producer enters `write`, and leaves it again at once if the ring is full. -/
def startWrite (s : ExtractionSystem T) (record : T) : Option (ExtractionSystem T) :=
  match s.producer with
  | .idle =>
    if s.queue.nextRecord s.queue.writeIndex ≠ s.queue.readIndex then
      some { s with producer := .claimed record }
    else some { s with queue := s.queue.overflow }
  | _ => none

def stepProducer (s : ExtractionSystem T) : Option (ExtractionSystem T) :=
  match s.producer with
  | .idle => none
  | .claimed record => some { s with
      queue := { s.queue with
        records := Function.update s.queue.records s.queue.writeIndex (some record) }
      producer := .constructed record }
  | .constructed record => some { s with
      queue := { s.queue with writeIndex := s.queue.nextRecord s.queue.writeIndex }
      producer := .idle
      content := s.content ++ [record] }

variable (fastPath : Bool) (startWinTs endWinTs : UInt64)

def classify (lastTs newestTs : UInt64) : ExtractionPhase :=
  if startWinTs > newestTs then .returned .kNotYet []
  else if endWinTs < lastTs then .returned .kTooOld []
  else .atLowerBound lastTs newestTs

/-- The begin of `lower_bound`: the computed index of the fixed-rate queue, or the first
candidates of the binary search. -/
def beginLowerBound (q : IterableQueueModel T) (lastTs newestTs : UInt64) :
    Option ExtractionPhase :=
  if fastPath then
    (FixedRateQueueModel.computedSearch q (requestElement T startWinTs)).map
      (.atGood lastTs newestTs)
  else if q.readIndex = q.writeIndex then some (.atGood lastTs newestTs endIndex)
  else
    (q.records q.readIndex).map fun left =>
      if lt (requestElement T startWinTs) left then .atGood lastTs newestTs endIndex
      else .searching lastTs newestTs q.readIndex
        (if q.writeIndex = 0 then q.size - 1 else q.writeIndex - 1)

def searchOnce (q : IterableQueueModel T) (lastTs newestTs : UInt64) (startIndex endIndex : ℕ) :
    Option ExtractionPhase :=
  let element := requestElement T startWinTs
  let diff := BinarySearchQueueModel.candidateDistance q startIndex endIndex
  let middle := BinarySearchQueueModel.middleIndex q startIndex diff
  (q.records middle).map fun between =>
    if getTimestamp element = getTimestamp between then .atGood lastTs newestTs middle
    else if diff = 0 then
      .atGood lastTs newestTs
        (if lt element between then middle else BinarySearchQueueModel.oneUp q middle)
    else if lt element between then
      .searching lastTs newestTs startIndex (BinarySearchQueueModel.oneDown q middle)
    else .searching lastTs newestTs middle endIndex

/-- The head of the loop over the elements: it goes on with the pieces of the element, or ends. -/
def lookAtElement (q : IterableQueueModel T) (code : ResultCode) (iter : ℕ)
    (pieces : List Piece) : Option ExtractionPhase :=
  if q.good iter then
    (q.records iter).map fun element =>
      if getTimestamp element < endWinTs then
        .incrementing code iter (pieces ++ elementPieces startWinTs endWinTs iter element)
      else .returned code pieces
  else some (.returned code pieces)

/-- The next step of the request thread. There is none when a null pointer or raw memory would be
read, or after the last one. -/
def extract (q : IterableQueueModel T) : ExtractionPhase → Option ExtractionPhase
  | .atOccupancy => some (if q.occupancy = 0 then .returned .kNotFound [] else .atFront)
  | .atFront => (q.front.bind q.records).map fun front => .atBack (getTimestamp front)
  | .atBack lastTs =>
    (q.back.bind q.records).map fun last => classify startWinTs endWinTs lastTs (getTimestamp last)
  | .atLowerBound lastTs newestTs => beginLowerBound fastPath startWinTs q lastTs newestTs
  | .searching lastTs newestTs startIndex endIndex =>
    searchOnce startWinTs q lastTs newestTs startIndex endIndex
  | .atGood lastTs newestTs startIter =>
    some (if q.good startIter then
      .atElement (windowCode lastTs newestTs startWinTs endWinTs) startIter []
    else .returned .kNotFound [])
  | .atElement code iter pieces => lookAtElement startWinTs endWinTs q code iter pieces
  | .incrementing code iter pieces =>
    some (.incremented code (if q.good iter then q.nextRecord iter else iter) pieces)
  | .incremented code iter pieces =>
    some (.atElement code (if q.good iter then iter else endIndex) pieces)
  | .returned _ _ => none

def step (s : ExtractionSystem T) : ExtractionAction T → Option (ExtractionSystem T)
  | .write record => s.startWrite record
  | .produce => s.stepProducer
  | .extract =>
    (extract fastPath startWinTs endWinTs s.queue s.phase).map fun phase =>
      { s with phase := phase, ownSteps := s.ownSteps + 1 }

end ExtractionSystem

namespace ExtractionSystem
variable {T : Type} [ReadoutType T] {n tick : ℕ} {fastPath : Bool}

def lookup (fastPath : Bool) (q : IterableQueueModel T) (element : T) : Option ℕ :=
  if fastPath then FixedRateQueueModel.computedSearch q element
  else BinarySearchQueueModel.search q element

def below (fastPath : Bool) (element front : T) : Bool :=
  if fastPath then decide (tsNat element < tsNat front) else lt element front

/-- What a ring has to hold for its search, with the computed index or without. -/
structure InOrder (n tick : ℕ) (fastPath : Bool) (xs : List T) : Prop where
  sorted : StrictlyIncreasing tsNat xs
  extent : ∀ x ∈ xs, tsNat x + n * tick < 2 ^ 64
  gapFree : fastPath = true → GapFree (n * tick) xs

theorem InOrder.of_isPrefix {xs ys : List T} (h : InOrder n tick fastPath ys) (hpre : xs <+: ys) :
    InOrder n tick fastPath xs where
  sorted := h.sorted.sublist hpre.sublist
  extent := fun x hx => h.extent x (hpre.subset hx)
  gapFree := by
    intro hfast
    obtain ⟨later, rfl⟩ := hpre
    exact List.IsChain.left_of_append (h.gapFree hfast)

section Lookup
variable (hlayout : UniformLayout T n tick) (horder : TimestampConsistent T)
  {q : IterableQueueModel T} {xs : List T} {element : T}
include hlayout horder

theorem lookup_eq (h : Represents q xs) (hsize : q.size < 2147483648)
    (hin : InOrder n tick fastPath xs) (hne : xs ≠ [])
    (hnewest : tsNat element ≤ tsNat (xs.getLast hne)) :
    lookup fastPath q element =
      if below fastPath element (xs.head hne) then some endIndex
      else some (slot q.size q.readIndex (Ordered.lowerBound tsNat xs (tsNat element))) := by
  cases fastPath with
  | false => exact BinarySearchQueueModel.search_eq h horder hin.sorted hne
  | true =>
    have hgap := hin.gapFree rfl
    have hlast := hin.extent _ (List.getLast_mem hne)
    have hpos := List.length_pos_iff.mpr hne
    have hmul : (xs.length - 1) * (n * tick) + n * tick = xs.length * (n * tick) := by
      rw [← Nat.succ_mul, Nat.succ_eq_add_one, Nat.sub_add_cancel hpos]
    rw [List.getLast_eq_getElem, hgap.tsNat_getElem, ← List.head_eq_getElem hne] at hlast hnewest
    refine (FixedRateQueueModel.computedSearch_eq h hgap hne (hlayout.hasExtent _) hsize).trans
      (if_congr ?_ rfl rfl)
    rw [Nat.mod_eq_of_lt (by omega)]
    rw [below, if_pos rfl, decide_eq_true_iff]
    omega

end Lookup

/-- What the producer has published since the ring `q` held `xs`: `ring` is the queue without a
record in construction. -/
structure Publishes (q : IterableQueueModel T) (xs : List T) (s : ExtractionSystem T)
    (ring : IterableQueueModel T) : Prop where
  represents : Represents ring s.content
  size_eq : ring.size = q.size
  readIndex_eq : ring.readIndex = q.readIndex
  queue_eq : s.queue = s.producer.pending ring
  room : s.producer ≠ .idle → s.content.length + 1 < ring.size
  kept : xs <+: s.content

structure SameReader (s s' : ExtractionSystem T) : Prop where
  phase : s'.phase = s.phase
  ownSteps : s'.ownSteps = s.ownSteps
  content : s.content <+: s'.content

section Publishes
variable {q ring : IterableQueueModel T} {xs : List T} {s s' : ExtractionSystem T}
  (h : Publishes q xs s ring)
include h

omit [ReadoutType T] in
theorem Publishes.startWrite {record : T} (hs : s.startWrite record = some s') :
    (∃ ring', Publishes q xs s' ring') ∧ SameReader s s' := by
  have hqueue := h.queue_eq
  unfold ExtractionSystem.startWrite at hs
  cases hp : s.producer with
  | idle =>
    rw [hp] at hqueue
    simp only [hp] at hs
    split_ifs at hs with hroom
    · obtain rfl := Option.some.inj hs
      refine ⟨⟨ring, { h with queue_eq := hqueue, room := fun _ => ?_ }⟩, rfl, rfl, List.prefix_rfl⟩
      rw [hqueue] at hroom
      exact h.represents.nextRecord_ne_iff.mp hroom
    · obtain rfl := Option.some.inj hs
      refine ⟨⟨ring.overflow, { h with
        represents := h.represents.overflow
        queue_eq := ?_
        room := fun hne => absurd rfl hne }⟩, rfl, rfl, List.prefix_rfl⟩
      rw [hqueue]
      rfl
  | claimed _ => simp only [hp, reduceCtorEq] at hs
  | constructed _ => simp only [hp, reduceCtorEq] at hs

omit [ReadoutType T] in
theorem Publishes.stepProducer (hs : s.stepProducer = some s') :
    (∃ ring', Publishes q xs s' ring') ∧ SameReader s s' := by
  have hqueue := h.queue_eq
  unfold ExtractionSystem.stepProducer at hs
  cases hp : s.producer with
  | idle => simp only [hp, reduceCtorEq] at hs
  | claimed record =>
    rw [hp] at hqueue
    simp only [hp] at hs
    obtain rfl := Option.some.inj hs
    refine ⟨⟨ring, { h with
      queue_eq := ?_
      room := fun _ => h.room (by rw [hp]; exact nofun) }⟩, rfl, rfl, List.prefix_rfl⟩
    rw [hqueue]
    rfl
  | constructed record =>
    have hroom := h.room (by rw [hp]; exact nofun)
    rw [hp] at hqueue
    simp only [hp] at hs
    obtain rfl := Option.some.inj hs
    refine ⟨⟨ring.placeBack record, { h with
      represents := h.represents.placeBack record hroom
      queue_eq := ?_
      room := fun hne => absurd rfl hne
      kept := h.kept.trans (List.prefix_append _ _) }⟩, rfl, rfl, List.prefix_append _ _⟩
    rw [hqueue]
    rfl

omit [ReadoutType T] in
theorem Publishes.records_slot {k : ℕ} (hk : k < s.content.length) :
    s.queue.records (slot q.size q.readIndex k) = some s.content[k] := by
  have hstored := h.represents.stored k hk
  rw [h.size_eq, h.readIndex_eq] at hstored
  rw [h.queue_eq, WalkSystem.pending_records, hstored]
  intro heq
  rw [heq, h.represents.records_writeIndex] at hstored
  cases hstored

omit [ReadoutType T] in
theorem Publishes.size_queue : s.queue.size = q.size := by
  rw [h.queue_eq, WalkSystem.pending_size, h.size_eq]

omit [ReadoutType T] in
theorem Publishes.good_eq (it : ℕ) : s.queue.good it = ring.good it := by
  rw [h.queue_eq]
  cases s.producer <;> rfl

omit [ReadoutType T] in
theorem Publishes.good_slot_iff {k : ℕ} (hk : k ≤ s.content.length) :
    s.queue.good (slot q.size q.readIndex k) = true ↔ k < s.content.length := by
  have hat := h.represents.at_slot hk
  rw [h.size_eq, h.readIndex_eq] at hat
  rw [h.good_eq, h.represents.good_iff hat]

omit [ReadoutType T] in
theorem Publishes.nextRecord_slot {k : ℕ} (hk : k < s.content.length) :
    s.queue.nextRecord (slot q.size q.readIndex k) = slot q.size q.readIndex (k + 1) := by
  have hnext := h.represents.nextRecord_slot (Nat.lt_trans hk h.represents.length_lt)
  rw [h.size_eq, h.readIndex_eq, nextRecord, h.size_eq] at hnext
  rw [nextRecord, h.size_queue, hnext]

omit [ReadoutType T] in
theorem Publishes.occupancy_eq_zero_iff : s.queue.occupancy = 0 ↔ s.content = [] := by
  rw [← h.represents.occupancy_eq_zero_iff, h.queue_eq]
  cases s.producer <;> rfl

omit [ReadoutType T] in
theorem Publishes.front_records : s.queue.front.bind s.queue.records = s.content.head? := by
  have hfront : s.queue.front = ring.front := by
    rw [h.queue_eq]
    cases s.producer <;> rfl
  rw [hfront, h.represents.front_eq]
  by_cases hne : s.content = []
  · rw [if_pos hne, hne]
    rfl
  · have hpos := List.length_pos_iff.mpr hne
    have hrecord := h.records_slot hpos
    have hread := h.represents.read_lt
    rw [h.size_eq, h.readIndex_eq] at hread
    rw [slot_zero hread] at hrecord
    rw [if_neg hne, Option.bind_some, h.readIndex_eq, hrecord, List.head?_eq_getElem?,
      List.getElem?_eq_getElem hpos]

omit [ReadoutType T] in
theorem Publishes.back_records (hsize : q.size ≤ 2147483648) :
    s.queue.back.bind s.queue.records = s.content.getLast? := by
  have hback : s.queue.back = ring.back := by
    rw [h.queue_eq]
    cases s.producer <;> rfl
  by_cases hne : s.content = []
  · have hnull := h.represents.readIndex_eq_writeIndex_iff.mpr hne
    rw [hback, back, if_pos hnull.symm, hne]
    rfl
  · have hpos := List.length_pos_iff.mpr hne
    rw [hback, h.represents.back_eq (h.size_eq ▸ hsize) hne, Option.bind_some, h.size_eq,
      h.readIndex_eq, h.records_slot (by omega), List.getLast?_eq_getElem?,
      List.getElem?_eq_getElem (by omega)]

end Publishes
end ExtractionSystem
end DataHandling
