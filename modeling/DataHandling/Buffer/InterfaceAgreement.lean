import DataHandling.Buffer.QueueRefinement
import DataHandling.Buffer.RingBuffers
import DataHandling.Buffer.SkipList
import DataHandling.Chunk
import DataHandling.Foundation.Execution

/-! The operations of `LatencyBufferConcept` on the ring with binary search and on the skip
list, side by side: when both return the same results and store the same elements. -/

namespace DataHandling
open MachineInt Cyclic Ordered ReadoutType IterableQueueModel

inductive BufferOp (T : Type) where
  | write (newElement : T)
  | read
  | pop (num : ℕ)
  | flush
  | occupancy
  | front
  | back
  | lowerBound (element : T) (withErrors : Bool)

/-- What an operation returns. A pointer and a good iterator are given by the element behind
them; `aborted` stands for a failed assertion or a read of raw memory, `diverged` for a loop
that does not end. -/
inductive BufferResult (T : Type) where
  | success (b : Bool)
  | element (b : Bool) (record : Option T)
  | unit
  | count (n : ℕ)
  | pointer (record : Option T)
  | iterator (record : Option T)
  | aborted
  | diverged
  deriving DecidableEq

/-- The rest of the interface: `read`, what comes of a pop that does not return, and the elements
stored, oldest first. -/
class BufferRead (LB : Type) (T : outParam Type) where
  read : LB → Bool × Option T × LB
  failedPop : LB → BufferResult T
  stored : LB → List (Option T)

section Interface
variable {LB T : Type} [LatencyBuffer LB T] [BufferRead LB T]

def popResult (lb : LB) (num : ℕ) : BufferResult T × LB :=
  match LatencyBuffer.pop num lb with
  | some lb' => (.unit, lb')
  | none => (BufferRead.failedPop lb, lb)

def searchResult (lb : LB) (element : T) (withErrors : Bool) : BufferResult T :=
  match LatencyBuffer.lowerBound lb element withErrors with
  | some it => .iterator (if LatencyBuffer.good lb it then LatencyBuffer.deref lb it else none)
  | none => .aborted

def applyOp (lb : LB) : BufferOp T → BufferResult T × LB
  | .write x => (.success (LatencyBuffer.write lb x).1, (LatencyBuffer.write lb x).2)
  | .read => (.element (BufferRead.read lb).1 (BufferRead.read lb).2.1, (BufferRead.read lb).2.2)
  | .pop num => popResult lb num
  | .flush => popResult lb (LatencyBuffer.occupancy lb)
  | .occupancy => (.count (LatencyBuffer.occupancy lb), lb)
  | .front => (.pointer (LatencyBuffer.front lb), lb)
  | .back => (.pointer (LatencyBuffer.back lb), lb)
  | .lowerBound element withErrors => (searchResult lb element withErrors, lb)

def outcome (lb : LB) (op : BufferOp T) : BufferResult T × List (Option T) :=
  ((applyOp lb op).1, BufferRead.stored (applyOp lb op).2)

end Interface

section Buffers
variable {T : Type} [ReadoutType T]

instance : BufferRead (BinarySearchQueueModel T) T where
  read q := (q.toIterableQueueModel.read.1, q.toIterableQueueModel.read.2.1,
    ⟨q.toIterableQueueModel.read.2.2⟩)
  failedPop _ := .aborted
  stored q := q.liveSlots.map q.records

instance : BufferRead (SkipListLatencyBufferModel T) T where
  read s := (s.read.1, s.read.2, s)
  failedPop _ := .diverged
  stored s := s.elements.map some

/-- The two buffers under the same operations, with the outcomes of both. -/
structure BufferPair (T : Type) [ReadoutType T] where
  ring : BinarySearchQueueModel T
  skipList : SkipListLatencyBufferModel T
  outcomes : List ((BufferResult T × List (Option T)) × (BufferResult T × List (Option T)))

namespace BufferPair

def init (size : ℕ) : BufferPair T := ⟨⟨fresh T size⟩, .empty T, []⟩

def step (s : BufferPair T) (op : BufferOp T) : Option (BufferPair T) :=
  some ⟨(applyOp s.ring op).2, (applyOp s.skipList op).2,
    s.outcomes ++ [(outcome s.ring op, outcome s.skipList op)]⟩

/-- Both have returned the same results, and stored the same elements after every operation. -/
def Agree (s : BufferPair T) : Prop := ∀ p ∈ s.outcomes, p.1 = p.2

/-- The operations that the buffers are compared on: payloads above all that are stored and
within the capacity, pops of stored elements, and searches not below the front. -/
def Admissible (s : BufferPair T) : BufferOp T → Prop
  | .write x => s.ring.isFull = false ∧
      ∀ j ∈ s.ring.liveSlots, ∀ y ∈ s.ring.records j, tsNat y < tsNat x
  | .pop num => num ≤ s.ring.liveSlots.length
  | .lowerBound element _ =>
      ∀ front ∈ s.ring.front.bind s.ring.records, lt element front = false
  | _ => True

/-- The difference of the two indices is in the signed 32-bit range. -/
def IndicesComparable (q : IterableQueueModel T) : Prop :=
  -2147483648 ≤ (q.writeIndex : ℤ) - q.readIndex ∧ (q.writeIndex : ℤ) - q.readIndex < 2147483648

instance (q : IterableQueueModel T) : Decidable (IndicesComparable q) :=
  inferInstanceAs (Decidable (_ ∧ _))

/-- When an operation has the same outcome on both: a read of an empty buffer, a pop of nothing
or of everything, signed 32-bit indices where the ring computes with them, and a search at a
timestamp where no stored element is told apart by another key. -/
def Conforms (s : BufferPair T) : BufferOp T → Prop
  | .read => s.ring.isEmpty = true
  | .pop num => num = 0 ∨ num = s.ring.liveSlots.length
  | .flush => IndicesComparable s.ring.toIterableQueueModel ∧ s.ring.liveSlots.length < 2147483648
  | .occupancy => IndicesComparable s.ring.toIterableQueueModel
  | .back => s.ring.isEmpty = true ∨ BackReadable s.ring.toIterableQueueModel
  | .lowerBound element _ => ∀ j ∈ s.ring.liveSlots, ∀ y ∈ s.ring.records j,
      getTimestamp y = getTimestamp element → lt y element = false
  | _ => True

section Occupancy
omit [ReadoutType T]

/-- The wrapped difference `d` of two indices below `size`, or its sum `e` with the size if it is
negative, against the wrapped number `l` of elements between them. -/
theorem wrapped_difference_iff {w r size w' r' size' len d e l kw kr ks kd ke kl : ℤ}
    (hw0 : 0 ≤ w) (hwlt : w < size) (hr0 : 0 ≤ r) (hrlt : r < size) (hsize : size < 4294967296)
    (hlen : len = if r ≤ w then w - r else size + w - r) (hw : w = w' + 4294967296 * kw)
    (hr : r = r' + 4294967296 * kr) (hs : size = size' + 4294967296 * ks)
    (hd : w' - r' = d + 4294967296 * kd) (hd1 : -2147483648 ≤ d) (hd2 : d < 2147483648)
    (he : d + size' = e + 4294967296 * ke) (he1 : -2147483648 ≤ e) (he2 : e < 2147483648)
    (hl : len = l + 4294967296 * kl) (hl1 : -2147483648 ≤ l) (hl2 : l < 2147483648) :
    (if d < 0 then e else d) = l ↔ -2147483648 ≤ w - r ∧ w - r < 2147483648 := by
  obtain ⟨k, hk⟩ : ∃ k, w - r = d + 4294967296 * k := ⟨kw - kr + kd, by omega⟩
  obtain ⟨k', hk'⟩ : ∃ k', d + size = e + 4294967296 * k' := ⟨ks + ke, by omega⟩
  clear hw hr hs hd he
  have hcases : k = -1 ∨ k = 0 ∨ k = 1 := by omega
  rcases hcases with rfl | rfl | rfl
  · refine iff_of_false ?_ (by omega)
    split_ifs at hlen ⊢ <;> omega
  · refine iff_of_true ?_ (by omega)
    split_ifs at hlen ⊢ <;> omega
  · refine iff_of_false ?_ (by omega)
    split_ifs at hlen ⊢ <;> omega

theorem occupancy_eq_toSize_iff {q : IterableQueueModel T} (hread : q.readIndex < q.size)
    (hwrite : q.writeIndex < q.size) (hsize : q.size < 4294967296) :
    q.occupancy = toSize (i32 (distance q.size q.readIndex q.writeIndex)) ↔
      IndicesComparable q := by
  have hlen : (distance q.size q.readIndex q.writeIndex : ℤ) =
      if (q.readIndex : ℤ) ≤ q.writeIndex then (q.writeIndex : ℤ) - q.readIndex
      else q.size + q.writeIndex - q.readIndex := by
    rw [distance]
    split_ifs <;> omega
  obtain ⟨kw, hw, _, _⟩ := i32_spec q.writeIndex
  obtain ⟨kr, hr, _, _⟩ := i32_spec q.readIndex
  obtain ⟨ks, hs, _, _⟩ := i32_spec q.size
  obtain ⟨kl, hl, hl1, hl2⟩ := i32_spec (distance q.size q.readIndex q.writeIndex)
  obtain ⟨kd, hd, hd1, hd2⟩ := i32_spec (i32 q.writeIndex - i32 q.readIndex)
  obtain ⟨ke, he, he1, he2⟩ := i32_spec (i32 (i32 q.writeIndex - i32 q.readIndex) + i32 q.size)
  have harith := wrapped_difference_iff (Int.natCast_nonneg _) (Int.ofNat_lt.mpr hwrite)
    (Int.natCast_nonneg _) (Int.ofNat_lt.mpr hread) (Int.ofNat_lt.mpr hsize) hlen hw hr hs hd hd1
    hd2 he he1 he2 hl hl1 hl2
  rw [IndicesComparable, ← harith]
  dsimp only [occupancy]
  split_ifs
  · exact toSize_inj he1 he2 hl1 hl2
  · exact toSize_inj hd1 hd2 hl1 hl2

theorem occupancy_range (q : IterableQueueModel T) :
    q.occupancy < 2147483648 ∨ 4294967296 ≤ q.occupancy := by
  have hrange : ∀ n : ℤ, toSize (i32 n) < 2147483648 ∨ 4294967296 ≤ toSize (i32 n) := by
    intro n
    obtain ⟨k, _, hn1, hn2⟩ := i32_spec n
    unfold toSize
    omega
  dsimp only [occupancy]
  split_ifs <;> exact hrange _

variable {q : IterableQueueModel T} {xs : List T} (h : Represents q xs)
include h

theorem occupancy_eq_iff : q.occupancy = toSize (i32 xs.length) ↔ IndicesComparable q := by
  rw [← h.distance_eq]
  exact occupancy_eq_toSize_iff h.read_lt h.write_lt h.size_lt

end Occupancy

section Operations
variable {q : BinarySearchQueueModel T} {xs : List T} (h : Represents q.toIterableQueueModel xs)
include h

omit [ReadoutType T] in
theorem stored_ring : BufferRead.stored q = xs.map some := h.liveSlots_map

omit [ReadoutType T] in
theorem length_liveSlots : q.liveSlots.length = xs.length := by
  have hlen := congrArg List.length h.liveSlots_map
  rwa [List.length_map, List.length_map] at hlen

theorem popResult_ring_of_le {num : ℕ} (hnum : num ≤ xs.length) :
    ∃ q', popResult q num = (.unit, q') ∧ Represents q'.toIterableQueueModel (xs.drop num) := by
  obtain ⟨q', hpop, hrep, _⟩ := h.pop_of_le hnum
  have hpop' : LatencyBuffer.pop num q = some ⟨q'⟩ := congrArg (Option.map _) hpop
  exact ⟨⟨q'⟩, by rw [popResult, hpop'], hrep⟩

theorem popResult_ring_of_lt {num : ℕ} (hnum : xs.length < num) :
    popResult q num = (.aborted, q) := by
  have hpop : LatencyBuffer.pop num q = none := congrArg (Option.map _) (h.pop_of_lt hnum)
  rw [popResult, hpop]
  rfl

omit [ReadoutType T] in
theorem read_ring :
    ∃ q', (BufferRead.read q : Bool × Option T × _) = (decide (xs ≠ []), xs.head?, q') ∧
      Represents q'.toIterableQueueModel xs.tail := by
  have hread := h.read_eq
  rw [Prod.mk.injEq] at hread
  refine ⟨⟨q.toIterableQueueModel.read.2.2⟩, ?_, ?_⟩
  · rw [← hread.1, ← hread.2]
    rfl
  · have hiff := h.readIndex_eq_writeIndex_iff
    rw [IterableQueueModel.read]
    cases xs with
    | nil =>
      rw [if_pos (hiff.mpr rfl)]
      exact h
    | cons x xs =>
      rw [if_neg fun hrw => List.cons_ne_nil _ _ (hiff.mp hrw)]
      exact h.dropFront

theorem ring_step (hsorted : StrictlyIncreasing tsNat xs) (s : BufferPair T) (hq : s.ring = q)
    (op : BufferOp T) (hadm : Admissible s op) :
    ∃ ys, Represents (applyOp q op).2.toIterableQueueModel ys ∧ StrictlyIncreasing tsNat ys := by
  subst hq
  have hpops : ∀ num, ∃ ys, Represents (popResult s.ring num).2.toIterableQueueModel ys ∧
      StrictlyIncreasing tsNat ys := by
    intro num
    rcases le_or_gt num xs.length with hle | hlt
    · obtain ⟨q', hpop, hrep⟩ := popResult_ring_of_le h hle
      rw [hpop]
      exact ⟨_, hrep, hsorted.sublist (List.drop_sublist _ _)⟩
    · rw [popResult_ring_of_lt h hlt]
      exact ⟨xs, h, hsorted⟩
  cases op with
  | write x =>
    refine ⟨xs ++ [x], h.write_accepted (write_fst_iff x |>.mpr hadm.1), ?_⟩
    refine List.pairwise_append.mpr ⟨hsorted, List.pairwise_singleton _ _, fun y hy z hz => ?_⟩
    rw [List.mem_singleton.mp hz]
    obtain ⟨j, hj, hslot⟩ := h.exists_slot_of_mem hy
    exact hadm.2 j hj y hslot
  | read =>
    obtain ⟨q', hread, hrep⟩ := read_ring h
    refine ⟨xs.tail, ?_, hsorted.sublist (List.tail_sublist xs)⟩
    rw [applyOp, hread]
    exact hrep
  | pop num => exact hpops num
  | flush =>
    rw [applyOp]
    exact hpops _
  | occupancy | front | back | lowerBound => exact ⟨xs, h, hsorted⟩

end Operations

theorem popResult_skipList {num : ℕ} (hnum : num < 4294967296) (s : SkipListLatencyBufferModel T) :
    popResult s num = (.unit, SkipListLatencyBufferModel.pop num s) := by
  have hpop : LatencyBuffer.pop num s = some (SkipListLatencyBufferModel.pop num s) := if_pos hnum
  rw [popResult, hpop]

theorem popResult_skipList_of_le {num : ℕ} (hnum : 4294967296 ≤ num)
    (s : SkipListLatencyBufferModel T) : popResult s num = (.diverged, s) := by
  have hpop : LatencyBuffer.pop num s = none := if_neg (Nat.not_lt.mpr hnum)
  rw [popResult, hpop]
  rfl

theorem stored_pop (s : SkipListLatencyBufferModel T) (num : ℕ) :
    BufferRead.stored (SkipListLatencyBufferModel.pop num s) =
      (s.elements.take (s.elements.length - num)).map some :=
  congrArg (List.map some) (SkipListLatencyBufferModel.elements_pop num s)

section Outcomes
variable {s : BufferPair T} (h : Represents s.ring.toIterableQueueModel s.skipList.elements)
  (hsorted : StrictlyIncreasing tsNat s.skipList.elements)
include h

theorem popResult_eq_iff (hsorted : StrictlyIncreasing tsNat s.skipList.elements) {num : ℕ}
    (hnum : num ≤ s.skipList.elements.length) :
    ((popResult s.ring num).1, BufferRead.stored (popResult s.ring num).2) =
        ((popResult s.skipList num).1, BufferRead.stored (popResult s.skipList num).2) ↔
      num = 0 ∨ num = s.ring.liveSlots.length := by
  obtain ⟨q', hpop, hrep⟩ := popResult_ring_of_le h hnum
  have hlt := h.length_lt.trans h.size_lt
  rw [hpop, popResult_skipList (by omega), stored_ring hrep, stored_pop, Prod.mk.injEq,
    and_iff_right rfl, (List.map_injective_iff.mpr (Option.some_injective T)).eq_iff,
    hsorted.drop_eq_take_iff hnum, length_liveSlots h]

theorem ring_flush_iff :
    outcome s.ring .flush = (.unit, []) ↔
      s.ring.toIterableQueueModel.occupancy = s.skipList.elements.length := by
  have hocc : LatencyBuffer.occupancy s.ring = s.ring.occupancy := rfl
  rw [outcome, applyOp, hocc]
  rcases le_or_gt s.ring.occupancy s.skipList.elements.length with hle | hlt
  · obtain ⟨q', hpop, hrep⟩ := popResult_ring_of_le h hle
    rw [hpop, stored_ring hrep, Prod.mk.injEq, and_iff_right rfl, List.map_eq_nil_iff,
      List.drop_eq_nil_iff]
    exact ⟨fun hge => le_antisymm hle hge, fun heq => heq.ge⟩
  · rw [popResult_ring_of_lt h hlt]
    refine iff_of_false (fun heq => ?_) hlt.ne'
    cases (Prod.mk.injEq _ _ _ _ ▸ heq).1

theorem ring_flush_ne_diverged : (outcome s.ring .flush).1 ≠ .diverged := by
  rw [outcome, applyOp]
  rcases le_or_gt (LatencyBuffer.occupancy s.ring) s.skipList.elements.length with hle | hlt
  · obtain ⟨q', hpop, -⟩ := popResult_ring_of_le h hle
    rw [hpop]
    rintro ⟨⟩
  · rw [popResult_ring_of_lt h hlt]
    rintro ⟨⟩

/-- Both flushes empty their buffer just if the ring computes its own occupancy; from 2^31
elements on the skip list's occupancy is negative as an `int`, and its flush does not end. -/
theorem flush_eq_iff :
    outcome s.ring .flush = outcome s.skipList .flush ↔ Conforms s .flush := by
  have hocc : LatencyBuffer.occupancy s.skipList = s.skipList.occupancy := rfl
  rw [SkipListLatencyBufferModel.occupancy] at hocc
  have hlt := h.length_lt.trans h.size_lt
  rcases Nat.lt_or_ge s.skipList.elements.length 2147483648 with hsmall | hlarge
  · have hskip : outcome s.skipList .flush = (.unit, []) := by
      rw [outcome, applyOp, hocc, i32_of_lt hsmall, toSize_natCast (by omega),
        popResult_skipList (by omega), stored_pop, Nat.sub_self, List.take_zero, List.map_nil]
    rw [hskip, ring_flush_iff h, Conforms, length_liveSlots h, ← occupancy_eq_iff h,
      i32_of_lt hsmall, toSize_natCast (by omega), and_iff_left hsmall]
  · have hskip : (outcome s.skipList .flush).1 = .diverged := by
      obtain ⟨k, hk, h1, h2⟩ := i32_spec s.skipList.elements.length
      have hneg : i32 s.skipList.elements.length < 0 := by omega
      have hle : 4294967296 ≤ LatencyBuffer.occupancy s.skipList := by
        rw [hocc]
        exact le_toSize_of_neg hneg h1
      rw [outcome, applyOp, popResult_skipList_of_le hle]
    refine iff_of_false (fun heq => ring_flush_ne_diverged h ?_) ?_
    · rw [heq, hskip]
    · rintro ⟨-, hsmall⟩
      rw [length_liveSlots h] at hsmall
      omega

theorem back_eq_iff : outcome s.ring .back = outcome s.skipList .back ↔ Conforms s .back := by
  have houtcome : outcome s.ring .back = outcome s.skipList .back ↔
      s.ring.back.bind s.ring.records = s.skipList.elements.getLast? := by
    have hstored := stored_ring h
    show (BufferResult.pointer (s.ring.back.bind s.ring.records), BufferRead.stored s.ring) =
      (BufferResult.pointer s.skipList.elements.getLast?, s.skipList.elements.map some) ↔ _
    rw [hstored, Prod.mk.injEq, and_iff_left rfl, BufferResult.pointer.injEq]
  rw [houtcome, Conforms, h.isEmpty_iff, BackReadable]
  by_cases hne : s.skipList.elements = []
  · refine iff_of_true ?_ (.inl hne)
    have hrw := h.readIndex_eq_writeIndex_iff.mpr hne
    simp [back, hrw, hne]
  · have hnonempty : s.ring.isEmpty = false :=
      Bool.eq_false_iff.mpr fun hempty => hne (h.isEmpty_iff.mp hempty)
    rw [h.back_records_iff hne, or_iff_right hne, and_iff_right hnonempty]

omit h in
theorem findIdx_getElem?_eq_iff (horder : TimestampConsistent T) {xs : List T}
    (hsorted : StrictlyIncreasing tsNat xs) (element : T) :
    xs[Ordered.lowerBound tsNat xs (tsNat element)]? = xs[xs.findIdx fun x => !lt x element]? ↔
      ∀ y ∈ xs, getTimestamp y = getTimestamp element → lt y element = false := by
  have hbelow : ∀ i (hi : i < Ordered.lowerBound tsNat xs (tsNat element)) (hlen : i < xs.length),
      tsNat xs[i] < tsNat element := fun i hi hlen => lt_of_lt_lowerBound hi hlen
  have hle : Ordered.lowerBound tsNat xs (tsNat element) ≤ xs.length := lowerBound_le_length
  rcases Nat.lt_or_eq_of_le hle with hm | hm
  · have hat := le_key_lowerBound hm
    rw [List.getElem?_eq_getElem hm]
    generalize Ordered.lowerBound tsNat xs (tsNat element) = m at hm hat hbelow
    constructor
    · intro heq y hy hts
      -- the lower bound is the only position of that timestamp
      obtain ⟨k, hk, rfl⟩ := List.getElem_of_mem hy
      have hkey := (timestamp_eq_iff _ _).mp hts
      obtain rfl : k = m := by
        rcases Nat.lt_trichotomy k m with hlt | rfl | hgt
        · have := hbelow k hlt hk
          omega
        · rfl
        · have := hsorted.key_lt hgt hk
          omega
      obtain ⟨hp, hget⟩ := List.getElem?_eq_some_iff.mp heq.symm
      have hnot := List.findIdx_getElem (w := hp)
      rwa [hget, Bool.not_eq_true'] at hnot
    · intro hkeys
      have hnot : lt xs[m] element = false := by
        rcases Nat.lt_or_eq_of_le hat with hlt | heq
        · exact horder.lt_eq_false hlt
        · exact hkeys _ (List.getElem_mem hm) ((timestamp_eq_iff _ _).mpr heq.symm)
      have hfind : xs.findIdx (fun x => !lt x element) = m :=
        (List.findIdx_eq hm).mpr ⟨by rw [hnot, Bool.not_false], fun j hj => by
          rw [horder.lt_eq_true (hbelow j hj _), Bool.not_true]⟩
      rw [hfind, List.getElem?_eq_getElem hm]
  · have hall : ∀ x ∈ xs, tsNat x < tsNat element := fun x hx => by
      obtain ⟨i, hi, rfl⟩ := List.getElem_of_mem hx
      exact lt_of_lt_lowerBound (hm ▸ hi) hi
    have hfind : xs.findIdx (fun x => !lt x element) = xs.length :=
      List.findIdx_eq_length.mpr fun x hx => by rw [horder.lt_eq_true (hall x hx), Bool.not_true]
    rw [hm, hfind]
    refine iff_of_true rfl fun y hy hts => ?_
    have := hall y hy
    rw [(timestamp_eq_iff _ _).mp hts] at this
    omega

theorem searchResult_ring (horder : TimestampConsistent T)
    (hsorted : StrictlyIncreasing tsNat s.skipList.elements) {element : T} {withErrors : Bool}
    (hadm : Admissible s (.lowerBound element withErrors)) :
    searchResult s.ring element withErrors = .iterator
      s.skipList.elements[Ordered.lowerBound tsNat s.skipList.elements (tsNat element)]? := by
  have hiterator : ∀ it, LatencyBuffer.lowerBound s.ring element withErrors = some it →
      searchResult s.ring element withErrors =
        .iterator (if s.ring.good it then s.ring.records it else none) := by
    intro it hit
    rw [searchResult, hit]
    rfl
  by_cases hne : s.skipList.elements = []
  · have hend : LatencyBuffer.lowerBound s.ring element withErrors = some endIndex :=
      if_pos (h.readIndex_eq_writeIndex_iff.mpr hne)
    rw [hiterator _ hend, good_endIndex, if_neg Bool.false_ne_true, hne]
    rfl
  · have hsearch : BinarySearchQueueModel.search s.ring.toIterableQueueModel element = _ :=
      BinarySearchQueueModel.search_eq h horder hsorted hne
    have hfront := hadm (s.skipList.elements.head hne) (by
      rw [h.front_records, List.head?_eq_some_head hne]
      rfl)
    rw [hfront, if_neg Bool.false_ne_true] at hsearch
    rw [hiterator _ hsearch]
    have hle : Ordered.lowerBound tsNat s.skipList.elements (tsNat element) ≤
        s.skipList.elements.length := lowerBound_le_length
    have hat := h.at_slot hle
    by_cases hlt : Ordered.lowerBound tsNat s.skipList.elements (tsNat element) <
        s.skipList.elements.length
    · rw [if_pos ((h.good_iff hat).mpr hlt), h.records_of_at hat hlt, List.getElem?_eq_getElem hlt]
    · rw [if_neg fun hgood => hlt ((h.good_iff hat).mp hgood),
        List.getElem?_eq_none (Nat.not_lt.mp hlt)]

theorem lowerBound_eq_iff (horder : TimestampConsistent T)
    (hsorted : StrictlyIncreasing tsNat s.skipList.elements) {element : T} {withErrors : Bool}
    (hadm : Admissible s (.lowerBound element withErrors)) :
    outcome s.ring (.lowerBound element withErrors) =
        outcome s.skipList (.lowerBound element withErrors) ↔
      Conforms s (.lowerBound element withErrors) := by
  have hskip : searchResult s.skipList element withErrors = .iterator
      s.skipList.elements[s.skipList.elements.findIdx fun x => !lt x element]? := by
    change BufferResult.iterator (if decide _ then _ else none) = _
    congr 1
    split_ifs with hlt
    · rfl
    · rw [decide_eq_true_iff, Nat.not_lt] at hlt
      exact (List.getElem?_eq_none hlt).symm
  have houtcome : outcome s.ring (.lowerBound element withErrors) =
        outcome s.skipList (.lowerBound element withErrors) ↔
      searchResult s.ring element withErrors = searchResult s.skipList element withErrors := by
    rw [outcome, outcome, Prod.mk.injEq]
    exact and_iff_left (stored_ring h)
  rw [houtcome, searchResult_ring h horder hsorted hadm, hskip, BufferResult.iterator.injEq,
    findIdx_getElem?_eq_iff horder hsorted]
  constructor
  · intro hkeys j hj y hy hts
    have hmem : some y ∈ s.ring.liveSlots.map s.ring.records :=
      List.mem_map.mpr ⟨j, hj, Option.mem_def.mp hy⟩
    rw [h.liveSlots_map] at hmem
    obtain ⟨z, hz, heq⟩ := List.mem_map.mp hmem
    cases heq
    exact hkeys _ hz hts
  · intro hkeys y hy hts
    obtain ⟨j, hj, hslot⟩ := h.exists_slot_of_mem hy
    exact hkeys j hj y hslot hts

/-- The outcomes of an operation on buffers of the same content are the same just if it conforms. -/
theorem outcome_eq_iff (horder : TimestampConsistent T)
    (hsorted : StrictlyIncreasing tsNat s.skipList.elements) (op : BufferOp T)
    (hadm : Admissible s op) : outcome s.ring op = outcome s.skipList op ↔ Conforms s op := by
  have hstored := stored_ring h
  cases op with
  | write x =>
    refine iff_of_true ?_ trivial
    have hring :
        outcome s.ring (.write x) = (.success true, (s.skipList.elements ++ [x]).map some) := by
      have hwrite := (write_fst_iff x).mpr hadm.1
      have hrep := h.write_accepted hwrite
      exact Prod.ext (congrArg BufferResult.success hwrite) hrep.liveSlots_map
    have hskip :
        SortedSet.insert lt x s.skipList.elements = (true, s.skipList.elements ++ [x]) := by
      refine SortedSet.insert_of_above fun y hy => horder.lt_eq_true ?_
      obtain ⟨j, hj, hslot⟩ := h.exists_slot_of_mem hy
      exact hadm.2 j hj y hslot
    rw [hring]
    exact Prod.ext (congrArg (fun r => BufferResult.success r.1) hskip).symm
      (congrArg (fun r => r.2.map some) hskip).symm
  | read =>
    obtain ⟨q', hread, hrep⟩ := read_ring h
    have hring : outcome s.ring .read = (.element (decide (s.skipList.elements ≠ []))
        s.skipList.elements.head?, s.skipList.elements.tail.map some) := by
      rw [outcome, applyOp, hread, stored_ring hrep]
    have hskip : outcome s.skipList .read = (.element (!s.skipList.elements.isEmpty)
        s.skipList.elements.head?, s.skipList.elements.map some) := rfl
    rw [hring, hskip, Conforms, h.isEmpty_iff, Prod.mk.injEq, BufferResult.element.injEq,
      (List.map_injective_iff.mpr (Option.some_injective T)).eq_iff]
    cases s.skipList.elements with
    | nil => simp
    | cons x xs => simp
  | pop num =>
    have hnum : num ≤ s.skipList.elements.length := length_liveSlots h ▸ hadm
    exact popResult_eq_iff h hsorted hnum
  | flush => exact flush_eq_iff h
  | occupancy =>
    have hocc : LatencyBuffer.occupancy s.ring = s.ring.occupancy := rfl
    have hocc' : LatencyBuffer.occupancy s.skipList = s.skipList.occupancy := rfl
    rw [Conforms, ← occupancy_eq_iff h, outcome, outcome, applyOp, applyOp, hocc, hocc', hstored,
      Prod.mk.injEq, BufferResult.count.injEq, SkipListLatencyBufferModel.occupancy]
    exact and_iff_left rfl
  | front =>
    refine iff_of_true ?_ trivial
    exact Prod.ext (congrArg BufferResult.pointer h.front_records) hstored
  | back => exact back_eq_iff h
  | lowerBound element withErrors => exact lowerBound_eq_iff h horder hsorted hadm

end Outcomes

/-- The ring is in order, and as long as all outcomes agreed the skip list has its content. -/
def Ordered (s : BufferPair T) : Prop :=
  ∃ xs, Represents s.ring.toIterableQueueModel xs ∧ StrictlyIncreasing tsNat xs ∧
    (Agree s → s.skipList.elements = xs)

theorem Ordered.step (horder : TimestampConsistent T) {s : BufferPair T} (h : Ordered s)
    {op : BufferOp T} (hadm : Admissible s op) {s' : BufferPair T}
    (hstep : step s op = some s') : Ordered s' ∧ (Agree s' ↔ Agree s ∧ Conforms s op) := by
  obtain ⟨xs, hrep, hsorted, hcontent⟩ := h
  obtain ⟨ys, hrep', hsorted'⟩ := ring_step hrep hsorted s rfl op hadm
  obtain rfl := Option.some.inj hstep
  have hagree : Agree ⟨(applyOp s.ring op).2, (applyOp s.skipList op).2,
      s.outcomes ++ [(outcome s.ring op, outcome s.skipList op)]⟩ ↔
      Agree s ∧ outcome s.ring op = outcome s.skipList op := by
    simp only [Agree, List.forall_mem_append, List.forall_mem_singleton]
  refine ⟨⟨ys, hrep', hsorted', fun hnext => ?_⟩, hagree.trans (and_congr_right fun hbefore => ?_)⟩
  · have houtcome := congrArg Prod.snd (hagree.mp hnext).2
    have hring : BufferRead.stored (applyOp s.ring op).2 = ys.map some := stored_ring hrep'
    have hmap : (applyOp s.skipList op).2.elements.map some = ys.map some :=
      houtcome.symm.trans hring
    exact List.map_injective_iff.mpr (Option.some_injective T) hmap
  · obtain rfl := hcontent hbefore
    exact outcome_eq_iff hrep horder hsorted op hadm

/-- In every run of operations on a new ring and a new skip list, both return the same results
and store the same elements just if every operation conforms. -/
theorem run_agree_iff (horder : TimestampConsistent T) (size : ℕ) (h2 : 2 ≤ size)
    (hsize : size < 4294967296) (ops : List (BufferOp T)) (s : BufferPair T)
    (hadm : Execution.StepsMeet step Admissible (init size) ops)
    (hrun : Execution.run step (init size) ops = some s) :
    Agree s ↔ Execution.StepsMeet step Conforms (init size) ops := by
  have hinit : Ordered (init size : BufferPair T) :=
    ⟨[], represents_fresh h2 hsize, List.Pairwise.nil, fun _ => rfl⟩
  have hiff := Execution.run_iff_stepsMeet_within
    (fun s op s' h hadm hstep => Ordered.step horder h hadm hstep) hinit hadm hrun
  have hempty : Agree (init size : BufferPair T) := fun p hp => absurd hp List.not_mem_nil
  exact hiff.trans (and_iff_right hempty)

section Chunks

instance (s : BufferPair (Chunk 1 10)) : (op : BufferOp (Chunk 1 10)) → Decidable (Admissible s op)
  | .write x => inferInstanceAs (Decidable (s.ring.isFull = false ∧
      ∀ j ∈ s.ring.liveSlots, ∀ y ∈ s.ring.records j, tsNat y < tsNat x))
  | .pop num => inferInstanceAs (Decidable (num ≤ s.ring.liveSlots.length))
  | .lowerBound element _ => inferInstanceAs (Decidable
      (∀ front ∈ s.ring.front.bind s.ring.records, lt element front = false))
  | .read | .flush | .occupancy | .front | .back => isTrue trivial

instance (s : BufferPair (Chunk 1 10)) : (op : BufferOp (Chunk 1 10)) → Decidable (Conforms s op)
  | .read => inferInstanceAs (Decidable (s.ring.isEmpty = true))
  | .pop num => inferInstanceAs (Decidable (num = 0 ∨ num = s.ring.liveSlots.length))
  | .flush => inferInstanceAs (Decidable
      (IndicesComparable s.ring.toIterableQueueModel ∧ s.ring.liveSlots.length < 2147483648))
  | .occupancy => inferInstanceAs (Decidable (IndicesComparable s.ring.toIterableQueueModel))
  | .back => inferInstanceAs (Decidable
      (s.ring.isEmpty = true ∨ BackReadable s.ring.toIterableQueueModel))
  | .lowerBound element _ => inferInstanceAs (Decidable
      (∀ j ∈ s.ring.liveSlots, ∀ y ∈ s.ring.records j,
        getTimestamp y = getTimestamp element → lt y element = false))
  | .write _ | .front => isTrue trivial

def conformingOps : List (BufferOp (Chunk 1 10)) :=
  [.write ⟨10⟩, .write ⟨20⟩, .write ⟨30⟩, .front, .back, .lowerBound ⟨15⟩ true, .occupancy, .pop 3,
    .read, .write ⟨40⟩, .flush]

theorem run_agree_iff_conforming :
    Agree ((Execution.run step (init 4) conformingOps).get (by decide +kernel)) :=
  (run_agree_iff (Chunk.timestampOrder 1 10).consistent 4 (by decide) (by decide) conformingOps _
    (Execution.stepsMeet_of_checkSteps (fun _ _ => of_decide_eq_true)
      (by decide +kernel : Execution.checkSteps step (fun s op => decide (Admissible s op)) (init 4)
        conformingOps = true))
    (Option.some_get _).symm).mpr
      (Execution.stepsMeet_of_checkSteps (fun _ _ => of_decide_eq_true)
        (by decide +kernel : Execution.checkSteps step (fun s op => decide (Conforms s op)) (init 4)
          conformingOps = true))

def popOldestOps : List (BufferOp (Chunk 1 10)) := [.write ⟨10⟩, .write ⟨20⟩, .pop 1, .front]

def popOldestState : BufferPair (Chunk 1 10) :=
  (Execution.run step (init 4) popOldestOps).get (by decide +kernel)

/-- The skip list pops the newest element instead, and shows the oldest as its front. -/
theorem not_agree_of_popOldest :
    ¬ ∀ (ops : List (BufferOp (Chunk 1 10))) s, Execution.StepsMeet step Admissible (init 4) ops →
      Execution.run step (init 4) ops = some s → Agree s := by
  intro h
  have hadm : Execution.StepsMeet step Admissible (init 4) popOldestOps :=
    Execution.stepsMeet_of_checkSteps (fun _ _ => of_decide_eq_true)
      (by decide +kernel : Execution.checkSteps step (fun s op => decide (Admissible s op)) (init 4)
        popOldestOps = true)
  have hagree := h popOldestOps popOldestState hadm (Option.some_get _).symm
  exact absurd hagree (by unfold Agree; decide +kernel)

end Chunks

end BufferPair
end Buffers
end DataHandling
