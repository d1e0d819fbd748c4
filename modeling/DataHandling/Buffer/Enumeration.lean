import DataHandling.Buffer.QueueIterator
import DataHandling.Foundation.Execution
import Mathlib.Data.List.Nodup
import Mathlib.Logic.Function.Iterate

/-! The iterator enumerates the stored elements, also while the producer writes. Every load that
`good()` makes, the construction of a record and the store of the write index are steps of their
own, in any order. Nothing is removed, so the loads of `write` tell what they would tell later. -/

namespace DataHandling
open MachineInt Cyclic IterableQueueModel

/-- Where the producer is in `write`: its record has a slot, or is constructed in it. -/
inductive WritePhase (T : Type) where
  | idle
  | claimed (record : T)
  | constructed (record : T)

/-- Where the reader is in `operator++`: in front of it, or in its first or second `good()` with
the read index loaded. -/
inductive WalkPhase where
  | ready
  | firstRead (currentRead : ℕ)
  | stepped
  | secondRead (currentRead : ℕ)

/-- The ring, its producer, an iterator, and what was found at the slots the iterator was at. -/
structure WalkSystem (T : Type) where
  queue : IterableQueueModel T
  producer : WritePhase T
  walk : WalkPhase
  index : ℕ
  visited : List (ℕ × Option T)

inductive WalkAction (T : Type) where
  | write (record : T)
  | produce
  | increment
  | iterate

namespace WalkSystem
variable {T : Type}

/-- An iterator at `start`, whose element is looked at unless it is `end()`. -/
def init (q : IterableQueueModel T) (start : ℕ) : WalkSystem T where
  queue := q
  producer := .idle
  walk := .ready
  index := start
  visited := if start = endIndex then [] else [(start, q.records start)]

def goodAt (q : IterableQueueModel T) (currentRead currentWrite index : ℕ) : Bool :=
  good { q with readIndex := currentRead, writeIndex := currentWrite } index

def startWrite (s : WalkSystem T) (record : T) : Option (WalkSystem T) :=
  match s.producer with
  | .idle =>
    if s.queue.nextRecord s.queue.writeIndex ≠ s.queue.readIndex then
      some { s with producer := .claimed record }
    else some { s with queue := s.queue.overflow }
  | _ => none

def stepProducer (s : WalkSystem T) : Option (WalkSystem T) :=
  match s.producer with
  | .idle => none
  | .claimed record => some { s with
      queue := { s.queue with
        records := Function.update s.queue.records s.queue.writeIndex (some record) }
      producer := .constructed record }
  | .constructed _ => some { s with
      queue := { s.queue with writeIndex := s.queue.nextRecord s.queue.writeIndex }
      producer := .idle }

def stepWalk (s : WalkSystem T) : Option (WalkSystem T) :=
  match s.walk with
  | .ready => none
  | .firstRead currentRead => some { s with
      walk := .stepped
      index := if goodAt s.queue currentRead s.queue.writeIndex s.index then
        s.queue.nextRecord s.index else s.index }
  | .stepped => some { s with walk := .secondRead s.queue.readIndex }
  | .secondRead currentRead =>
    if goodAt s.queue currentRead s.queue.writeIndex s.index then some { s with
      walk := .ready
      visited := s.visited ++ [(s.index, s.queue.records s.index)] }
    else some { s with walk := .ready, index := endIndex }

def step (s : WalkSystem T) : WalkAction T → Option (WalkSystem T)
  | .write record => s.startWrite record
  | .produce => s.stepProducer
  | .increment =>
    match s.walk with
    | .ready => some { s with walk := .firstRead s.queue.readIndex }
    | _ => none
  | .iterate => s.stepWalk

end WalkSystem

section Walk
variable {T : Type} {q : IterableQueueModel T} {xs : List T}

theorem getElem?_liveSlots (h : Represents q xs) (k : ℕ) :
    q.liveSlots[k]? = if k < xs.length then some (slot q.size q.readIndex k) else none := by
  rw [liveSlots, h.distance_eq, List.getElem?_map]
  split_ifs with hk
  · rw [List.getElem?_range hk, Option.map_some]
  · rw [List.getElem?_eq_none (by rw [List.length_range]; omega), Option.map_none]

theorem good_iff_mem_liveSlots (h : Represents q xs) {index : ℕ} (hi : index < q.size) :
    q.good index = true ↔ index ∈ q.liveSlots := by
  rw [List.mem_iff_getElem?]
  constructor
  · intro hgood
    obtain ⟨k, hk, hslot⟩ := h.exists_of_good hi hgood
    exact ⟨k, by rw [getElem?_liveSlots h, if_pos hk, hslot]⟩
  · rintro ⟨k, hk⟩
    rw [getElem?_liveSlots h] at hk
    split_ifs at hk with hlt
    rw [← Option.some.inj hk]
    exact h.good_slot hlt

/-- The iterator at position `k` of the content, which is `end()` past the newest element. -/
def iteratorAt (q : IterableQueueModel T) (k : ℕ) : ℕ := (q.liveSlots[k]?).getD endIndex

theorem next_iteratorAt (h : Represents q xs) (k : ℕ) :
    q.next (iteratorAt q k) = iteratorAt q (k + 1) := by
  simp only [iteratorAt, getElem?_liveSlots h]
  by_cases hk : k < xs.length
  · rw [if_pos hk, Option.getD_some, h.next_slot hk]
    split_ifs <;> rfl
  · rw [if_neg hk, if_neg (by omega)]
    exact next_endIndex

theorem iterate_next (h : Represents q xs) (k n : ℕ) :
    q.next^[n] (iteratorAt q k) = iteratorAt q (k + n) := by
  induction n with
  | zero => rfl
  | succ n ih => rw [Function.iterate_succ_apply', ih, next_iteratorAt h, Nat.add_assoc]

theorem begin_eq_iteratorAt (h : Represents q xs) : q.begin = iteratorAt q 0 := by
  rw [iteratorAt, getElem?_liveSlots h, begin]
  by_cases hxs : xs = []
  · rw [if_pos (h.readIndex_eq_writeIndex_iff.mpr hxs), hxs]
    rfl
  · rw [if_neg (mt h.readIndex_eq_writeIndex_iff.mp hxs), if_pos (List.length_pos_iff.mpr hxs),
      Option.getD_some, slot_zero h.read_lt]

theorem liveSlots_nodup (h : Represents q xs) : q.liveSlots.Nodup := by
  rw [liveSlots, h.distance_eq]
  refine List.Nodup.map_on ?_ List.nodup_range
  intro i hi j hj heq
  have hlen := h.length_lt
  rw [List.mem_range] at hi hj
  exact slot_inj h.read_lt (Nat.lt_trans hi hlen) (Nat.lt_trans hj hlen) heq

/-- The slots and elements of `n` positions of the content from the `k`-th on. -/
def liveStretch (q : IterableQueueModel T) (k n : ℕ) : List (ℕ × Option T) :=
  ((q.liveSlots.drop k).take n).map fun j => (j, q.records j)

theorem liveStretch_eq (h : Represents q xs) {k n : ℕ} (hle : k + n ≤ xs.length) :
    liveStretch q k n =
      (List.range n).map fun i => (slot q.size q.readIndex (k + i), xs[k + i]?) := by
  refine List.ext_getElem? fun i => ?_
  rw [liveStretch, List.getElem?_map, List.getElem?_take, List.getElem?_map, List.getElem?_drop,
    getElem?_liveSlots h]
  by_cases hi : i < n
  · rw [if_pos hi, if_pos (by omega), List.getElem?_range hi, Option.map_some, Option.map_some,
      h.stored (k + i) (by omega), List.getElem?_eq_getElem (by omega)]
  · rw [if_neg hi, List.getElem?_eq_none (by rw [List.length_range]; omega)]
    rfl

theorem liveStretch_nodup (h : Represents q xs) (k n : ℕ) :
    ((liveStretch q k n).map Prod.fst).Nodup := by
  have hmap : (liveStretch q k n).map Prod.fst = (q.liveSlots.drop k).take n := by
    rw [liveStretch, List.map_map]
    exact List.map_id _
  rw [hmap]
  exact (liveSlots_nodup h).sublist ((List.take_sublist _ _).trans (List.drop_sublist _ _))

end Walk

def WritePhase.pending {T : Type} :
    WritePhase T → IterableQueueModel T → IterableQueueModel T
  | .constructed record, q =>
    { q with records := Function.update q.records q.writeIndex (some record) }
  | _, q => q

/-- The iterator is at the last of `n` positions from the `k`-th on, or collapsed. -/
def AtLast (size readIndex k n index : ℕ) : Prop :=
  index = endIndex ∨ ∃ m, n = m + 1 ∧ index = slot size readIndex (k + m)

/-- The iterator is behind the last of `n` positions from the `k`-th on, or collapsed. -/
def AtNext (size readIndex k n index : ℕ) : Prop :=
  index = endIndex ∨ index = slot size readIndex (k + n)

def WalkOk (size readIndex k n index : ℕ) : WalkPhase → Prop
  | .ready => AtLast size readIndex k n index
  | .firstRead currentRead => currentRead = readIndex ∧ AtLast size readIndex k n index
  | .stepped => AtNext size readIndex k n index
  | .secondRead currentRead => currentRead = readIndex ∧ AtNext size readIndex k n index

namespace WalkSystem
variable {T : Type}

section Pending
variable (p : WritePhase T) (q : IterableQueueModel T)

@[simp] theorem pending_size : (p.pending q).size = q.size := by cases p <;> rfl
@[simp] theorem pending_readIndex : (p.pending q).readIndex = q.readIndex := by cases p <;> rfl
@[simp] theorem pending_writeIndex : (p.pending q).writeIndex = q.writeIndex := by cases p <;> rfl

theorem pending_records {j : ℕ} (h : j ≠ q.writeIndex) :
    (p.pending q).records j = q.records j := by
  cases p <;> first | rfl | exact Function.update_of_ne h _ _

theorem pending_liveSlots : (p.pending q).liveSlots = q.liveSlots := by cases p <;> rfl

end Pending

/-- The walk from position `k` of the content `xs₀` of `q`: `ring` is the queue without a record
in construction and holds `xs`. -/
structure Walks (q : IterableQueueModel T) (xs₀ : List T) (k : ℕ) (s : WalkSystem T)
    (ring : IterableQueueModel T) (xs : List T) : Prop where
  represents : Represents ring xs
  size_eq : ring.size = q.size
  readIndex_eq : ring.readIndex = q.readIndex
  queue_eq : s.queue = s.producer.pending ring
  room : s.producer ≠ .idle → xs.length + 1 < ring.size
  kept : xs₀ <+: xs
  reached_le : k + s.visited.length ≤ xs.length
  visited_eq : s.visited = liveStretch ring k s.visited.length
  walk : WalkOk ring.size ring.readIndex k s.visited.length s.index s.walk
  ended : s.index = endIndex → xs₀.length ≤ k + s.visited.length

section Walks
variable {s s' : WalkSystem T} {q ring : IterableQueueModel T} {xs₀ xs : List T} {k : ℕ}
  (h : Walks q xs₀ k s ring xs)
include h

theorem Walks.goodAt_eq (index : ℕ) :
    goodAt s.queue ring.readIndex s.queue.writeIndex index = ring.good index := by
  rw [h.queue_eq, pending_writeIndex]
  rfl

theorem Walks.startWrite {record : T} (hs : s.startWrite record = some s') :
    ∃ ring', Walks q xs₀ k s' ring' xs := by
  have hqueue := h.queue_eq
  unfold WalkSystem.startWrite at hs
  cases hp : s.producer with
  | idle =>
    rw [hp] at hqueue
    simp only [hp] at hs
    split_ifs at hs with hroom
    · obtain rfl := Option.some.inj hs
      refine ⟨ring, { h with queue_eq := hqueue, room := fun _ => ?_ }⟩
      rw [hqueue] at hroom
      exact h.represents.nextRecord_ne_iff.mp hroom
    · obtain rfl := Option.some.inj hs
      refine ⟨ring.overflow, { h with
        represents := h.represents.overflow
        queue_eq := ?_
        room := fun hne => absurd rfl hne }⟩
      rw [hqueue]
      rfl
  | claimed _ => simp only [hp, reduceCtorEq] at hs
  | constructed _ => simp only [hp, reduceCtorEq] at hs

theorem Walks.publish {record : T} (hp : s.producer = .constructed record) :
    Walks q xs₀ k { s with
      queue := { s.queue with writeIndex := s.queue.nextRecord s.queue.writeIndex }
      producer := .idle } (ring.placeBack record) (xs ++ [record]) := by
  have hqueue := h.queue_eq
  have hroom := h.room (by rw [hp]; exact nofun)
  have hrep := h.represents.placeBack record hroom
  have hle := h.reached_le
  have hlen : (xs ++ [record]).length = xs.length + 1 := List.length_append
  rw [hp] at hqueue
  refine { h with
    represents := hrep
    queue_eq := ?_
    room := fun hne => absurd rfl hne
    kept := h.kept.trans (List.prefix_append _ _)
    reached_le := hlen ▸ Nat.le_succ_of_le hle
    visited_eq := ?_ }
  · rw [hqueue]
    rfl
  · refine h.visited_eq.trans ?_
    rw [liveStretch_eq h.represents hle, liveStretch_eq hrep (hlen ▸ Nat.le_succ_of_le hle)]
    refine List.map_congr_left fun i hi => ?_
    rw [List.mem_range] at hi
    rw [List.getElem?_append_left (by omega)]
    rfl

theorem Walks.stepProducer (hs : s.stepProducer = some s') :
    ∃ ring' xs', Walks q xs₀ k s' ring' xs' := by
  have hqueue := h.queue_eq
  unfold WalkSystem.stepProducer at hs
  cases hp : s.producer with
  | idle => simp only [hp, reduceCtorEq] at hs
  | claimed record =>
    rw [hp] at hqueue
    simp only [hp] at hs
    obtain rfl := Option.some.inj hs
    refine ⟨ring, xs, { h with
      queue_eq := ?_
      room := fun _ => h.room (by rw [hp]; exact nofun) }⟩
    rw [hqueue]
    rfl
  | constructed record =>
    simp only [hp] at hs
    obtain rfl := Option.some.inj hs
    exact ⟨_, _, h.publish hp⟩

theorem Walks.slot_ne_endIndex {p : ℕ} (hp : p ≤ xs.length) :
    slot ring.size ring.readIndex p ≠ endIndex := by
  have hlt := slot_lt h.represents.read_lt (Nat.lt_of_le_of_lt hp h.represents.length_lt)
  have hsize := h.represents.size_lt
  unfold endIndex u32Max
  omega

theorem Walks.advance (hw : s.walk = .firstRead ring.readIndex) :
    Walks q xs₀ k { s with
      walk := .stepped
      index := if goodAt s.queue ring.readIndex s.queue.writeIndex s.index then
        s.queue.nextRecord s.index else s.index } ring xs := by
  have hok := h.walk
  have hle := h.reached_le
  rw [hw] at hok
  have hnext : s.queue.nextRecord s.index = ring.nextRecord s.index := by
    rw [nextRecord, h.queue_eq, pending_size]
    rfl
  rw [h.goodAt_eq, hnext]
  obtain ⟨-, hend | ⟨m, hm, hslot⟩⟩ := hok
  · rw [hend, good_endIndex]
    exact { h with walk := .inl rfl, ended := fun _ => h.ended hend }
  · rw [hslot, h.represents.good_slot (by omega), if_pos rfl, h.represents.nextRecord_slot
      (Nat.lt_trans (by omega) h.represents.length_lt), Nat.add_assoc, ← hm]
    exact { h with
      walk := .inr rfl
      ended := fun hend => absurd hend (h.slot_ne_endIndex hle) }

theorem Walks.look (hw : s.walk = .secondRead ring.readIndex)
    (hs : s.stepWalk = some s') : Walks q xs₀ k s' ring xs := by
  have hok := h.walk
  have hle := h.reached_le
  rw [hw] at hok
  simp only [stepWalk, hw, h.goodAt_eq] at hs
  obtain ⟨-, hend | hslot⟩ := hok
  · rw [hend, good_endIndex, if_neg Bool.false_ne_true] at hs
    obtain rfl := Option.some.inj hs
    exact { h with walk := .inl rfl, ended := fun _ => h.ended hend }
  · have hgood := h.represents.good_iff (h.represents.at_slot hle)
    rw [← hslot] at hgood
    split_ifs at hs with hg
    · obtain rfl := Option.some.inj hs
      have hlt := hgood.mp hg
      have hlive : s.index ≠ ring.writeIndex := by
        intro heq
        rw [heq, h.represents.good_writeIndex] at hg
        cases hg
      have hlen : (s.visited ++ [(s.index, s.queue.records s.index)]).length =
          s.visited.length + 1 := List.length_append
      refine { h with
        reached_le := by simp only [hlen]; omega
        visited_eq := ?_
        walk := .inr ⟨s.visited.length, hlen, hslot⟩
        ended := fun hend => absurd (hslot ▸ hend) (h.slot_ne_endIndex hle) }
      change s.visited ++ _ = liveStretch ring k (List.length _)
      rw [hlen, liveStretch_eq h.represents (by omega), List.range_succ, List.map_append,
        ← liveStretch_eq h.represents hle, ← h.visited_eq, h.queue_eq, pending_records _ _ hlive,
        List.map_singleton, List.getElem?_eq_getElem hlt, ← h.represents.stored _ hlt, ← hslot]
    · obtain rfl := Option.some.inj hs
      have hall := mt hgood.mpr hg
      exact { h with
        walk := .inl rfl
        ended := fun _ => Nat.le_trans h.kept.length_le (Nat.not_lt.mp hall) }

theorem Walks.step {a : WalkAction T} (hs : step s a = some s') :
    ∃ ring' xs', Walks q xs₀ k s' ring' xs' := by
  have hok := h.walk
  have hread : s.queue.readIndex = ring.readIndex := by rw [h.queue_eq, pending_readIndex]
  cases a with
  | write record => exact (h.startWrite hs).imp fun _ hw => ⟨xs, hw⟩
  | produce => exact h.stepProducer hs
  | increment =>
    simp only [WalkSystem.step] at hs
    split at hs
    · next hw =>
      rw [hw] at hok
      obtain rfl := Option.some.inj hs
      exact ⟨ring, xs, { h with walk := ⟨hread, hok⟩ }⟩
    · cases hs
  | iterate =>
    simp only [WalkSystem.step] at hs
    cases hw : s.walk with
    | ready => simp only [stepWalk, hw, reduceCtorEq] at hs
    | firstRead currentRead =>
      rw [hw] at hok
      obtain ⟨rfl, -⟩ := hok
      simp only [stepWalk, hw] at hs
      obtain rfl := Option.some.inj hs
      exact ⟨ring, xs, h.advance hw⟩
    | stepped =>
      rw [hw] at hok
      simp only [stepWalk, hw] at hs
      obtain rfl := Option.some.inj hs
      exact ⟨ring, xs, { h with walk := ⟨hread, hok⟩ }⟩
    | secondRead currentRead =>
      rw [hw] at hok
      obtain ⟨rfl, -⟩ := hok
      exact ⟨ring, xs, h.look hw hs⟩

end Walks

/-- What a walk from position `k` has gone through when the system is in state `s`. -/
structure Visits (q : IterableQueueModel T) (k : ℕ) (s : WalkSystem T) : Prop where
  contiguous : s.visited = liveStretch s.queue k s.visited.length
  constructed : ∀ v ∈ s.visited, v.2.isSome
  slots_nodup : (s.visited.map Prod.fst).Nodup
  current : s.walk = .ready → s.index ≠ endIndex →
    (s.visited.map Prod.fst).getLast? = some s.index
  complete : s.index = endIndex → liveStretch q k (q.liveSlots.length - k) <+: s.visited
  kept : q.liveSlots.map q.records <+: s.queue.liveSlots.map s.queue.records

section Visits
variable {q ring : IterableQueueModel T} {s : WalkSystem T} {xs₀ xs : List T} {k : ℕ}

theorem Walks.records_of_mem (h : Walks q xs₀ k s ring xs) {j : ℕ} (hj : j ∈ ring.liveSlots) :
    s.queue.records j = ring.records j := by
  rw [h.queue_eq, pending_records]
  rintro rfl
  have hsome := (h.represents.mem_liveSlots_iff _).mp hj
  rw [h.represents.records_writeIndex] at hsome
  cases hsome

theorem Walks.liveSlots_eq (h : Walks q xs₀ k s ring xs) : s.queue.liveSlots = ring.liveSlots := by
  rw [h.queue_eq, pending_liveSlots]

theorem Walks.visits (h₀ : Represents q xs₀) (hk : k ≤ xs₀.length)
    (h : Walks q xs₀ k s ring xs) : Visits q k s := by
  have hle := h.reached_le
  have hkept := h.kept.length_le
  have hlen : q.liveSlots.length = xs₀.length := h₀.liveSlots_length
  have hvisited := h.visited_eq
  rw [liveStretch_eq h.represents hle] at hvisited
  refine {
    contiguous := ?_
    constructed := ?_
    slots_nodup := ?_
    current := ?_
    complete := ?_
    kept := ?_ }
  · refine h.visited_eq.trans ?_
    rw [liveStretch, liveStretch, h.liveSlots_eq]
    refine List.map_congr_left fun j hj => ?_
    rw [h.records_of_mem (List.mem_of_mem_drop (List.mem_of_mem_take hj))]
  · intro v hv
    rw [hvisited] at hv
    obtain ⟨i, hi, rfl⟩ := List.mem_map.mp hv
    rw [List.mem_range] at hi
    rw [List.getElem?_eq_getElem (by omega)]
    rfl
  · rw [h.visited_eq]
    exact liveStretch_nodup h.represents _ _
  · intro hw hindex
    have hok := h.walk
    rw [hw] at hok
    obtain ⟨m, hm, hslot⟩ := hok.resolve_left hindex
    rw [hvisited, hm, List.range_succ, List.map_append, List.map_append, List.map_singleton,
      List.map_singleton, List.getLast?_concat, hslot]
  · -- a collapsed iterator has seen at least the elements that were stored at the start
    intro hend
    have hall := h.ended hend
    obtain ⟨d, hd⟩ := Nat.exists_eq_add_of_le (show xs₀.length - k ≤ s.visited.length by omega)
    rw [hvisited, hlen, liveStretch_eq h₀ (by omega), hd, List.range_add, List.map_append,
      h.size_eq,
      h.readIndex_eq]
    refine ⟨_, congrArg₂ _ (List.map_congr_left fun i hi => ?_) rfl⟩
    obtain ⟨rest, hrest⟩ := h.kept
    rw [List.mem_range] at hi
    rw [← hrest, List.getElem?_append_left (by omega)]
  · have hcontent : s.queue.liveSlots.map s.queue.records = xs.map some := by
      rw [h.liveSlots_eq, ← h.represents.liveSlots_map]
      exact List.map_congr_left fun j hj => h.records_of_mem hj
    rw [hcontent, h₀.liveSlots_map]
    exact h.kept.map some

theorem walks_init (h : Represents q xs) (hk : k ≤ xs.length) :
    Walks q xs k (init q (iteratorAt q k)) q xs := by
  have hend : (init q endIndex).visited = [] := by
    rw [init, if_pos rfl]
  by_cases hlt : k < xs.length
  · have hstart : iteratorAt q k = slot q.size q.readIndex k := by
      rw [iteratorAt, getElem?_liveSlots h, if_pos hlt, Option.getD_some]
    have hne : slot q.size q.readIndex k ≠ endIndex := by
      have hslot := slot_lt h.read_lt (Nat.lt_trans hlt h.length_lt)
      have hsize := h.size_lt
      unfold endIndex u32Max
      omega
    have hvisited : (init q (iteratorAt q k)).visited =
        [(slot q.size q.readIndex k, q.records (slot q.size q.readIndex k))] := by
      rw [hstart]
      exact if_neg hne
    refine ⟨h, rfl, rfl, rfl, fun hidle => absurd rfl hidle, List.prefix_rfl, ?_, ?_, ?_, ?_⟩
    · rw [hvisited]
      exact hlt
    · rw [hvisited, List.length_singleton, liveStretch_eq h (Nat.succ_le_of_lt hlt), h.stored k hlt]
      simp [List.getElem?_eq_getElem hlt]
    · rw [hvisited, hstart]
      exact .inr ⟨0, rfl, rfl⟩
    · intro hcollapsed
      exact absurd (hstart.symm.trans hcollapsed) hne
  · have hstart : iteratorAt q k = endIndex := by
      rw [iteratorAt, getElem?_liveSlots h, if_neg hlt, Option.getD_none]
    rw [hstart]
    refine ⟨h, rfl, rfl, rfl, fun hidle => absurd rfl hidle, List.prefix_rfl, ?_, ?_, ?_, ?_⟩
    · rw [hend]
      exact hk
    · rw [hend]
      rfl
    · exact .inl rfl
    · intro _
      rw [hend]
      exact Nat.not_lt.mp hlt

end Visits

/-- The iterator enumerates a ring that holds `xs`: from a position on, alone or while the
producer writes. -/
structure Enumerates (q : IterableQueueModel T) (xs : List T) : Prop where
  content : q.liveSlots.map q.records = xs.map some
  slots_nodup : q.liveSlots.Nodup
  good_iff : ∀ index < q.size, q.good index = true ↔ index ∈ q.liveSlots
  begin_eq : q.begin = iteratorAt q 0
  position : ∀ start < q.size, q.good start = true → ∃ k < xs.length, start = iteratorAt q k
  iterate : ∀ k n, q.next^[n] (iteratorAt q k) = iteratorAt q (k + n)
  interleaved : ∀ k ≤ xs.length, ∀ actions s,
    Execution.run step (init q (iteratorAt q k)) actions = some s → Visits q k s

/-- Every ring, of any size and with its content at any place, is enumerated. -/
theorem enumerates {q : IterableQueueModel T} {xs : List T} (h : Represents q xs) :
    Enumerates q xs where
  content := h.liveSlots_map
  slots_nodup := liveSlots_nodup h
  good_iff := fun _ hi => good_iff_mem_liveSlots h hi
  begin_eq := begin_eq_iteratorAt h
  position := by
    intro start hi hgood
    obtain ⟨k, hk, hslot⟩ := h.exists_of_good hi hgood
    exact ⟨k, hk, by rw [iteratorAt, getElem?_liveSlots h, if_pos hk, Option.getD_some, hslot]⟩
  iterate := iterate_next h
  interleaved := by
    intro k hk actions s hrun
    have hwalks : ∃ ring ys, Walks q xs k s ring ys :=
      Execution.run_invariant (I := fun s => ∃ ring ys, Walks q xs k s ring ys)
        (fun _ _ _ ⟨_, _, hw⟩ hs => hw.step hs) ⟨q, xs, walks_init h hk⟩ hrun
    obtain ⟨ring, ys, hw⟩ := hwalks
    exact hw.visits h hk

/-- A ring of four slots whose three elements go over its end. -/
theorem enumerates_wrapped :
    Enumerates (positioned 4 2 3 fun i => i) ((List.range 3).map fun i => i) :=
  enumerates (represents_positioned _ (by decide) (by decide) (by decide) (by decide))

end WalkSystem
end DataHandling
