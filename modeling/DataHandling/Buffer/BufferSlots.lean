import DataHandling.Buffer.RingBuffers
import DataHandling.Buffer.SkipList

/-! The slots of the latency buffers, which pointers and iterators designate: the records of a
ring, and the nodes of a skip list. -/

namespace DataHandling
open ReadoutType IterableQueueModel

/-- A latency buffer whose elements stand in slots. `content` is the element constructed in a
slot, `writeSlot` the slot of an accepted write and `popSlot` the one that a pop empties;
`backSlot` is where `back()` points, none if it is null, and `iterSlot` where an iterator does. -/
class BufferSlots (LB : Type) (T Slot : outParam Type) [DecidableEq Slot] [LatencyBuffer LB T] where
  WellFormed : LB → Prop
  content : LB → Slot → Option T
  writeSlot : LB → T → Slot
  popSlot : LB → Slot
  backSlot : LB → Option Slot
  iterSlot : LB → ℕ → Slot
  nextSlot : LB → Slot → Slot
  wellFormed_write : ∀ {lb} x, WellFormed lb → WellFormed (LatencyBuffer.write lb x).2
  wellFormed_pop : ∀ {lb lb'}, WellFormed lb → LatencyBuffer.pop 1 lb = some lb' → WellFormed lb'
  content_writeSlot : ∀ {lb x}, WellFormed lb → (LatencyBuffer.write lb x).1 = true →
    content lb (writeSlot lb x) = none
  content_accepted : ∀ {lb x}, (LatencyBuffer.write lb x).1 = true →
    content (LatencyBuffer.write lb x).2 = Function.update (content lb) (writeSlot lb x) (some x)
  content_rejected : ∀ {lb x}, (LatencyBuffer.write lb x).1 = false →
    content (LatencyBuffer.write lb x).2 = content lb
  content_pop : ∀ {lb lb'}, LatencyBuffer.pop 1 lb = some lb' →
    content lb' = Function.update (content lb) (popSlot lb) none

section Rings
variable {LB T : Type} [LatencyBuffer LB T] [RingBuffer LB T] {lb lb' : LB}

theorem RingBuffer.dropFront_of_pop (hpop : LatencyBuffer.pop 1 lb = some lb') :
    RingBuffer.queue lb' = (RingBuffer.queue lb).dropFront := by
  have hqueue := RingBuffer.pop_eq lb 1
  rw [hpop, Option.map_some] at hqueue
  obtain ⟨q, hq, hrest⟩ := Option.bind_eq_some_iff.mp hqueue.symm
  unfold popFront at hq
  split_ifs at hq
  rw [← Option.some.inj hrest, ← Option.some.inj hq]

/-- A slot of a ring is the index of its record, and an iterator is an index. -/
instance : BufferSlots LB T ℕ where
  WellFormed lb := ∃ xs, Represents (RingBuffer.queue lb) xs
  content lb := (RingBuffer.queue lb).records
  writeSlot lb _ := (RingBuffer.queue lb).writeIndex
  popSlot lb := (RingBuffer.queue lb).readIndex
  backSlot lb := (RingBuffer.queue lb).back
  iterSlot _ it := it
  nextSlot lb := LatencyBuffer.next lb
  wellFormed_write {lb} x := by
    rintro ⟨xs, h⟩
    rw [RingBuffer.write_snd]
    exact h.exists_write x
  wellFormed_pop {lb lb'} := by
    rintro ⟨xs, h⟩ hpop
    have hqueue := RingBuffer.pop_eq lb 1
    rw [hpop, Option.map_some] at hqueue
    obtain ⟨_, ys, -, hrest⟩ := h.pop_one hqueue.symm
    exact ⟨ys, hrest⟩
  content_writeSlot := by
    rintro lb x ⟨xs, h⟩ -
    exact h.records_writeIndex
  content_accepted {lb x} hwrite := by
    rw [RingBuffer.write_fst] at hwrite
    rw [RingBuffer.write_snd]
    unfold IterableQueueModel.write at hwrite ⊢
    split_ifs at hwrite ⊢
    exact placeBack_records _ x
  content_rejected {lb x} hwrite := by
    rw [RingBuffer.write_fst] at hwrite
    rw [RingBuffer.write_snd]
    unfold IterableQueueModel.write at hwrite ⊢
    split_ifs at hwrite ⊢
    rfl
  content_pop hpop := by
    rw [RingBuffer.dropFront_of_pop hpop]
    exact dropFront_records _

end Rings

namespace SkipListLatencyBufferModel
variable {T : Type} [ReadoutType T]

theorem nodup (s : SkipListLatencyBufferModel T) : s.elements.Nodup := by
  refine s.sorted.imp fun {x y} hxy heq => ?_
  rw [heq, (strictWeakOrder_lt T).irrefl] at hxy
  cases hxy

theorem not_mem_of_accepted (s : SkipListLatencyBufferModel T) {x : T}
    (hwrite : (s.write x).1 = true) : x ∉ s.elements := by
  intro hmem
  rcases (SortedSet.insert_fst_iff (strictWeakOrder_lt T) s.sorted).mp hwrite x hmem with h | h
  · rw [(strictWeakOrder_lt T).irrefl] at h
    cases h
  · rw [(strictWeakOrder_lt T).irrefl] at h
    cases h

theorem mem_elements_popBack (s : SkipListLatencyBufferModel T) (x : T) :
    x ∈ s.popBack.elements ↔ x ∈ s.elements ∧ some x ≠ s.elements.getLast? := by
  have hnodup := s.nodup
  change x ∈ s.elements.dropLast ↔ _
  rcases List.eq_nil_or_concat s.elements with hnil | ⟨ys, z, hconcat⟩
  · simp [hnil]
  · rw [hconcat, List.concat_eq_append] at hnodup ⊢
    rw [List.dropLast_concat, List.getLast?_concat]
    have hz : z ∉ ys := fun hmem =>
      (List.nodup_append.mp hnodup).2.2 z hmem z (List.mem_singleton_self z) rfl
    constructor
    · intro hx
      refine ⟨List.mem_append_left _ hx, fun heq => ?_⟩
      exact hz (Option.some.inj heq ▸ hx)
    · rintro ⟨hx, hne⟩
      rcases List.mem_append.mp hx with hmem | hmem
      · exact hmem
      · exact absurd (congrArg some (List.mem_singleton.mp hmem)) hne

variable [DecidableEq T]

/-- What a node holds, if it is in the list; there is no node at the end. -/
def node (s : SkipListLatencyBufferModel T) : Option T → Option T
  | none => none
  | some x => if x ∈ s.elements then some x else none

instance : BufferSlots (SkipListLatencyBufferModel T) T (Option T) where
  WellFormed _ := True
  content := node
  writeSlot _ x := some x
  popSlot s := s.elements.getLast?
  backSlot s := s.elements.getLast?.map some
  iterSlot s it := s.elements[it]?
  nextSlot s slot := slot.bind fun x => s.elements.find? fun y => lt x y
  wellFormed_write _ _ := trivial
  wellFormed_pop _ _ := trivial
  content_writeSlot {s x} _ hwrite := if_neg (s.not_mem_of_accepted hwrite)
  content_accepted {s x} hwrite := by
    change (s.write x).1 = true at hwrite
    change node (s.write x).2 = _
    funext slot
    cases slot with
    | none =>
      have hne : none ≠ some x := (Option.some_ne_none x).symm
      rw [Function.update_of_ne hne]
      rfl
    | some y =>
      simp only [node, mem_elements_write, hwrite, true_and]
      by_cases hyx : y = x
      · rw [hyx, Function.update_self, if_pos (.inr rfl)]
      · rw [Function.update_of_ne fun h => hyx (Option.some.inj h), node]
        simp only [hyx, or_false]
  content_rejected {s x} hwrite := by
    change (s.write x).1 = false at hwrite
    change node (s.write x).2 = _
    funext slot
    cases slot with
    | none => rfl
    | some y => simp [node, mem_elements_write, hwrite]
  content_pop {s s'} hpop := by
    obtain rfl := Option.some.inj hpop
    change node s.popBack = _
    funext slot
    cases slot with
    | none =>
      rw [Function.update_apply, node]
      split_ifs <;> rfl
    | some y =>
      simp only [node, mem_elements_popBack]
      by_cases hlast : some y = s.elements.getLast?
      · rw [hlast, Function.update_self, if_neg fun h => h.2 rfl]
      · rw [Function.update_of_ne hlast, node]
        simp only [hlast, ne_eq, not_false_eq_true, and_true]

end SkipListLatencyBufferModel
end DataHandling
