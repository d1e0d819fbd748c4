import DataHandling.Buffer.FixedRate
import DataHandling.Buffer.QueueIterator

/-! The two ring buffers as latency buffers. -/

namespace DataHandling
open IterableQueueModel

variable {T : Type} [ReadoutType T]

instance : LatencyBuffer (BinarySearchQueueModel T) T where
  occupancy q := q.occupancy
  write q x := ((q.toIterableQueueModel.write x).1, ⟨(q.toIterableQueueModel.write x).2⟩)
  pop x q := (IterableQueueModel.pop x q.toIterableQueueModel).map BinarySearchQueueModel.mk
  front q := q.front.bind q.records
  back q := q.back.bind q.records
  lowerBound q element withErrors := q.lowerBound element withErrors
  good q := q.good
  deref q := q.records
  next q := q.next

instance : LatencyBuffer (FixedRateQueueModel T) T where
  occupancy q := q.occupancy
  write q x := ((q.toIterableQueueModel.write x).1, ⟨⟨(q.toIterableQueueModel.write x).2⟩⟩)
  pop x q :=
    (IterableQueueModel.pop x q.toIterableQueueModel).map fun q => ⟨⟨q⟩⟩
  front q := q.front.bind q.records
  back q := q.back.bind q.records
  lowerBound q element withErrors := q.lowerBound element withErrors
  good q := q.good
  deref q := q.records
  next q := q.next

/-- A latency buffer that is a ring, up to its search. -/
class RingBuffer (LB : Type) (T : outParam Type) [LatencyBuffer LB T] where
  queue : LB → IterableQueueModel T
  occupancy_eq : ∀ lb, LatencyBuffer.occupancy lb = (queue lb).occupancy
  write_fst : ∀ lb x, (LatencyBuffer.write lb x).1 = ((queue lb).write x).1
  write_snd : ∀ lb x, queue (LatencyBuffer.write lb x).2 = ((queue lb).write x).2
  pop_eq : ∀ lb x, (LatencyBuffer.pop x lb).map queue = IterableQueueModel.pop x (queue lb)
  front_eq : ∀ lb, LatencyBuffer.front lb = (queue lb).front.bind (queue lb).records
  back_eq : ∀ lb, LatencyBuffer.back lb = (queue lb).back.bind (queue lb).records
  good_eq : ∀ lb it, LatencyBuffer.good lb it = (queue lb).good it
  deref_eq : ∀ lb it, LatencyBuffer.deref lb it = (queue lb).records it
  next_eq : ∀ lb it, LatencyBuffer.next lb it = (queue lb).next it

instance : RingBuffer (BinarySearchQueueModel T) T where
  queue q := q.toIterableQueueModel
  occupancy_eq _ := rfl
  write_fst _ _ := rfl
  write_snd _ _ := rfl
  pop_eq _ _ := (Option.map_map _ _ _).trans Option.map_id'
  front_eq _ := rfl
  back_eq _ := rfl
  good_eq _ _ := rfl
  deref_eq _ _ := rfl
  next_eq _ _ := rfl

instance : RingBuffer (FixedRateQueueModel T) T where
  queue q := q.toIterableQueueModel
  occupancy_eq _ := rfl
  write_fst _ _ := rfl
  write_snd _ _ := rfl
  pop_eq _ _ := (Option.map_map _ _ _).trans Option.map_id'
  front_eq _ := rfl
  back_eq _ := rfl
  good_eq _ _ := rfl
  deref_eq _ _ := rfl
  next_eq _ _ := rfl

instance {LB T : Type} [LatencyBuffer LB T] [RingBuffer LB T] : BufferView LB T where
  Stores lb xs := Represents (RingBuffer.queue lb) xs
  At lb xs := At (RingBuffer.queue lb) xs
  front_eq {lb _} h := (RingBuffer.front_eq lb).trans h.front_records
  back_sound {lb _ _} h hx := h.back_sound ((RingBuffer.back_eq lb).symm.trans hx)
  good_iff {lb _ it _} h hat := by rw [RingBuffer.good_eq lb it, h.good_iff hat]
  deref_at {lb _ it _} h hat hk := (RingBuffer.deref_eq lb it).trans (h.records_of_at hat hk)
  next_at {lb _ it _} h hat hk := by
    rw [RingBuffer.next_eq lb it]
    exact h.next_at hat hk

end DataHandling
