import DataHandling.ReadoutType

/-! The interface that request handling, cleanup and post-processing are templated over, and
what a buffer that implements it stores. -/

namespace DataHandling

/-- `LatencyBufferConcept` with the iterator support that its users rely on. An iterator is
the index of its slot or the position of its node. `front` and `back` give the element
behind the returned pointer, none if it is null or points to no element; `lowerBound` has no
result when the search would read raw memory. -/
class LatencyBuffer (LB : Type) (T : outParam Type) where
  occupancy : LB → ℕ
  write : LB → T → Bool × LB
  pop : ℕ → LB → Option LB
  front : LB → Option T
  back : LB → Option T
  lowerBound : LB → T → Bool → Option ℕ
  good : LB → ℕ → Bool
  deref : LB → ℕ → Option T
  next : LB → ℕ → ℕ

/-- A buffer whose iterators walk over a list of stored elements, oldest first. `At` says
that an iterator stands at a position of the list, or past it. -/
class BufferView (LB : Type) (T : outParam Type) [LatencyBuffer LB T] where
  Stores : LB → List T → Prop
  At : LB → List T → ℕ → ℕ → Prop
  front_eq : ∀ {lb xs}, Stores lb xs → LatencyBuffer.front lb = xs.head?
  back_sound : ∀ {lb xs x}, Stores lb xs → LatencyBuffer.back lb = some x →
    xs.getLast? = some x
  good_iff : ∀ {lb xs it k}, Stores lb xs → At lb xs it k →
    (LatencyBuffer.good lb it = true ↔ k < xs.length)
  deref_at : ∀ {lb xs it k}, Stores lb xs → At lb xs it k → (hk : k < xs.length) →
    LatencyBuffer.deref lb it = some xs[k]
  next_at : ∀ {lb xs it k}, Stores lb xs → At lb xs it k → k < xs.length →
    At lb xs (LatencyBuffer.next lb it) (k + 1)

end DataHandling
