import DataHandling.Foundation.Cyclic
import DataHandling.Foundation.MachineInt
import Mathlib.Logic.Function.Basic

/-! The ring `IterableQueueModel`: its slots, its two 32-bit indices, the producer and
consumer operations, and its iterator. A slot holds a constructed element or raw memory. -/

namespace DataHandling
open MachineInt

/-- `size_`, `records_`, `readIndex_`, `writeIndex_` and `overflow_ctr`. -/
structure IterableQueueModel (T : Type) where
  size : ℕ
  records : ℕ → Option T
  readIndex : ℕ
  writeIndex : ℕ
  overflowCtr : Int32

namespace IterableQueueModel
variable {T : Type}

def fresh (T : Type) (size : ℕ) : IterableQueueModel T where
  size := size
  records := fun _ => none
  readIndex := 0
  writeIndex := 0
  overflowCtr := 0

def nextRecord (q : IterableQueueModel T) (current : ℕ) : ℕ :=
  if u32 (current + 1) = q.size then 0 else u32 (current + 1)

/-- An element is constructed in the slot at `writeIndex_` and the index moves on. -/
def placeBack (q : IterableQueueModel T) (record : T) : IterableQueueModel T :=
  { q with
    records := Function.update q.records q.writeIndex (some record)
    writeIndex := q.nextRecord q.writeIndex }

def overflow (q : IterableQueueModel T) : IterableQueueModel T :=
  { q with overflowCtr := q.overflowCtr + 1 }

def write (q : IterableQueueModel T) (record : T) : Bool × IterableQueueModel T :=
  if q.nextRecord q.writeIndex ≠ q.readIndex then (true, q.placeBack record)
  else (false, q.overflow)

def write_ {Args : Type} (construct : Args → T) (q : IterableQueueModel T) (recordArgs : Args) :
    Bool × IterableQueueModel T :=
  if q.nextRecord q.writeIndex ≠ q.readIndex then (true, q.placeBack (construct recordArgs))
  else (false, q.overflow)

def dropFront (q : IterableQueueModel T) : IterableQueueModel T :=
  { q with
    records := Function.update q.records q.readIndex none
    readIndex := q.nextRecord q.readIndex }

def read (q : IterableQueueModel T) : Bool × Option T × IterableQueueModel T :=
  if q.readIndex = q.writeIndex then (false, none, q)
  else (true, q.records q.readIndex, q.dropFront)

def popFront (q : IterableQueueModel T) : Option (IterableQueueModel T) :=
  if q.readIndex ≠ q.writeIndex then some q.dropFront else none

def pop : ℕ → IterableQueueModel T → Option (IterableQueueModel T)
  | 0, q => some q
  | x + 1, q => q.popFront.bind (pop x)

def isEmpty (q : IterableQueueModel T) : Bool := q.readIndex == q.writeIndex

def isFull (q : IterableQueueModel T) : Bool :=
  if q.nextRecord q.writeIndex ≠ q.readIndex then false else true

def occupancy (q : IterableQueueModel T) : ℕ :=
  let ret := i32 (i32 q.writeIndex - i32 q.readIndex)
  if ret < 0 then toSize (i32 (ret + i32 q.size)) else toSize ret

def capacity (q : IterableQueueModel T) : ℕ := u32 (q.size + 4294967295)

def front (q : IterableQueueModel T) : Option ℕ :=
  if q.readIndex = q.writeIndex then none else some q.readIndex

def currentLast (q : IterableQueueModel T) : ℤ :=
  if i32 q.writeIndex = 0 then i32 ((q.size : ℤ) - 1) else i32 (i32 q.writeIndex - 1)

def back (q : IterableQueueModel T) : Option ℕ :=
  if q.writeIndex = q.readIndex then none else some (toSize q.currentLast)

def flush (q : IterableQueueModel T) : Option (IterableQueueModel T) := pop q.occupancy q

def prefillWrites (element : T) : ℕ → IterableQueueModel T → IterableQueueModel T
  | 0, q => q
  | i + 1, q => prefillWrites element i (q.write_ id element).2

/-- `prefill_task` once it is released: default elements into every usable slot, then a flush. -/
def prefillTask (valueInit : T) (q : IterableQueueModel T) : Option (IterableQueueModel T) :=
  (prefillWrites valueInit q.capacity q).flush

def endIndex : ℕ := u32Max

def good (q : IterableQueueModel T) (index : ℕ) : Bool :=
  decide (index ≠ endIndex) &&
    (decide (q.readIndex ≤ index ∧ index < q.writeIndex) ||
      decide (q.readIndex ≤ index ∧ q.writeIndex < q.readIndex) ||
      decide (q.writeIndex < q.readIndex ∧ index < q.readIndex ∧ index < q.writeIndex))

/-- `Iterator::operator++`: a step while the iterator is good, then the collapse to `end()`. -/
def next (q : IterableQueueModel T) (index : ℕ) : ℕ :=
  let stepped := if q.good index then q.nextRecord index else index
  if q.good stepped then stepped else endIndex

def begin (q : IterableQueueModel T) : ℕ :=
  if q.readIndex = q.writeIndex then endIndex else q.readIndex

section Fields
variable (q : IterableQueueModel T) (x : T)

@[simp] theorem placeBack_size : (q.placeBack x).size = q.size := rfl
@[simp] theorem placeBack_readIndex : (q.placeBack x).readIndex = q.readIndex := rfl
@[simp] theorem placeBack_writeIndex :
    (q.placeBack x).writeIndex = q.nextRecord q.writeIndex := rfl
@[simp] theorem placeBack_records :
    (q.placeBack x).records = Function.update q.records q.writeIndex (some x) := rfl
@[simp] theorem dropFront_size : q.dropFront.size = q.size := rfl
@[simp] theorem dropFront_readIndex : q.dropFront.readIndex = q.nextRecord q.readIndex := rfl
@[simp] theorem dropFront_writeIndex : q.dropFront.writeIndex = q.writeIndex := rfl
@[simp] theorem dropFront_records :
    q.dropFront.records = Function.update q.records q.readIndex none := rfl

end Fields

section Size
variable {T : Type} {q q' : IterableQueueModel T}

theorem size_write (q : IterableQueueModel T) (x : T) : (q.write x).2.size = q.size := by
  unfold write
  split_ifs <;> rfl

theorem size_popFront (h : q.popFront = some q') : q'.size = q.size := by
  unfold popFront at h
  split_ifs at h
  rw [← Option.some.inj h, dropFront_size]

theorem size_pop {n : ℕ} (h : pop n q = some q') : q'.size = q.size := by
  induction n generalizing q with
  | zero =>
    cases h
    rfl
  | succ n ih =>
    obtain ⟨q₁, h₁, hrest⟩ := Option.bind_eq_some_iff.mp h
    rw [ih hrest, size_popFront h₁]

theorem size_flush (h : q.flush = some q') : q'.size = q.size := size_pop h

end Size

end IterableQueueModel
end DataHandling
