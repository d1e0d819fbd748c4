import DataHandling.Buffer.LatencyBuffer
import DataHandling.Foundation.SortedSet
import DataHandling.Foundation.MachineInt

/-! `SkipListLatencyBufferModel`: a wrapper around the concurrent skip list, a set sorted by
the element's order. -/

namespace DataHandling
open MachineInt ReadoutType

theorem strictWeakOrder_lt (T : Type) [ReadoutType T] :
    SortedSet.StrictWeakOrder (lt : T → T → Bool) := ⟨lt_asymm, lt_negTrans⟩

structure SkipListLatencyBufferModel (T : Type) [ReadoutType T] where
  elements : List T
  sorted : SortedSet.Sorted lt elements

namespace SkipListLatencyBufferModel
variable {T : Type} [ReadoutType T]

def empty (T : Type) [ReadoutType T] : SkipListLatencyBufferModel T := ⟨[], .nil⟩

def occupancy (s : SkipListLatencyBufferModel T) : ℕ := toSize (i32 s.elements.length)

def write (s : SkipListLatencyBufferModel T) (newElement : T) :
    Bool × SkipListLatencyBufferModel T :=
  ((SortedSet.insert lt newElement s.elements).1,
    ⟨(SortedSet.insert lt newElement s.elements).2, s.sorted.insert (strictWeakOrder_lt T)⟩)

def popBack (s : SkipListLatencyBufferModel T) : SkipListLatencyBufferModel T :=
  ⟨s.elements.dropLast, s.sorted.sublist s.elements.dropLast_sublist⟩

def pop : ℕ → SkipListLatencyBufferModel T → SkipListLatencyBufferModel T
  | 0, s => s
  | num + 1, s => pop num s.popBack

def read (s : SkipListLatencyBufferModel T) : Bool × Option T :=
  (!s.elements.isEmpty, s.elements.head?)

def front (s : SkipListLatencyBufferModel T) : Option T := s.elements.head?

def back (s : SkipListLatencyBufferModel T) : Option T := s.elements.getLast?

/-- The position of the first node that is not less than the element, that of `end()` if
there is none. -/
def lowerBound (s : SkipListLatencyBufferModel T) (element : T) (_withErrors : Bool) : ℕ :=
  s.elements.findIdx fun x => !lt x element

theorem mem_elements_write (s : SkipListLatencyBufferModel T) (x y : T) :
    y ∈ (s.write x).2.elements ↔ y ∈ s.elements ∨ ((s.write x).1 = true ∧ y = x) := by
  show y ∈ (SortedSet.insert lt x s.elements).2 ↔
    y ∈ s.elements ∨ (SortedSet.insert lt x s.elements).1 = true ∧ y = x
  cases hin : (SortedSet.insert lt x s.elements).1 with
  | true => simp [SortedSet.mem_insert hin, or_comm]
  | false => simp [SortedSet.insert_of_rejected hin]

theorem filter_elements_write (s : SkipListLatencyBufferModel T) {x : T} {p : T → Bool}
    (hx : p x = false) : (s.write x).2.elements.filter p = s.elements.filter p :=
  SortedSet.filter_insert hx

instance : LatencyBuffer (SkipListLatencyBufferModel T) T where
  occupancy := occupancy
  write := write
  -- the loop counter has 32 bits: from 2^32 on it never reaches `num`
  pop num s := if num < 4294967296 then some (pop num s) else none
  front := front
  back := back
  lowerBound s element withErrors := some (s.lowerBound element withErrors)
  good s it := decide (it < s.elements.length)
  deref s it := s.elements[it]?
  next _ it := it + 1

instance : BufferView (SkipListLatencyBufferModel T) T where
  Stores s xs := s.elements = xs
  At _ _ it k := it = k
  front_eq := by
    rintro s _ rfl
    rfl
  back_sound := by
    rintro s _ x rfl hx
    exact hx
  good_iff := by
    rintro s _ it _ rfl rfl
    exact decide_eq_true_iff
  deref_at := by
    rintro s _ it _ rfl rfl hk
    exact List.getElem?_eq_getElem hk
  next_at := by
    rintro s _ it _ rfl rfl _
    rfl

theorem elements_pop (num : ℕ) (s : SkipListLatencyBufferModel T) :
    (pop num s).elements = s.elements.take (s.elements.length - num) := by
  induction num generalizing s with
  | zero => rw [pop, Nat.sub_zero, List.take_length]
  | succ num ih =>
    rw [pop, ih, popBack]
    dsimp only
    rw [List.length_dropLast, List.dropLast_eq_take, List.take_take]
    congr 1
    omega

theorem pop_eq_some {num : ℕ} {s s' : SkipListLatencyBufferModel T}
    (h : LatencyBuffer.pop num s = some s') : s' = pop num s := by
  have h' : (if num < 4294967296 then some (pop num s) else none) = some s' := h
  split_ifs at h' with hnum
  exact (Option.some.inj h').symm

theorem le_of_lt_lowerBound (horder : TimestampConsistent T)
    (s : SkipListLatencyBufferModel T) (element : T) (withErrors : Bool) {i : ℕ}
    (hi : i < s.lowerBound element withErrors) (hlen : i < s.elements.length) :
    tsNat s.elements[i] ≤ tsNat element := by
  have hnot := List.not_of_lt_findIdx hi
  rw [Bool.not_eq_false'] at hnot
  exact horder.le_of_lt_eq_false (lt_asymm _ _ hnot)

theorem le_lowerBound (horder : TimestampConsistent T) (s : SkipListLatencyBufferModel T)
    (element : T) (withErrors : Bool) (hlen : s.lowerBound element withErrors < s.elements.length) :
    tsNat element ≤ tsNat s.elements[s.lowerBound element withErrors] := by
  have hnot := List.findIdx_getElem (w := hlen)
  rw [Bool.not_eq_true'] at hnot
  exact horder.le_of_lt_eq_false hnot

section TimestampOrder
variable (horder : TimestampOrder T)
include horder

theorem strictlyIncreasing (s : SkipListLatencyBufferModel T) :
    Ordered.StrictlyIncreasing tsNat s.elements :=
  s.sorted.imp fun {x y} hxy => (horder.lt_eq_true_iff x y).mp hxy

theorem lowerBound_eq (s : SkipListLatencyBufferModel T) (element : T) (withErrors : Bool) :
    s.lowerBound element withErrors =
      Ordered.lowerBound tsNat s.elements (tsNat element) := by
  rw [lowerBound, Ordered.lowerBound]
  congr 1
  funext x
  rw [Bool.eq_iff_iff, Bool.not_eq_true', horder.lt_eq_false_iff, decide_eq_true_iff]

end TimestampOrder
end SkipListLatencyBufferModel
end DataHandling
