import DataHandling.Foundation.BoundedFifo
import DataHandling.Foundation.Execution
import DataHandling.Buffer.QueueContents

/-! The ring refines a bounded first-in first-out queue with one slot less than its size. -/

namespace DataHandling.IterableQueueModel
open Cyclic

variable {T : Type}

inductive QueueOp (T : Type) where
  | write (record : T)
  | write_ (record : T)
  | read
  | popFront
  | pop (x : ℕ)
  | flush
  | prefill

inductive QueueReturn (T : Type) where
  | success (b : Bool)
  | element (b : Bool) (record : Option T)
  | unit

def queueStep (valueInit : T) (s : IterableQueueModel T × List (QueueReturn T)) :
    QueueOp T → Option (IterableQueueModel T × List (QueueReturn T))
  | .write x => some ((s.1.write x).2, s.2 ++ [.success (s.1.write x).1])
  | .write_ x => some ((s.1.write_ id x).2, s.2 ++ [.success (s.1.write_ id x).1])
  | .read => some (s.1.read.2.2, s.2 ++ [.element s.1.read.1 s.1.read.2.1])
  | .popFront => s.1.popFront.map fun q => (q, s.2 ++ [.unit])
  | .pop x => (IterableQueueModel.pop x s.1).map fun q => (q, s.2 ++ [.unit])
  | .flush => s.1.flush.map fun q => (q, s.2 ++ [.unit])
  | .prefill => (prefillTask valueInit s.1).map fun q => (q, s.2 ++ [.unit])

def fifoStep {capacity : ℕ} (s : BoundedFifo T capacity × List (QueueReturn T)) :
    QueueOp T → Option (BoundedFifo T capacity × List (QueueReturn T))
  | .write x => some ((s.1.push x).2, s.2 ++ [.success (s.1.push x).1])
  | .write_ x => some ((s.1.push x).2, s.2 ++ [.success (s.1.push x).1])
  | .read => some (s.1.take.2.2, s.2 ++ [.element s.1.take.1 s.1.take.2.1])
  | .popFront => (s.1.drop 1).map fun f => (f, s.2 ++ [.unit])
  | .pop x => (s.1.drop x).map fun f => (f, s.2 ++ [.unit])
  | .flush => some (.empty, s.2 ++ [.unit])
  | .prefill => some (.empty, s.2 ++ [.unit])

/-- What a ring of `size` slots shows to its users when it stores `xs`. -/
structure ShowsFifo (size : ℕ) (q : IterableQueueModel T) (xs : List T) : Prop where
  size_eq : q.size = size
  readIndex_lt : q.readIndex < size
  writeIndex_lt : q.writeIndex < size
  slots : q.liveSlots.map q.records = xs.map some
  write_success : ∀ x, (q.write x).1 = decide (xs.length < size - 1)
  write_failure : ∀ x, (q.write x).1 = false → (q.write x).2 = q.overflow
  read_oldest : (q.read.1, q.read.2.1) = (decide (xs ≠ []), xs.head?)
  occupancy_eq : q.occupancy = xs.length
  isEmpty_iff : q.isEmpty = true ↔ q.occupancy = 0
  isFull_iff : q.isFull = true ↔ q.occupancy = size - 1
  front_null : q.front = none ↔ xs = []
  front_oldest : q.front.bind q.records = xs.head?
  back_null : q.back = none ↔ xs = []
  back_newest : q.back.bind q.records = xs.getLast?

section Represents
variable {q : IterableQueueModel T} {xs : List T} (h : Represents q xs)
include h

theorem Represents.read_eq : (q.read.1, q.read.2.1) = (decide (xs ≠ []), xs.head?) := by
  have hfront := h.front_records
  have hiff := h.readIndex_eq_writeIndex_iff
  unfold read
  by_cases hrw : q.readIndex = q.writeIndex
  · simp [if_pos hrw, hiff.mp hrw]
  · rw [front, if_neg hrw, Option.bind_some] at hfront
    simp [if_neg hrw, hfront, (not_congr hiff).mp hrw]

theorem Represents.showsFifo (hsize : q.size < 2147483648) : ShowsFifo q.size q xs where
  size_eq := rfl
  readIndex_lt := h.read_lt
  writeIndex_lt := h.write_lt
  slots := h.liveSlots_map
  write_success := by
    intro x
    rw [h.write_eq_ite]
    have hlen := h.length_lt
    split_ifs <;> simp <;> omega
  write_failure := by
    intro x
    rw [h.write_eq_ite]
    split_ifs
    · intro hfalse
      cases hfalse
    · intro _
      rfl
  read_oldest := h.read_eq
  occupancy_eq := h.occupancy_eq hsize
  isEmpty_iff := by rw [h.isEmpty_iff, h.occupancy_eq_zero_iff]
  isFull_iff := by rw [h.isFull_iff, h.occupancy_eq hsize]
  front_null := by simp [h.front_eq]
  front_oldest := h.front_records
  back_null := by
    rw [← h.readIndex_eq_writeIndex_iff, back]
    simp [eq_comm]
  back_newest := h.back_records (by omega)

theorem Represents.flush_eq (hsize : q.size < 2147483648) :
    ∃ q', q.flush = some q' ∧ Represents q' [] ∧ q'.size = q.size := by
  have hpop := h.pop_of_le (Nat.le_refl xs.length)
  rw [List.drop_length] at hpop
  rw [flush, h.occupancy_eq hsize]
  exact hpop

end Represents

theorem prefillWrites_represents (x : T) (n : ℕ) {q : IterableQueueModel T} {xs : List T}
    (h : Represents q xs) :
    ∃ ys, Represents (prefillWrites x n q) ys ∧ (prefillWrites x n q).size = q.size := by
  induction n generalizing q xs with
  | zero => exact ⟨xs, h, rfl⟩
  | succ n ih =>
    obtain ⟨ys, hys⟩ := h.exists_write x
    obtain ⟨zs, hzs, hsize⟩ := ih hys
    exact ⟨zs, hzs, hsize.trans (size_write q x)⟩

/-- A ring stores what its specification stores, and both returned the same values. -/
def Refines {size : ℕ} (s : IterableQueueModel T × List (QueueReturn T))
    (t : BoundedFifo T (size - 1) × List (QueueReturn T)) : Prop :=
  Represents s.1 t.1.contents ∧ s.1.size = size ∧ s.2 = t.2

section Step
variable {size : ℕ} {q : IterableQueueModel T} {f : BoundedFifo T (size - 1)}
  {out out' : List (QueueReturn T)} (h : Refines (q, out) (f, out'))
include h

theorem Refines.write (x : T) :
    Refines ((q.write x).2, out ++ [.success (q.write x).1])
      ((f.push x).2, out' ++ [.success (f.push x).1]) := by
  obtain ⟨hq, rfl, rfl⟩ := h
  have hlen := hq.length_lt
  dsimp only at hq hlen ⊢
  rw [hq.write_eq_ite, BoundedFifo.push]
  by_cases hroom : f.contents.length + 1 < q.size
  · have hcap : f.contents.length < q.size - 1 := by omega
    rw [if_pos hroom, dif_pos hcap]
    exact ⟨hq.placeBack x hroom, rfl, rfl⟩
  · have hcap : ¬ f.contents.length < q.size - 1 := by omega
    rw [if_neg hroom, dif_neg hcap]
    exact ⟨hq.overflow, rfl, rfl⟩

theorem Refines.read :
    Refines (q.read.2.2, out ++ [.element q.read.1 q.read.2.1])
      (f.take.2.2, out' ++ [.element f.take.1 f.take.2.1]) := by
  obtain ⟨hq, rfl, rfl⟩ := h
  obtain ⟨xs, hxs⟩ := f
  have hiff := hq.readIndex_eq_writeIndex_iff
  have hread := hq.read_eq
  simp only [Prod.mk.injEq] at hread
  dsimp only at hq hiff hread ⊢
  rw [hread.1, hread.2, IterableQueueModel.read]
  cases xs with
  | nil =>
    rw [if_pos (hiff.mpr rfl)]
    exact ⟨hq, rfl, rfl⟩
  | cons x xs =>
    rw [if_neg fun hrw => List.cons_ne_nil _ _ (hiff.mp hrw)]
    exact ⟨hq.dropFront, rfl, rfl⟩

theorem Refines.pop (x : ℕ) :
    Option.Rel Refines ((IterableQueueModel.pop x q).map fun q => (q, out ++ [.unit]))
      ((f.drop x).map fun f => (f, out' ++ [.unit])) := by
  obtain ⟨hq, rfl, rfl⟩ := h
  dsimp only at hq ⊢
  rw [BoundedFifo.drop]
  split_ifs with hle
  · obtain ⟨q', hq', hrep, hsize⟩ := hq.pop_of_le hle
    rw [hq']
    exact .some ⟨hrep, hsize, rfl⟩
  · rw [hq.pop_of_lt (Nat.not_le.mp hle)]
    exact .none

theorem Refines.flush (hsize : size < 2147483648) :
    ∃ q', q.flush = some q' ∧
      Refines (q', out ++ [.unit])
        ((BoundedFifo.empty : BoundedFifo T (size - 1)), out' ++ [.unit]) := by
  obtain ⟨hq, rfl, rfl⟩ := h
  obtain ⟨q', hq', hrep, hsize'⟩ := hq.flush_eq hsize
  exact ⟨q', hq', hrep, hsize', rfl⟩

end Step

theorem Refines.prefill {size : ℕ} {q : IterableQueueModel T} {f : BoundedFifo T (size - 1)}
    {out out' : List (QueueReturn T)} (h : Refines (q, out) (f, out')) (valueInit : T)
    (hsize : size < 2147483648) :
    ∃ q', prefillTask valueInit q = some q' ∧
      Refines (q', out ++ [.unit])
        ((BoundedFifo.empty : BoundedFifo T (size - 1)), out' ++ [.unit]) := by
  obtain ⟨hq, rfl, rfl⟩ := h
  obtain ⟨ys, hys, hfill⟩ := prefillWrites_represents valueInit q.capacity hq
  obtain ⟨q', hq', hrep, hsize'⟩ := hys.flush_eq (by rw [hfill]; exact hsize)
  exact ⟨q', hq', hrep, hsize'.trans hfill, rfl⟩

/-- Every operation on the ring is matched by the same operation on the specification. -/
theorem refines_step (valueInit : T) {size : ℕ} (hsize : size < 2147483648)
    (s : IterableQueueModel T × List (QueueReturn T))
    (t : BoundedFifo T (size - 1) × List (QueueReturn T)) (op : QueueOp T)
    (h : Refines s t) : Option.Rel Refines (queueStep valueInit s op) (fifoStep t op) := by
  cases op with
  | write x => exact .some (h.write x)
  | write_ x => exact .some (h.write x)
  | read => exact .some h.read
  | popFront =>
    have hone : s.1.popFront = IterableQueueModel.pop 1 s.1 := by
      simp only [IterableQueueModel.pop, Option.bind_fun_some]
    simp only [queueStep, hone]
    exact h.pop 1
  | pop x => exact h.pop x
  | flush =>
    obtain ⟨q', hq', hrel⟩ := h.flush hsize
    simp only [queueStep, hq']
    exact .some hrel
  | prefill =>
    obtain ⟨q', hq', hrel⟩ := h.prefill valueInit hsize
    simp only [queueStep, hq']
    exact .some hrel

/-- Every sequence of operations on a new ring fails or succeeds as it does on an empty
bounded queue of one slot less, with the same return values, and the ring then shows the
content of that queue. -/
theorem run_refines_boundedFifo (valueInit : T) (size : ℕ) (h2 : 2 ≤ size)
    (hsize : size ≤ 2147483647) (ops : List (QueueOp T)) :
    Option.Rel
      (fun (s : IterableQueueModel T × List (QueueReturn T))
          (t : BoundedFifo T (size - 1) × List (QueueReturn T)) =>
        s.2 = t.2 ∧ ShowsFifo size s.1 t.1.contents)
      (Execution.run (queueStep valueInit) (fresh T size, []) ops)
      (Execution.run fifoStep (BoundedFifo.empty, []) ops) := by
  have hfresh : Refines (fresh T size, ([] : List (QueueReturn T)))
      ((BoundedFifo.empty : BoundedFifo T (size - 1)), []) :=
    ⟨represents_fresh h2 (by omega), rfl, rfl⟩
  have hrun := Execution.run_rel (refines_step valueInit (by omega)) hfresh ops
  revert hrun
  cases Execution.run (queueStep valueInit) (fresh T size, []) ops <;>
    cases Execution.run fifoStep (BoundedFifo.empty, []) ops <;> intro hrun
  · exact .none
  · cases hrun
  · cases hrun
  · cases hrun with
    | some hrel =>
      obtain ⟨hrep, hs, hout⟩ := hrel
      refine .some ⟨hout, ?_⟩
      subst hs
      exact hrep.showsFifo (by omega)

theorem run_refines_boundedFifo_four :
    Option.Rel
      (fun (s : IterableQueueModel ℕ × List (QueueReturn ℕ))
          (t : BoundedFifo ℕ (4 - 1) × List (QueueReturn ℕ)) =>
        s.2 = t.2 ∧ ShowsFifo 4 s.1 t.1.contents)
      (Execution.run (queueStep 0) (fresh ℕ 4, [])
        [.write 1, .write_ 2, .write 3, .write 4, .read, .pop 1, .write 5, .popFront, .prefill])
      (Execution.run fifoStep (BoundedFifo.empty, [])
        [.write 1, .write_ 2, .write 3, .write 4, .read, .pop 1, .write 5, .popFront, .prefill]) :=
  run_refines_boundedFifo 0 4 (by decide) (by decide) _

end DataHandling.IterableQueueModel
