import Mathlib.Data.List.Basic

/-! A first-in first-out queue of bounded capacity, the specification of a ring. -/

/-- The elements stored, oldest first, never more than `capacity` of them. -/
structure BoundedFifo (α : Type*) (capacity : ℕ) where
  contents : List α
  bounded : contents.length ≤ capacity

namespace BoundedFifo

variable {α : Type*} {capacity : ℕ}

def empty : BoundedFifo α capacity := ⟨[], Nat.zero_le _⟩

def push (f : BoundedFifo α capacity) (x : α) : Bool × BoundedFifo α capacity :=
  if h : f.contents.length < capacity then
    (true, ⟨f.contents ++ [x], by rw [List.length_append, List.length_singleton]; exact h⟩)
  else (false, f)

def drop (f : BoundedFifo α capacity) (n : ℕ) : Option (BoundedFifo α capacity) :=
  if n ≤ f.contents.length then
    some ⟨f.contents.drop n, by
      rw [List.length_drop]
      exact Nat.le_trans (Nat.sub_le _ _) f.bounded⟩
  else none

def take (f : BoundedFifo α capacity) : Bool × Option α × BoundedFifo α capacity :=
  match f.contents, f.bounded with
  | [], _ => (false, none, f)
  | x :: xs, h => (true, some x, ⟨xs, Nat.le_trans (Nat.le_succ _) h⟩)

theorem mem_of_mem_push {f : BoundedFifo α capacity} {x y : α}
    (h : y ∈ (f.push x).2.contents) : y ∈ f.contents ∨ y = x := by
  unfold push at h
  split_ifs at h
  · rcases List.mem_append.mp h with hold | hnew
    · exact .inl hold
    · exact .inr (List.mem_singleton.mp hnew)
  · exact .inl h

theorem mem_of_take {f : BoundedFifo α capacity} {x : α} (h : f.take.2.1 = some x) :
    x ∈ f.contents := by
  obtain ⟨contents, bounded⟩ := f
  cases contents with
  | nil => cases h
  | cons y ys => exact Option.some.inj h ▸ List.mem_cons_self

theorem mem_of_mem_take {f : BoundedFifo α capacity} {y : α} (h : y ∈ f.take.2.2.contents) :
    y ∈ f.contents := by
  obtain ⟨contents, bounded⟩ := f
  cases contents with
  | nil => exact h
  | cons x xs => exact List.mem_cons_of_mem _ h

end BoundedFifo
