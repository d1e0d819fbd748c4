import Mathlib.Data.List.Basic
import Mathlib.Tactic.Common

/-! A heap of blocks, each with a tag that says how it is to be released. Blocks are never removed
from the list; what is counted is how often each has been released. -/

structure HeapBlock (Tag : Type*) where
  tag : Tag
  bytes : ℕ
  releases : ℕ

/-- The blocks allocated so far, and whether every access and release has been valid. -/
structure TaggedHeap (Tag : Type*) where
  blocks : List (HeapBlock Tag)
  sound : Bool

namespace TaggedHeap

variable {Tag : Type*} [DecidableEq Tag]

def empty : TaggedHeap Tag := ⟨[], true⟩

def alloc (heap : TaggedHeap Tag) (tag : Tag) (bytes : ℕ) : ℕ × TaggedHeap Tag :=
  (heap.blocks.length, { heap with blocks := heap.blocks ++ [⟨tag, bytes, 0⟩] })

def access (heap : TaggedHeap Tag) (p : ℕ) : TaggedHeap Tag :=
  { heap with sound := heap.sound && heap.blocks[p]?.any fun b => decide (b.releases = 0) }

/-- A release is valid once, in the way of the block's tag and, if a length is given, with that of
the block. -/
def release (heap : TaggedHeap Tag) (p : ℕ) (tag : Tag) (length : Option ℕ) : TaggedHeap Tag where
  blocks := heap.blocks.modify p fun b => { b with releases := b.releases + 1 }
  sound := heap.sound && heap.blocks[p]?.any fun b =>
    decide (b.releases = 0 ∧ b.tag = tag ∧ ∀ n ∈ length, n = b.bytes)

def AllReleased (heap : TaggedHeap Tag) : Prop := ∀ b ∈ heap.blocks, b.releases = 1

/-- One block is live, and every other one has been released once. -/
structure Only (heap : TaggedHeap Tag) (p : ℕ) (block : HeapBlock Tag) : Prop where
  block_eq : heap.blocks[p]? = some block
  live : block.releases = 0
  others : ∀ q b, q ≠ p → heap.blocks[q]? = some b → b.releases = 1

variable {heap : TaggedHeap Tag} {p : ℕ} {block : HeapBlock Tag}

omit [DecidableEq Tag] in
theorem allReleased_empty : (empty : TaggedHeap Tag).AllReleased := List.forall_mem_nil _

omit [DecidableEq Tag] in
theorem AllReleased.alloc (h : heap.AllReleased) (tag : Tag) (bytes : ℕ) :
    (heap.alloc tag bytes).2.Only (heap.alloc tag bytes).1 ⟨tag, bytes, 0⟩ where
  block_eq := List.getElem?_concat_length ..
  live := rfl
  others := by
    intro q b hne hb
    change (heap.blocks ++ [⟨tag, bytes, 0⟩])[q]? = some b at hb
    rw [List.getElem?_append] at hb
    split_ifs at hb with hlt
    · exact h b (List.mem_of_getElem? hb)
    · have hgt : heap.blocks.length < q := Nat.lt_of_le_of_ne (Nat.not_lt.mp hlt) (Ne.symm hne)
      rw [List.getElem?_eq_none (by rw [List.length_singleton]; omega)] at hb
      cases hb

omit [DecidableEq Tag] in
theorem Only.access (h : heap.Only p block) : heap.access p = heap := by
  rw [TaggedHeap.access, h.block_eq, Option.any_some, h.live]
  simp

theorem Only.release (h : heap.Only p block) {tag : Tag} (htag : block.tag = tag)
    {length : Option ℕ} (hlength : ∀ n ∈ length, n = block.bytes) :
    (heap.release p tag length).AllReleased ∧
      (heap.release p tag length).sound = heap.sound := by
  constructor
  · intro b hb
    obtain ⟨q, hq⟩ := List.mem_iff_getElem?.mp hb
    by_cases hqp : q = p
    · rw [hqp, TaggedHeap.release, List.getElem?_modify_eq, h.block_eq] at hq
      rw [← Option.some.inj hq]
      exact congrArg Nat.succ h.live
    · rw [TaggedHeap.release, List.getElem?_modify_ne _ _ (Ne.symm hqp)] at hq
      exact h.others q b hqp hq
  · simp only [TaggedHeap.release, h.block_eq, Option.any_some]
    rw [decide_eq_true ⟨h.live, htag, hlength⟩, Bool.and_true]

omit [DecidableEq Tag] in
theorem AllReleased.releases_le (h : heap.AllReleased) : ∀ b ∈ heap.blocks, b.releases ≤ 1 :=
  fun b hb => Nat.le_of_eq (h b hb)

omit [DecidableEq Tag] in
theorem Only.releases_le (h : heap.Only p block) : ∀ b ∈ heap.blocks, b.releases ≤ 1 := by
  intro b hb
  obtain ⟨q, hq⟩ := List.mem_iff_getElem?.mp hb
  by_cases hqp : q = p
  · rw [hqp, h.block_eq] at hq
    rw [← Option.some.inj hq, h.live]
    exact Nat.zero_le 1
  · exact Nat.le_of_eq (h.others q b hqp hq)

end TaggedHeap
