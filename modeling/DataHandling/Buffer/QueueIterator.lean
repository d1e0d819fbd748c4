import DataHandling.Buffer.QueueContents

/-! The iterator of the ring walks over the stored elements: it is good at the live slots,
steps from each to the next, and collapses to `end()` after the newest. -/

namespace DataHandling.IterableQueueModel
open MachineInt Cyclic

variable {T : Type} {q : IterableQueueModel T} {xs : List T} (h : Represents q xs)

/-- The iterator index stands at position `k` of the content, or past it if `k` is the
length; every index that is not good counts as past the content. -/
def At (q : IterableQueueModel T) (xs : List T) (index k : ℕ) : Prop :=
  k < xs.length ∧ index = slot q.size q.readIndex k ∨
    k = xs.length ∧ q.good index = false

theorem good_endIndex (q : IterableQueueModel T) : q.good endIndex = false := by
  simp [good]

include h

theorem Represents.good_slot {k : ℕ} (hk : k < xs.length) :
    q.good (slot q.size q.readIndex k) = true := by
  have hlen := h.length_lt
  have hread := h.read_lt
  have hsize := h.size_lt
  have hwrite := h.write_eq
  unfold good endIndex u32Max
  simp only [Bool.and_eq_true, Bool.or_eq_true, decide_eq_true_eq]
  unfold slot at *
  split_ifs at hwrite ⊢ <;> omega

theorem Represents.exists_of_good {index : ℕ} (hi : index < q.size)
    (hgood : q.good index = true) : ∃ k < xs.length, index = slot q.size q.readIndex k := by
  have hlen := h.length_lt
  have hread := h.read_lt
  have hwrite := h.write_eq
  refine ⟨distance q.size q.readIndex index, ?_, (slot_distance hread hi).symm⟩
  unfold good endIndex u32Max at hgood
  simp only [Bool.and_eq_true, Bool.or_eq_true, decide_eq_true_eq] at hgood
  unfold distance
  unfold slot at hwrite
  split_ifs at hwrite ⊢ <;> omega

theorem Represents.good_writeIndex : q.good q.writeIndex = false := by
  rw [Bool.eq_false_iff]
  intro hgood
  obtain ⟨k, hk, hslot⟩ := h.exists_of_good h.write_lt hgood
  rw [h.write_eq] at hslot
  have := slot_inj h.read_lt h.length_lt (Nat.lt_trans hk h.length_lt) hslot
  omega

theorem Represents.at_slot {k : ℕ} (hk : k ≤ xs.length) :
    At q xs (slot q.size q.readIndex k) k := by
  rcases Nat.lt_or_eq_of_le hk with hlt | rfl
  · exact .inl ⟨hlt, rfl⟩
  · refine .inr ⟨rfl, ?_⟩
    rw [← h.write_eq]
    exact h.good_writeIndex

theorem Represents.good_iff {index k : ℕ} (hat : At q xs index k) :
    q.good index = true ↔ k < xs.length := by
  rcases hat with ⟨hk, rfl⟩ | ⟨rfl, hbad⟩
  · simp only [h.good_slot hk, hk]
  · simp only [hbad, Nat.lt_irrefl, Bool.false_eq_true]

theorem Represents.records_of_at {index k : ℕ} (hat : At q xs index k) (hk : k < xs.length) :
    q.records index = some xs[k] := by
  rcases hat with ⟨_, rfl⟩ | ⟨rfl, _⟩
  · exact h.stored k hk
  · omega

theorem Represents.eq_slot_iff {index j k : ℕ} (hj : j < xs.length) (hat : At q xs index k) :
    index = slot q.size q.readIndex j ↔ k = j := by
  have hlen := h.length_lt
  rcases hat with ⟨hk, rfl⟩ | ⟨rfl, hbad⟩
  · exact ⟨slot_inj h.read_lt (by omega) (by omega), fun heq => heq ▸ rfl⟩
  · refine iff_of_false (fun heq => ?_) (by omega)
    rw [heq, h.good_slot hj] at hbad
    cases hbad

omit h in
theorem next_endIndex : q.next endIndex = endIndex := by
  simp [next, good_endIndex]

theorem Represents.next_slot {k : ℕ} (hk : k < xs.length) :
    q.next (slot q.size q.readIndex k) =
      if k + 1 < xs.length then slot q.size q.readIndex (k + 1) else endIndex := by
  unfold next
  simp only [h.good_slot hk, if_true, h.nextRecord_slot (Nat.lt_trans hk h.length_lt)]
  simp only [h.good_iff (h.at_slot hk)]

theorem Represents.next_at {index k : ℕ} (hat : At q xs index k) (hk : k < xs.length) :
    At q xs (q.next index) (k + 1) := by
  rcases hat with ⟨_, rfl⟩ | ⟨rfl, _⟩
  · rw [h.next_slot hk]
    split_ifs with hlt
    · exact .inl ⟨hlt, rfl⟩
    · exact .inr ⟨by omega, good_endIndex q⟩
  · omega

end DataHandling.IterableQueueModel
