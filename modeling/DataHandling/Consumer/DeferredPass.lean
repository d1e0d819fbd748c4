import DataHandling.Chunk
import DataHandling.Consumer.ConsumerSystem

/-! A deferred pass: its loop, from the iterator at one position of the content to the iterator
at another, and its window. -/

namespace DataHandling.ConsumerSystem
open ReadoutType

variable {LB T : Type} [LatencyBuffer LB T] [BufferView LB T] {lb : LB} {xs : List T}

theorem passPointers_eq (h : BufferView.Stores lb xs) {endIter j : ℕ} (hj : j ≤ xs.length)
    (hend : ∀ it k, BufferView.At lb xs it k → (it = endIter ↔ k = j)) (fuel : ℕ) {it i : ℕ}
    (hat : BufferView.At lb xs it i) (hij : i ≤ j) :
    passPointers lb endIter fuel it =
      if j - i ≤ fuel then some (((xs.drop i).take (j - i)).map some) else none := by
  induction fuel generalizing it i with
  | zero =>
    rw [passPointers]
    rcases Nat.lt_or_eq_of_le hij with hlt | rfl
    · have hne : ¬ it = endIter := fun heq => by have := (hend it i hat).mp heq; omega
      rw [if_neg hne, if_neg (by omega)]
    · rw [if_pos ((hend it i hat).mpr rfl), if_pos (by omega), Nat.sub_self, List.take_zero,
        List.map_nil]
  | succ fuel ih =>
    rw [passPointers]
    rcases Nat.lt_or_eq_of_le hij with hlt | rfl
    · have hne : ¬ it = endIter := fun heq => by have := (hend it i hat).mp heq; omega
      have hi : i < xs.length := Nat.lt_of_lt_of_le hlt hj
      rw [if_neg hne, ih (BufferView.next_at h hat hi) hlt, BufferView.deref_at h hat hi]
      -- one iteration for the element at `i`
      have hsub : j - i = j - (i + 1) + 1 := by omega
      rw [List.drop_eq_getElem_cons hi, hsub, List.take_succ_cons, List.map_cons]
      split_ifs
      · rfl
      · omega
      · omega
      · rfl
    · rw [if_pos ((hend it i hat).mpr rfl), if_pos (by omega), Nat.sub_self, List.take_zero,
        List.map_nil]

theorem mem_passPointers (h : BufferView.Stores lb xs) {endIter : ℕ}
    (hend : ∀ it k, BufferView.At lb xs it k → k < xs.length → it ≠ endIter) {fuel it i : ℕ}
    (hat : BufferView.At lb xs it i) {pointers : List (Option T)}
    (hpass : passPointers lb endIter fuel it = some pointers) {k : ℕ} (hik : i ≤ k)
    (hk : k < xs.length) : some xs[k] ∈ pointers := by
  have hi : i < xs.length := Nat.lt_of_le_of_lt hik hk
  induction fuel generalizing it i pointers with
  | zero =>
    rw [passPointers, if_neg (hend it i hat hi)] at hpass
    cases hpass
  | succ fuel ih =>
    rw [passPointers, if_neg (hend it i hat hi)] at hpass
    obtain ⟨rest, hrest, rfl⟩ := Option.map_eq_some_iff.mp hpass
    rw [BufferView.deref_at h hat hi]
    rcases Nat.lt_or_eq_of_le hik with hlt | rfl
    · exact List.mem_cons_of_mem _
        (ih (BufferView.next_at h hat hi) hrest hlt (Nat.lt_of_le_of_lt hlt hk))
    · exact List.mem_cons_self

omit [BufferView LB T] in
theorem passPointers_self (lb : LB) (it fuel : ℕ) : passPointers lb it fuel it = some [] := by
  cases fuel <;> exact if_pos rfl

omit [BufferView LB T] in
theorem passPointers_of_stuck {endIter it : ℕ} (hne : it ≠ endIter)
    (hnext : LatencyBuffer.next lb it = it) (fuel : ℕ) :
    passPointers lb endIter fuel it = none := by
  induction fuel with
  | zero => rw [passPointers, if_neg hne]
  | succ fuel ih => rw [passPointers, if_neg hne, hnext, ih, Option.map_none]

section Window
variable {P : Type} [ReadoutType T] {conf : ConsumerConf T P} {tail processed : T}

theorem passIsDue_iff (hle : tsNat processed ≤ tsNat tail) :
    passIsDue conf tail processed = true ↔
      tsNat processed + conf.processingDelayTicks.toNat < tsNat tail := by
  have hsub : (getTimestamp tail - getTimestamp processed).toNat = tsNat tail - tsNat processed :=
    UInt64.toNat_sub_of_le _ _ (UInt64.le_iff_toNat_le.mpr hle)
  rw [passIsDue, decide_eq_true_iff, gt_iff_lt, UInt64.lt_iff_toNat_lt, hsub]
  omega

theorem toNat_endWinTs (hdue : conf.processingDelayTicks.toNat ≤ tsNat tail) :
    (getTimestamp tail - conf.processingDelayTicks).toNat =
      tsNat tail - conf.processingDelayTicks.toNat :=
  UInt64.toNat_sub_of_le _ _ (UInt64.le_iff_toNat_le.mpr hdue)

theorem tsNat_endElement (hset : ∀ (x : T) t, getTimestamp (setTimestamp x t) = t)
    (hdue : conf.processingDelayTicks.toNat ≤ tsNat tail) :
    tsNat (endElement conf tail processed) = tsNat tail - conf.processingDelayTicks.toNat := by
  rw [tsNat, endElement, hset]
  exact toNat_endWinTs hdue

end Window

section Chunks

def delayedConf : ConsumerConf (Chunk 1 10) Unit where
  processingDelayTicks := 10
  supportsCutoffTimestamp := false
  preprocessItem processor registry item := (processor, registry, item)
  popLimitSize := 4
  toPop occupancy := occupancy / 2

def arrivalActions (ts : UInt64) : List (ConsumerAction (Chunk 1 10)) :=
  [.preprocess ⟨ts⟩ 0 false, .write]

end Chunks

end DataHandling.ConsumerSystem
