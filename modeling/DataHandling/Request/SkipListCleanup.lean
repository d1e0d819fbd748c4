import DataHandling.Buffer.SkipList
import DataHandling.Chunk
import DataHandling.Foundation.Ordered

/-! `skip_list_cleanup_request` of `DefaultSkipListRequestHandler`: the oldest elements go until
those left lie within a fixed distance of the newest. -/

namespace DataHandling
open ReadoutType

namespace SkipListLatencyBufferModel
variable {T : Type} [ReadoutType T]

def remove (s : SkipListLatencyBufferModel T) (element : T) :
    Bool × SkipListLatencyBufferModel T :=
  ((SortedSet.remove lt element s.elements).1,
    ⟨(SortedSet.remove lt element s.elements).2,
      s.sorted.sublist (SortedSet.remove_sublist element s.elements)⟩)

theorem remove_front {s : SkipListLatencyBufferModel T} {head : T} {rest : List T}
    (h : s.elements = head :: rest) :
    (s.remove head).1 = true ∧ (s.remove head).2.elements = rest := by
  change (SortedSet.remove lt head s.elements).1 = true ∧
    (SortedSet.remove lt head s.elements).2 = rest
  rw [h, SortedSet.remove_head (strictWeakOrder_lt T)]
  exact ⟨rfl, rfl⟩

theorem tsNat_le_of_sorted (horder : TimestampConsistent T) (s : SkipListLatencyBufferModel T) :
    s.elements.Pairwise fun x y => tsNat x ≤ tsNat y :=
  s.sorted.imp fun {x y} hxy => horder.le_of_lt_eq_false (lt_asymm x y hxy)

end SkipListLatencyBufferModel

structure DefaultSkipListRequestHandler (T : Type) [ReadoutType T] where
  latencyBuffer : SkipListLatencyBufferModel T
  popReqs : Int32
  popsCount : Int32
  numBufferCleanups : Int32

namespace DefaultSkipListRequestHandler
variable {T : Type} [ReadoutType T]

def maxTsDiff : UInt64 := 625000000

/-- The loop from a head on, with a bound on its iterations. There is no result when the head is
read of an empty list. -/
def removeOld (tailts : UInt64) :
    ℕ → SkipListLatencyBufferModel T → T → ℕ → Option (SkipListLatencyBufferModel T × ℕ)
  | 0, _, _, _ => none
  | fuel + 1, list, head, removedCtr =>
    let (removed, list) := list.remove head
    let removedCtr := if removed then removedCtr + 1 else removedCtr
    list.front.bind fun head =>
      if tailts - getTimestamp head ≥ maxTsDiff then removeOld tailts fuel list head removedCtr
      else some (list, removedCtr)

def skipListCleanupRequest (fuel : ℕ) (h : DefaultSkipListRequestHandler T) :
    Option (DefaultSkipListRequestHandler T) :=
  match h.latencyBuffer.back, h.latencyBuffer.front with
  | some tail, some head =>
    if getTimestamp tail - getTimestamp head > maxTsDiff then
      (removeOld (getTimestamp tail) fuel h.latencyBuffer head 0).map fun (list, removedCtr) =>
        { latencyBuffer := list
          popReqs := h.popReqs + 1
          popsCount := h.popsCount + Int32.ofNat removedCtr
          numBufferCleanups := h.numBufferCleanups + 1 }
    else some { h with numBufferCleanups := h.numBufferCleanups + 1 }
  | _, _ => some { h with numBufferCleanups := h.numBufferCleanups + 1 }

def isRecent (tailts : UInt64) (x : T) : Bool :=
  decide (tsNat x + maxTsDiff.toNat > tailts.toNat)

section Loop
variable {tailts : UInt64}

theorem sub_ge_maxTsDiff_iff {x : T} (hle : tsNat x ≤ tailts.toNat) :
    tailts - getTimestamp x ≥ maxTsDiff ↔ isRecent tailts x = false := by
  have hsub := UInt64.toNat_sub_of_le tailts (getTimestamp x) (UInt64.le_iff_toNat_le.mpr hle)
  rw [ge_iff_le, UInt64.le_iff_toNat_le, hsub, isRecent, decide_eq_false_iff_not]
  rw [tsNat] at hle ⊢
  omega

/-- From an old head on, the loop leaves the recent elements and counts the others. -/
theorem removeOld_eq (list : SkipListLatencyBufferModel T) {head : T} {rest : List T}
    (helements : list.elements = head :: rest)
    (hmono : ∀ x ∈ rest, tsNat x ≤ tailts.toNat)
    (hpairs : (head :: rest).Pairwise fun x y => tsNat x ≤ tsNat y)
    (hlast : ∃ x ∈ rest, isRecent tailts x = true) (hhead : isRecent tailts head = false)
    {fuel : ℕ} (hfuel : rest.length < fuel) (removedCtr : ℕ) :
    ∃ list', removeOld tailts fuel list head removedCtr =
        some (list', removedCtr + ((head :: rest).length - list'.elements.length)) ∧
      list'.elements = (head :: rest).filter (isRecent tailts) := by
  induction rest generalizing list head fuel removedCtr with
  | nil => simp at hlast
  | cons y ys ih =>
    obtain ⟨fuel, rfl⟩ : ∃ k, fuel = k + 1 := Nat.exists_eq_succ_of_ne_zero (by omega)
    obtain ⟨hsome, hrest⟩ := SkipListLatencyBufferModel.remove_front helements
    have hfront : (list.remove head).2.front = some y := by
      rw [SkipListLatencyBufferModel.front, hrest]
      rfl
    have hy := hmono y List.mem_cons_self
    simp only [removeOld, hsome, hfront, Option.bind_some, if_true]
    by_cases hrecent : isRecent tailts y = true
    · -- the first recent element ends the loop, and all later ones are recent too
      have hall : ∀ x ∈ y :: ys, isRecent tailts x = true := by
        intro x hx
        rcases List.mem_cons.mp hx with rfl | hmem
        · exact hrecent
        · have hle := (List.pairwise_cons.mp (List.pairwise_cons.mp hpairs).2).1 x hmem
          rw [isRecent, decide_eq_true_iff] at hrecent ⊢
          omega
      rw [if_neg (fun hge => by rw [(sub_ge_maxTsDiff_iff hy).mp hge] at hrecent; cases hrecent)]
      refine ⟨(list.remove head).2, ?_, ?_⟩
      · rw [hrest, List.length_cons (a := head), Nat.add_sub_cancel_left]
      · rw [hrest, List.filter_cons_of_neg (by simp [hhead]), List.filter_eq_self.mpr hall]
    · have hold := Bool.eq_false_iff.mpr hrecent
      rw [if_pos ((sub_ge_maxTsDiff_iff hy).mpr hold)]
      obtain ⟨x, hx, hxrecent⟩ := hlast
      have hx' : x ∈ ys := (List.mem_cons.mp hx).resolve_left fun heq => by
        rw [heq, hold] at hxrecent
        cases hxrecent
      obtain ⟨list', hloop, hkept⟩ := ih (list.remove head).2 hrest
        (fun x hx => hmono x (List.mem_cons_of_mem _ hx)) (List.pairwise_cons.mp hpairs).2
        ⟨x, hx', hxrecent⟩ hold (by simpa using hfuel) (removedCtr + 1)
      have hlen : list'.elements.length ≤ (y :: ys).length := by
        rw [hkept]
        exact List.length_filter_le _ _
      refine ⟨list', ?_, ?_⟩
      · rw [hloop, List.length_cons (a := head)]
        congr 2
        omega
      · rw [hkept, List.filter_cons_of_neg (a := head) (by simp [hhead])]

end Loop

/-- What a cleanup does: within the window nothing, beyond it just the recent elements are left. -/
structure CleansUp (h h' : DefaultSkipListRequestHandler T) : Prop where
  elements : h'.latencyBuffer.elements =
    match h.latencyBuffer.back, h.latencyBuffer.front with
    | some newest, some oldest =>
      if tsNat newest - tsNat oldest > maxTsDiff.toNat then
        h.latencyBuffer.elements.filter fun x => decide (tsNat newest - tsNat x < maxTsDiff.toNat)
      else h.latencyBuffer.elements
    | _, _ => h.latencyBuffer.elements
  popsCount : h'.popsCount = h.popsCount + Int32.ofNat
    (h.latencyBuffer.elements.length - h'.latencyBuffer.elements.length)
  newest : ∀ newest ∈ h.latencyBuffer.back, newest ∈ h'.latencyBuffer.elements

theorem isRecent_eq {newest x : T} (hle : tsNat x ≤ tsNat newest) :
    isRecent (getTimestamp newest) x = decide (tsNat newest - tsNat x < maxTsDiff.toNat) := by
  have hpos : 0 < maxTsDiff.toNat := by decide
  rw [isRecent, ← tsNat, decide_eq_decide]
  omega

theorem sub_gt_maxTsDiff_iff {newest oldest : T} (hle : tsNat oldest ≤ tsNat newest) :
    getTimestamp newest - getTimestamp oldest > maxTsDiff ↔
      tsNat newest - tsNat oldest > maxTsDiff.toNat := by
  have hsub := UInt64.toNat_sub_of_le (getTimestamp newest) (getTimestamp oldest)
    (UInt64.le_iff_toNat_le.mpr hle)
  rw [gt_iff_lt, UInt64.lt_iff_toNat_lt, hsub, gt_iff_lt, tsNat, tsNat]

theorem cleansUp_of_within (h : DefaultSkipListRequestHandler T)
    (hwithin : ∀ newest ∈ h.latencyBuffer.back, ∀ oldest ∈ h.latencyBuffer.front,
      ¬ tsNat newest - tsNat oldest > maxTsDiff.toNat) :
    CleansUp h { h with numBufferCleanups := h.numBufferCleanups + 1 } where
  elements := by
    split
    · next newest oldest hback hfront => rw [if_neg (hwithin newest hback oldest hfront)]
    · rfl
  popsCount := by simp
  newest _ hback := List.mem_of_getLast? hback

/-- For every content: the cleanup ends, reads no empty list, and keeps the recent window. -/
theorem skipListCleanupRequest_cleansUp (horder : TimestampConsistent T)
    (h : DefaultSkipListRequestHandler T) (fuel : ℕ)
    (hfuel : h.latencyBuffer.elements.length < fuel) :
    ∃ h', h.skipListCleanupRequest fuel = some h' ∧ CleansUp h h' := by
  have hmono := h.latencyBuffer.tsNat_le_of_sorted horder
  cases helements : h.latencyBuffer.elements with
  | nil =>
    have hback : h.latencyBuffer.back = none := by
      rw [SkipListLatencyBufferModel.back, helements]
      rfl
    refine ⟨_, ?_, cleansUp_of_within h fun newest hnewest => ?_⟩
    · simp only [skipListCleanupRequest, hback]
    · rw [hback] at hnewest
      cases hnewest
  | cons oldest rest =>
    have hback : h.latencyBuffer.back = some ((oldest :: rest).getLast (List.cons_ne_nil _ _)) := by
      rw [SkipListLatencyBufferModel.back, helements, List.getLast?_eq_some_getLast]
    have hfront : h.latencyBuffer.front = some oldest := by
      rw [SkipListLatencyBufferModel.front, helements]
      rfl
    have hnewest := List.getLast_mem (List.cons_ne_nil oldest rest)
    rw [helements] at hmono hfuel
    have hbelow := Ordered.le_getLast_of_pairwise hmono
      (List.getLast?_eq_some_getLast (List.cons_ne_nil oldest rest))
    generalize (oldest :: rest).getLast (List.cons_ne_nil oldest rest) = newest
      at hback hnewest hbelow
    have htrigger := sub_gt_maxTsDiff_iff (hbelow oldest List.mem_cons_self)
    by_cases hold : tsNat newest - tsNat oldest > maxTsDiff.toNat
    · have hne : newest ≠ oldest := by
        rintro rfl
        omega
      have hlast := isRecent_eq (hbelow newest hnewest)
      have hhead := isRecent_eq (hbelow oldest List.mem_cons_self)
      rw [Nat.sub_self, decide_eq_true (by decide)] at hlast
      rw [decide_eq_false (by omega)] at hhead
      obtain ⟨list', hloop, hkept⟩ := removeOld_eq h.latencyBuffer helements
        (fun x hx => hbelow x (List.mem_cons_of_mem _ hx)) hmono
        ⟨newest, (List.mem_cons.mp hnewest).resolve_left hne, hlast⟩ hhead
        (Nat.lt_trans (Nat.lt_succ_self _) hfuel) 0
      refine ⟨⟨list', h.popReqs + 1,
        h.popsCount + Int32.ofNat ((oldest :: rest).length - list'.elements.length),
        h.numBufferCleanups + 1⟩, ?_, ?_, ?_, ?_⟩
      · simp only [skipListCleanupRequest, hback, hfront, if_pos (htrigger.mpr hold), hloop,
          Option.map_some, Nat.zero_add]
      · simp only [hback, hfront, if_pos hold, helements]
        rw [hkept]
        exact List.filter_congr fun x hx => isRecent_eq (hbelow x hx)
      · rw [helements]
      · intro x hx
        rw [hback] at hx
        cases hx
        rw [hkept]
        exact List.mem_filter.mpr ⟨hnewest, hlast⟩
    · refine ⟨_, ?_, cleansUp_of_within h fun x hx y hy => ?_⟩
      · simp only [skipListCleanupRequest, hback, hfront, if_neg (mt htrigger.mp hold)]
      · rw [hback] at hx
        rw [hfront] at hy
        cases hx
        cases hy
        exact hold

def fourChunks : DefaultSkipListRequestHandler (Chunk 1 10) where
  latencyBuffer := ⟨[⟨0⟩, ⟨100⟩, ⟨625000050⟩, ⟨625000100⟩], by
    simp [SortedSet.Sorted, lt]⟩
  popReqs := 0
  popsCount := 0
  numBufferCleanups := 0

theorem skipListCleanupRequest_cleansUp_fourChunks :
    ∃ h', fourChunks.skipListCleanupRequest 5 = some h' ∧ CleansUp fourChunks h' :=
  skipListCleanupRequest_cleansUp (Chunk.timestampOrder 1 10).consistent fourChunks 5 (by decide)

example : (fourChunks.skipListCleanupRequest 5).map (fun h => h.latencyBuffer.elements) =
    some [⟨625000050⟩, ⟨625000100⟩] := by decide +kernel

end DefaultSkipListRequestHandler
end DataHandling
