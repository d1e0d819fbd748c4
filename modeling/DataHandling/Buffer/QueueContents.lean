import DataHandling.Buffer.IterableQueue
import Mathlib.Data.List.Basic

/-! What a ring stores. `Represents q xs` says that the slots from the read index up to the
write index hold `xs` and that every other slot is raw memory. -/

namespace DataHandling.IterableQueueModel
open MachineInt Cyclic

variable {T : Type}

structure Represents (q : IterableQueueModel T) (xs : List T) : Prop where
  two_le_size : 2 ≤ q.size
  size_lt : q.size < 4294967296
  read_lt : q.readIndex < q.size
  length_lt : xs.length < q.size
  write_eq : q.writeIndex = slot q.size q.readIndex xs.length
  stored : ∀ i (h : i < xs.length), q.records (slot q.size q.readIndex i) = some xs[i]
  free : ∀ j, (∀ i < xs.length, j ≠ slot q.size q.readIndex i) → q.records j = none

def liveSlots (q : IterableQueueModel T) : List ℕ :=
  (List.range (distance q.size q.readIndex q.writeIndex)).map (slot q.size q.readIndex)

theorem occupancy_eq_distance {q : IterableQueueModel T} (hread : q.readIndex < q.size)
    (hwrite : q.writeIndex < q.size) (hsize : q.size < 2147483648) :
    q.occupancy = distance q.size q.readIndex q.writeIndex := by
  dsimp only [occupancy]
  rw [i32_of_lt (by omega), i32_of_lt (by omega), i32_of_lt (by omega)]
  unfold i32 toSize distance
  split_ifs <;> omega

theorem represents_fresh {size : ℕ} (h2 : 2 ≤ size) (hsize : size < 4294967296) :
    Represents (fresh T size) [] where
  two_le_size := h2
  size_lt := hsize
  read_lt := by simp only [fresh]; omega
  length_lt := by simp only [fresh, List.length_nil]; omega
  write_eq := (slot_zero (by simp only [fresh]; omega)).symm
  stored := by simp
  free := fun _ _ => rfl

section Represents
variable {q : IterableQueueModel T} {xs : List T} (h : Represents q xs)
include h

theorem Represents.write_lt : q.writeIndex < q.size := by
  rw [h.write_eq]
  exact slot_lt h.read_lt h.length_lt

theorem Represents.distance_eq : distance q.size q.readIndex q.writeIndex = xs.length := by
  rw [h.write_eq]
  exact distance_slot h.read_lt h.length_lt

theorem Represents.liveSlots_length : q.liveSlots.length = xs.length := by
  rw [liveSlots, List.length_map, List.length_range, h.distance_eq]

theorem Represents.liveSlots_map : q.liveSlots.map q.records = xs.map some := by
  rw [liveSlots, h.distance_eq, List.map_map]
  apply List.ext_getElem
  · simp
  · intro i hi hi'
    have hlen : i < xs.length := by simpa using hi'
    simpa using h.stored i hlen

theorem Represents.exists_slot_of_mem {x : T} (hx : x ∈ xs) :
    ∃ slot ∈ q.liveSlots, q.records slot = some x := by
  have hmem : some x ∈ q.liveSlots.map q.records := by
    rw [h.liveSlots_map]
    exact List.mem_map_of_mem hx
  exact List.mem_map.mp hmem

theorem Represents.nextRecord_slot {i : ℕ} (hi : i < q.size) :
    q.nextRecord (slot q.size q.readIndex i) = slot q.size q.readIndex (i + 1) := by
  have hslot := slot_lt h.read_lt hi
  have hsize := h.size_lt
  rw [nextRecord, u32_of_lt (by omega)]
  exact slot_succ h.read_lt hi

theorem Represents.nextRecord_writeIndex :
    q.nextRecord q.writeIndex = slot q.size q.readIndex (xs.length + 1) := by
  conv_lhs => rw [h.write_eq]
  exact h.nextRecord_slot h.length_lt

theorem Represents.nextRecord_ne_iff :
    q.nextRecord q.writeIndex ≠ q.readIndex ↔ xs.length + 1 < q.size := by
  have hlen := h.length_lt
  have hread := h.read_lt
  rw [h.nextRecord_writeIndex, slot]
  split_ifs <;> omega

theorem Represents.readIndex_eq_writeIndex_iff : q.readIndex = q.writeIndex ↔ xs = [] := by
  have hlen := h.length_lt
  have hread := h.read_lt
  rw [h.write_eq, ← List.length_eq_zero_iff, slot]
  split_ifs <;> omega

theorem Represents.records_isSome_iff (j : ℕ) :
    (q.records j).isSome ↔ ∃ i < xs.length, j = slot q.size q.readIndex i := by
  constructor
  · intro hj
    by_contra hne
    push Not at hne
    simp [h.free j hne] at hj
  · rintro ⟨i, hi, rfl⟩
    simp [h.stored i hi]

theorem Represents.mem_iff (x : T) : x ∈ xs ↔ ∃ slot, q.records slot = some x := by
  constructor
  · intro hx
    obtain ⟨slot, -, hslot⟩ := h.exists_slot_of_mem hx
    exact ⟨slot, hslot⟩
  · rintro ⟨slot, hslot⟩
    obtain ⟨i, hi, rfl⟩ := (h.records_isSome_iff slot).mp (hslot ▸ rfl)
    rw [h.stored i hi] at hslot
    exact Option.some.inj hslot ▸ List.getElem_mem hi

theorem Represents.mem_liveSlots_iff (j : ℕ) : j ∈ q.liveSlots ↔ (q.records j).isSome := by
  rw [h.records_isSome_iff, liveSlots, h.distance_eq, List.mem_map]
  simp only [List.mem_range, eq_comm]

theorem Represents.records_writeIndex : q.records q.writeIndex = none := by
  apply h.free
  intro i hi heq
  rw [h.write_eq] at heq
  have := slot_inj h.read_lt h.length_lt (Nat.lt_trans hi h.length_lt) heq
  omega

theorem Represents.placeBack (x : T) (hroom : xs.length + 1 < q.size) :
    Represents (q.placeBack x) (xs ++ [x]) where
  two_le_size := h.two_le_size
  size_lt := h.size_lt
  read_lt := h.read_lt
  length_lt := by simpa using hroom
  write_eq := by simpa using h.nextRecord_writeIndex
  stored := by
    intro i hi
    rw [placeBack_records, placeBack_size, placeBack_readIndex]
    rw [List.length_append, List.length_singleton] at hi
    by_cases hlt : i < xs.length
    · have hslot : slot q.size q.readIndex i ≠ q.writeIndex := by
        rw [h.write_eq]
        intro heq
        have := slot_inj h.read_lt (Nat.lt_trans hlt h.length_lt) h.length_lt heq
        omega
      rw [Function.update_of_ne hslot, List.getElem_append_left hlt]
      exact h.stored i hlt
    · obtain rfl : i = xs.length := by omega
      rw [← h.write_eq, Function.update_self]
      simp
  free := by
    intro j hj
    rw [placeBack_records]
    have hw : j ≠ q.writeIndex := by
      rw [h.write_eq]
      exact hj xs.length (by simp)
    rw [Function.update_of_ne hw]
    exact h.free j fun i hi => hj i (by simp; omega)

theorem Represents.overflow : Represents q.overflow xs :=
  ⟨h.two_le_size, h.size_lt, h.read_lt, h.length_lt, h.write_eq, h.stored, h.free⟩

theorem Represents.write_eq_ite (x : T) :
    q.write x = if xs.length + 1 < q.size then (true, q.placeBack x) else (false, q.overflow) := by
  simp only [write, h.nextRecord_ne_iff]

end Represents

theorem Represents.dropFront {q : IterableQueueModel T} {x : T} {xs : List T}
    (h : Represents q (x :: xs)) : Represents q.dropFront xs := by
  have hlen := h.length_lt
  rw [List.length_cons] at hlen
  have hnext : q.nextRecord q.readIndex = slot q.size q.readIndex 1 := by
    conv_lhs => rw [← slot_zero h.read_lt]
    exact h.nextRecord_slot (by omega)
  have hadv : ∀ i, i + 1 < q.size →
      slot q.size (q.nextRecord q.readIndex) i = slot q.size q.readIndex (i + 1) := by
    intro i hi
    rw [hnext]
    exact slot_advance h.read_lt hi
  exact {
    two_le_size := h.two_le_size
    size_lt := h.size_lt
    read_lt := by
      rw [dropFront_readIndex, dropFront_size, hnext]
      exact slot_lt h.read_lt (by omega)
    length_lt := by
      rw [dropFront_size]
      omega
    write_eq := (hadv _ hlen).symm ▸ h.write_eq
    stored := by
      intro i hi
      have hslot : slot q.size q.readIndex (i + 1) ≠ q.readIndex := by
        intro heq
        have := slot_inj h.read_lt (by omega) (by omega) (heq.trans (slot_zero h.read_lt).symm)
        omega
      rw [dropFront_records, dropFront_size, dropFront_readIndex, hadv i (by omega),
        Function.update_of_ne hslot]
      exact h.stored (i + 1) (by simpa using hi)
    free := by
      intro j hj
      rw [dropFront_records]
      by_cases hr : j = q.readIndex
      · rw [hr, Function.update_self]
      · rw [Function.update_of_ne hr]
        apply h.free
        intro i hi
        cases i with
        | zero => rwa [slot_zero h.read_lt]
        | succ i =>
          have hi' : i < xs.length := by simpa using hi
          rw [← hadv i (by omega)]
          exact hj i hi' }

section Observers
variable {q : IterableQueueModel T} {xs : List T} (h : Represents q xs)
include h

theorem Represents.occupancy_eq (hsize : q.size < 2147483648) : q.occupancy = xs.length := by
  rw [occupancy_eq_distance h.read_lt h.write_lt hsize, h.distance_eq]

theorem Represents.occupancy_eq_zero_iff : q.occupancy = 0 ↔ xs = [] := by
  rw [← h.readIndex_eq_writeIndex_iff]
  have hread := h.read_lt
  have hwrite := h.write_lt
  have hsize := h.size_lt
  obtain ⟨kw, hw, _, _⟩ := i32_spec q.writeIndex
  obtain ⟨kr, hr, _, _⟩ := i32_spec q.readIndex
  obtain ⟨ks, hs, _, _⟩ := i32_spec q.size
  obtain ⟨kd, hd, hd1, hd2⟩ := i32_spec (i32 q.writeIndex - i32 q.readIndex)
  obtain ⟨ke, he, he1, he2⟩ := i32_spec (i32 (i32 q.writeIndex - i32 q.readIndex) + i32 q.size)
  have hzd := toSize_eq_zero_iff hd1 hd2
  have hze := toSize_eq_zero_iff he1 he2
  dsimp only [occupancy]
  split_ifs
  · rw [hze]
    generalize i32 (i32 (i32 _ - i32 _) + i32 _) = e at *
    generalize i32 (i32 _ - i32 _) = d at *
    omega
  · rw [hzd]
    generalize i32 (i32 (i32 _ - i32 _) + i32 _) = e at *
    generalize i32 (i32 _ - i32 _) = d at *
    omega

theorem Represents.isEmpty_iff : q.isEmpty = true ↔ xs = [] := by
  rw [isEmpty, beq_iff_eq, h.readIndex_eq_writeIndex_iff]

theorem Represents.isFull_iff : q.isFull = true ↔ xs.length = q.size - 1 := by
  have hlen := h.length_lt
  unfold isFull
  simp only [h.nextRecord_ne_iff]
  split_ifs <;> simp <;> omega

theorem Represents.front_eq : q.front = if xs = [] then none else some q.readIndex := by
  simp only [front, h.readIndex_eq_writeIndex_iff]

theorem Represents.front_records : q.front.bind q.records = xs.head? := by
  rw [h.front_eq]
  cases xs with
  | nil => rfl
  | cons x xs =>
    have h0 := h.stored 0 (by simp)
    rw [slot_zero h.read_lt] at h0
    simpa using h0

theorem Represents.back_slot (hne : xs ≠ []) :
    (if q.writeIndex = 0 then q.size - 1 else q.writeIndex - 1) =
      slot q.size q.readIndex (xs.length - 1) := by
  have hpos := List.length_pos_iff.mpr hne
  have hlen := h.length_lt
  have hread := h.read_lt
  rw [h.write_eq]
  unfold slot
  split_ifs <;> omega

theorem Represents.records_back_slot (hne : xs ≠ []) :
    q.records (slot q.size q.readIndex (xs.length - 1)) = xs.getLast? := by
  have hpos := List.length_pos_iff.mpr hne
  rw [h.stored _ (by omega), List.getLast?_eq_getElem?, List.getElem?_eq_getElem (by omega)]

omit h in
theorem currentLast_eq {last : ℕ}
    (hwrite : q.writeIndex = if last + 1 = q.size then 0 else last + 1)
    (hlast : last < 2147483648) : q.currentLast = last := by
  unfold currentLast
  split_ifs at hwrite with hwrap
  · have hzero : i32 ((0 : ℕ) : ℤ) = 0 := i32_of_lt (by decide)
    have hpred : ((q.size : ℤ) - 1) = (last : ℤ) := by omega
    rw [hwrite, if_pos hzero, hpred, i32_of_lt hlast]
  · rw [hwrite, if_neg (i32_succ_ne_zero hlast), i32_pred_of_succ hlast]

theorem Represents.currentLast_of_slot
    (hslot : (if q.writeIndex = 0 then q.size - 1 else q.writeIndex - 1) < 2147483648) :
    toSize q.currentLast = if q.writeIndex = 0 then q.size - 1 else q.writeIndex - 1 := by
  have h2 := h.two_le_size
  have hwrite := h.write_lt
  have hlast : q.writeIndex =
      if (if q.writeIndex = 0 then q.size - 1 else q.writeIndex - 1) + 1 = q.size then 0
      else (if q.writeIndex = 0 then q.size - 1 else q.writeIndex - 1) + 1 := by
    split_ifs <;> omega
  rw [currentLast_eq hlast hslot, toSize_natCast (Nat.lt_trans hslot (by decide))]

theorem Represents.le_currentLast
    (hslot : 2147483648 ≤ if q.writeIndex = 0 then q.size - 1 else q.writeIndex - 1) :
    4294967296 ≤ toSize q.currentLast := by
  have hsize := h.size_lt
  have h2 := h.two_le_size
  have hwrite := h.write_lt
  obtain ⟨kw, hw, _, _⟩ := i32_spec q.writeIndex
  obtain ⟨ks, hs, _, _⟩ := i32_spec ((q.size : ℤ) - 1)
  obtain ⟨kl, hl, _, _⟩ := i32_spec (i32 q.writeIndex - 1)
  have hneg : q.currentLast < 0 ∧ -2147483648 ≤ q.currentLast := by
    unfold currentLast
    split_ifs at hslot ⊢ <;> omega
  exact le_toSize_of_neg hneg.1 hneg.2

theorem Represents.currentLast_of_le (hsize : q.size ≤ 2147483648) :
    toSize q.currentLast = if q.writeIndex = 0 then q.size - 1 else q.writeIndex - 1 := by
  have h2 := h.two_le_size
  have hwrite := h.write_lt
  exact h.currentLast_of_slot (by split_ifs <;> omega)

theorem Represents.currentLast_of_lt (hlt : toSize q.currentLast < q.size) :
    toSize q.currentLast = if q.writeIndex = 0 then q.size - 1 else q.writeIndex - 1 := by
  refine h.currentLast_of_slot (Nat.lt_of_not_le fun hge => ?_)
  have hle := h.le_currentLast hge
  have hsize := h.size_lt
  omega

/-- What `back()` points to is the newest element, unless its signed index arithmetic
leaves the ring. -/
theorem Represents.back_sound {x : T} (hx : q.back.bind q.records = some x) :
    xs.getLast? = some x := by
  have hne : xs ≠ [] := by
    rintro rfl
    have := h.readIndex_eq_writeIndex_iff.mpr rfl
    simp [back, this] at hx
  have hrw : q.writeIndex ≠ q.readIndex := fun heq =>
    hne (h.readIndex_eq_writeIndex_iff.mp heq.symm)
  rw [back, if_neg hrw, Option.bind_some] at hx
  obtain ⟨i, hi, hix⟩ := (h.records_isSome_iff _).mp (by rw [hx]; rfl)
  have hlt := slot_lt h.read_lt (Nat.lt_trans hi h.length_lt)
  rw [← hix] at hlt
  rw [← h.records_back_slot hne, ← h.back_slot hne,
    ← h.currentLast_of_lt hlt, hx]

theorem Represents.back_eq (hsize : q.size ≤ 2147483648) (hne : xs ≠ []) :
    q.back = some (slot q.size q.readIndex (xs.length - 1)) := by
  have hrw : q.writeIndex ≠ q.readIndex := fun heq =>
    hne (h.readIndex_eq_writeIndex_iff.mp heq.symm)
  rw [back, if_neg hrw, ← h.back_slot hne, h.currentLast_of_le hsize]

theorem Represents.back_records (hsize : q.size ≤ 2147483648) :
    q.back.bind q.records = xs.getLast? := by
  by_cases hne : xs = []
  · subst hne
    have := h.readIndex_eq_writeIndex_iff.mpr rfl
    simp [back, this]
  · rw [h.back_eq hsize hne, Option.bind_some, h.records_back_slot hne]

/-- `back()` points to the newest element as long as its slot has a signed 32-bit index. -/
theorem Represents.back_records_iff (hne : xs ≠ []) :
    q.back.bind q.records = xs.getLast? ↔
      (if q.writeIndex = 0 then q.size - 1 else q.writeIndex - 1) < 2147483648 := by
  have hrw : q.writeIndex ≠ q.readIndex := fun heq =>
    hne (h.readIndex_eq_writeIndex_iff.mp heq.symm)
  constructor
  · intro hback
    rw [back, if_neg hrw, Option.bind_some, List.getLast?_eq_some_getLast hne] at hback
    obtain ⟨i, hi, hix⟩ := (h.records_isSome_iff _).mp (by rw [hback]; rfl)
    have hlt := slot_lt h.read_lt (Nat.lt_trans hi h.length_lt)
    rw [← hix] at hlt
    have hsize := h.size_lt
    by_contra hge
    have hle := h.le_currentLast (Nat.le_of_not_lt hge)
    omega
  · intro hslot
    rw [back, if_neg hrw, Option.bind_some, h.currentLast_of_slot hslot, h.back_slot hne,
      h.records_back_slot hne]

theorem Represents.popFront_eq (hne : xs ≠ []) : q.popFront = some q.dropFront := by
  have hrw : q.readIndex ≠ q.writeIndex := fun heq =>
    hne (h.readIndex_eq_writeIndex_iff.mp heq)
  rw [popFront, if_pos hrw]

end Observers

theorem Represents.pop_of_le {q : IterableQueueModel T} {xs : List T} (h : Represents q xs)
    {x : ℕ} (hx : x ≤ xs.length) :
    ∃ q', pop x q = some q' ∧ Represents q' (xs.drop x) ∧ q'.size = q.size := by
  induction x generalizing q xs with
  | zero => exact ⟨q, rfl, h, rfl⟩
  | succ x ih =>
    cases xs with
    | nil => cases hx
    | cons y ys =>
      obtain ⟨q', hq', hrep, hsize⟩ := ih h.dropFront (by simpa using hx)
      refine ⟨q', ?_, hrep, hsize⟩
      rw [pop, h.popFront_eq (List.cons_ne_nil _ _), Option.bind_some, hq']

theorem Represents.pop_of_lt {q : IterableQueueModel T} {xs : List T} (h : Represents q xs)
    {x : ℕ} (hx : xs.length < x) : pop x q = none := by
  induction x generalizing q xs with
  | zero => cases hx
  | succ x ih =>
    cases xs with
    | nil =>
      have hrw := h.readIndex_eq_writeIndex_iff.mpr rfl
      simp [pop, popFront, hrw]
    | cons y ys =>
      rw [pop, h.popFront_eq (List.cons_ne_nil _ _), Option.bind_some]
      exact ih h.dropFront (by simpa using hx)

section OneElement
variable {q : IterableQueueModel T} {xs : List T} (h : Represents q xs)
include h

theorem Represents.write_accepted {x : T} (hwrite : (q.write x).1 = true) :
    Represents (q.write x).2 (xs ++ [x]) := by
  rw [h.write_eq_ite] at hwrite ⊢
  split_ifs at hwrite ⊢ with hroom
  exact h.placeBack x hroom

theorem Represents.write_rejected {x : T} (hwrite : (q.write x).1 = false) :
    Represents (q.write x).2 xs := by
  rw [h.write_eq_ite] at hwrite ⊢
  split_ifs at hwrite ⊢
  exact h.overflow

theorem Represents.exists_write (x : T) : ∃ ys, Represents (q.write x).2 ys := by
  cases hwrite : (q.write x).1 with
  | true => exact ⟨_, h.write_accepted hwrite⟩
  | false => exact ⟨_, h.write_rejected hwrite⟩

theorem Represents.pop_one {q' : IterableQueueModel T} (hpop : pop 1 q = some q') :
    ∃ x ys, xs = x :: ys ∧ Represents q' ys := by
  cases xs with
  | nil =>
    rw [h.pop_of_lt (by simp)] at hpop
    cases hpop
  | cons x ys =>
    rw [pop, h.popFront_eq (List.cons_ne_nil _ _)] at hpop
    cases hpop
    exact ⟨x, ys, rfl, h.dropFront⟩

end OneElement

def HoldsNewestOf (q : IterableQueueModel T) (accepted : List T) : Prop :=
  ∃ xs, Represents q xs ∧ xs <:+ accepted

/-- The ring is not empty, and the slot before `writeIndex_` has a signed 32-bit index. -/
def BackReadable (q : IterableQueueModel T) : Prop :=
  q.isEmpty = false ∧ (if q.writeIndex = 0 then q.size - 1 else q.writeIndex - 1) < 2147483648

instance (q : IterableQueueModel T) : Decidable (BackReadable q) :=
  inferInstanceAs (Decidable (_ ∧ _))

theorem write_fst_iff {q : IterableQueueModel T} (x : T) :
    (q.write x).1 = true ↔ q.isFull = false := by
  rw [write, isFull]
  split_ifs <;> simp

section HoldsNewestOf
variable {q : IterableQueueModel T} {accepted : List T}

theorem Represents.holdsNewestOf {xs : List T} (h : Represents q xs) : HoldsNewestOf q xs :=
  ⟨xs, h, List.suffix_rfl⟩

theorem HoldsNewestOf.write_accepted (h : HoldsNewestOf q accepted) (x : T)
    (hwrite : (q.write x).1 = true) : HoldsNewestOf (q.write x).2 (accepted ++ [x]) := by
  obtain ⟨xs, hrep, before, hxs⟩ := h
  exact ⟨xs ++ [x], hrep.write_accepted hwrite, before, by rw [← hxs, List.append_assoc]⟩

theorem HoldsNewestOf.write_rejected (h : HoldsNewestOf q accepted) (x : T)
    (hwrite : (q.write x).1 = false) : HoldsNewestOf (q.write x).2 accepted := by
  obtain ⟨xs, hrep, hxs⟩ := h
  exact ⟨xs, hrep.write_rejected hwrite, hxs⟩

theorem HoldsNewestOf.pop (h : HoldsNewestOf q accepted) {q' : IterableQueueModel T}
    (hpop : IterableQueueModel.pop 1 q = some q') : HoldsNewestOf q' accepted := by
  obtain ⟨xs, hrep, hxs⟩ := h
  obtain ⟨x, ys, rfl, hrest⟩ := hrep.pop_one hpop
  exact ⟨ys, hrest, (List.suffix_cons x ys).trans hxs⟩

theorem HoldsNewestOf.back_iff {x : T} (h : HoldsNewestOf q (accepted ++ [x])) :
    q.back.bind q.records = some x ↔ BackReadable q := by
  obtain ⟨xs, hrep, before, hxs⟩ := h
  by_cases hne : xs = []
  · have hempty := hrep.isEmpty_iff.mpr hne
    have hback := hrep.readIndex_eq_writeIndex_iff.mpr hne
    simp [BackReadable, hempty, back, hback]
  · have hlast : xs.getLast? = some x := by
      have := congrArg List.getLast? hxs
      rwa [List.getLast?_append_of_ne_nil _ hne, List.getLast?_concat] at this
    have hnonempty : q.isEmpty = false := Bool.eq_false_iff.mpr fun h => hne (hrep.isEmpty_iff.mp h)
    rw [← hlast, hrep.back_records_iff hne, BackReadable, hnonempty]
    simp

end HoldsNewestOf

def filled (size : ℕ) (xs : List T) : IterableQueueModel T :=
  xs.foldl (fun q x => (q.write x).2) (fresh T size)

theorem Represents.writes {q : IterableQueueModel T} {xs : List T} (h : Represents q xs)
    (ys : List T) (hroom : xs.length + ys.length < q.size) :
    Represents (ys.foldl (fun q x => (q.write x).2) q) (xs ++ ys) := by
  induction ys generalizing q xs with
  | nil => rwa [List.append_nil]
  | cons y ys ih =>
    rw [List.length_cons] at hroom
    have hone : xs.length + 1 < q.size := by omega
    have hstep := h.placeBack y hone
    rw [List.foldl_cons, h.write_eq_ite, if_pos hone, ← List.singleton_append,
      ← List.append_assoc]
    exact ih hstep (by rw [List.length_append, List.length_singleton, placeBack_size]; omega)

theorem represents_filled {size : ℕ} (hsize : size < 4294967296) (xs : List T)
    (h2 : 2 ≤ size) (hroom : xs.length < size) : Represents (filled size xs) xs :=
  (represents_fresh h2 hsize).writes xs (by
    rw [List.length_nil, Nat.zero_add]
    exact hroom)

/-- A ring that holds `f 0`, ..., `f (length - 1)` from a given read index on. -/
def positioned (size readIndex length : ℕ) (f : ℕ → T) : IterableQueueModel T where
  size := size
  records := fun j =>
    if j < size ∧ distance size readIndex j < length then some (f (distance size readIndex j))
    else none
  readIndex := readIndex
  writeIndex := slot size readIndex length
  overflowCtr := 0

theorem represents_positioned {size readIndex length : ℕ} (f : ℕ → T) (h2 : 2 ≤ size)
    (hsize : size < 4294967296) (hread : readIndex < size) (hlength : length < size) :
    Represents (positioned size readIndex length f) ((List.range length).map f) where
  two_le_size := h2
  size_lt := hsize
  read_lt := hread
  length_lt := by
    rw [List.length_map, List.length_range]
    exact hlength
  write_eq := by rw [List.length_map, List.length_range]; rfl
  stored := by
    intro i hi
    rw [List.length_map, List.length_range] at hi
    have hin := Nat.lt_trans hi hlength
    simp only [positioned, List.getElem_map, List.getElem_range]
    rw [distance_slot hread hin, if_pos ⟨slot_lt hread hin, hi⟩]
  free := by
    intro j hj
    rw [List.length_map, List.length_range] at hj
    refine if_neg fun hlive => ?_
    exact hj _ hlive.2 (slot_distance hread hlive.1).symm

end DataHandling.IterableQueueModel
