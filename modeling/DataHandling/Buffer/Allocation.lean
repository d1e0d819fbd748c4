import DataHandling.Foundation.Execution
import DataHandling.Foundation.MachineInt
import DataHandling.Foundation.TaggedHeap

/-! The memory of an `IterableQueueModel` through its configurations: how it is allocated, and how
it is freed. The build has libnuma. -/

namespace DataHandling
open MachineInt

/-- The free functions; `std::free` is that of `std::malloc` and `std::aligned_alloc`. -/
inductive Deallocator where
  | stdFree
  | mmFree
  | numaFree
  deriving DecidableEq

/-- `sizeof(T)`, and `std::is_trivially_destructible<T>`. -/
structure ElementType where
  elementSize : ℕ
  triviallyDestructible : Bool
  elementSize_lt : elementSize < 9223372036854775808

/-- What `conf` reads. -/
structure QueueMemoryConf where
  size : ℕ
  numaAware : Bool
  numaNode : UInt8
  intrinsicAllocator : Bool
  alignmentSize : ℕ
  two_le_size : 2 ≤ size

inductive CommandOutcome where
  | constructed
  | returned
  | threw
  | scrapped
  | destroyed
  deriving DecidableEq

/-- The members that manage the memory; `records_` is null or somewhere in the heap. -/
structure QueueMemory where
  heap : TaggedHeap Deallocator
  records : Option ℕ
  size : ℕ
  numaAware : Bool
  numaNode : UInt8
  intrinsicAllocator : Bool
  alignmentSize : ℕ
  readIndex : ℕ
  writeIndex : ℕ
  outcome : CommandOutcome

/-- A command, with a flag that tells whether its allocation succeeds, or the elements move while
the queue is in use. -/
inductive MemoryAction where
  | conf (cfg : QueueMemoryConf) (succeeds : Bool)
  | scrap (succeeds : Bool)
  | operate (readIndex writeIndex : ℕ)
  | destroy

def deallocator (numaAware intrinsicAllocator : Bool) : Deallocator :=
  if intrinsicAllocator then .mmFree else if numaAware then .numaFree else .stdFree

def QueueMemoryConf.allocator (cfg : QueueMemoryConf) : Option Deallocator :=
  if cfg.numaAware && decide (cfg.numaNode < 8) then some .numaFree
  else if cfg.intrinsicAllocator && decide (0 < cfg.alignmentSize) then some .mmFree
  else if !cfg.intrinsicAllocator && decide (0 < cfg.alignmentSize) then some .stdFree
  else if !cfg.numaAware && !cfg.intrinsicAllocator && decide (cfg.alignmentSize = 0) then
    some .stdFree
  else none

namespace QueueMemory
variable (type : ElementType)

def bytesOf (n : ℕ) : ℕ := type.elementSize * n % 18446744073709551616

def mallocTwo (s : QueueMemory) (succeeds : Bool) : QueueMemory :=
  if succeeds then
    { s with
      records := some (s.heap.alloc .stdFree (bytesOf type 2)).1
      heap := (s.heap.alloc .stdFree (bytesOf type 2)).2 }
  else { s with records := none }

def init (succeeds : Bool) : QueueMemory :=
  mallocTwo type
    { heap := .empty
      records := none
      size := 2
      numaAware := false
      numaNode := 0
      intrinsicAllocator := false
      alignmentSize := 0
      readIndex := 0
      writeIndex := 0
      outcome := .constructed } succeeds

def destructElements (s : QueueMemory) : TaggedHeap Deallocator :=
  if type.triviallyDestructible ∨ s.readIndex = s.writeIndex then s.heap
  else match s.records with
    | some p => s.heap.access p
    | none => { s.heap with sound := false }

def freeMemory (s : QueueMemory) : QueueMemory :=
  let heap := s.destructElements type
  { s with
    heap := match s.records with
      | none => heap
      | some p =>
        if s.intrinsicAllocator then heap.release p .mmFree none
        else if s.numaAware then heap.release p .numaFree (some (bytesOf type s.size))
        else heap.release p .stdFree none }

def allocateMemory (s : QueueMemory) (cfg : QueueMemoryConf) (succeeds : Bool) : QueueMemory :=
  { s with
    heap := match cfg.allocator with
      | some tag => if succeeds then (s.heap.alloc tag (bytesOf type cfg.size)).2 else s.heap
      | none => s.heap
    records := match cfg.allocator with
      | some tag => if succeeds then some (s.heap.alloc tag (bytesOf type cfg.size)).1 else none
      -- "Let it fail"
      | none => s.records
    size := u32 cfg.size
    numaAware := cfg.numaAware
    numaNode := cfg.numaNode
    intrinsicAllocator := cfg.intrinsicAllocator
    alignmentSize := cfg.alignmentSize }

def conf (s : QueueMemory) (cfg : QueueMemoryConf) (succeeds : Bool) : QueueMemory :=
  let s := (s.freeMemory type).allocateMemory type cfg succeeds
  { s with
    readIndex := 0
    writeIndex := 0
    outcome := if s.records.isNone then .threw else .returned }

def scrap (s : QueueMemory) (succeeds : Bool) : QueueMemory :=
  mallocTwo type
    { s.freeMemory type with
      numaAware := false
      numaNode := 0
      intrinsicAllocator := false
      alignmentSize := 0
      size := 2
      readIndex := 0
      writeIndex := 0
      outcome := .scrapped } succeeds

def step (s : QueueMemory) (a : MemoryAction) : Option QueueMemory :=
  if s.outcome = .destroyed then none
  else match a with
    | .conf cfg succeeds => some (s.conf type cfg succeeds)
    | .scrap succeeds => some (s.scrap type succeeds)
    | .operate readIndex writeIndex =>
      s.records.bind fun p =>
        if readIndex < s.size ∧ writeIndex < s.size then
          some { s with heap := s.heap.access p, readIndex := readIndex, writeIndex := writeIndex }
        else none
    | .destroy => some { s.freeMemory type with outcome := .destroyed }

/-- Nothing is accessed or released that is not there, no block is released twice, a configuration
that returns leaves a live block that is large enough and will be freed in its own way, and in the
end every block has been released once. -/
structure Consistent (s : QueueMemory) : Prop where
  sound : s.heap.sound = true
  once : ∀ b ∈ s.heap.blocks, b.releases ≤ 1
  usable : s.outcome = .returned → ∃ p block, s.records = some p ∧
    s.heap.blocks[p]? = some block ∧ block.releases = 0 ∧
      block.tag = deallocator s.numaAware s.intrinsicAllocator ∧
        type.elementSize * s.size ≤ block.bytes
  released : s.outcome = .destroyed → s.heap.AllReleased

/-- The size fits what is asked of the allocator, and of `numa_free` later. -/
def SizeFits (size : ℕ) (tag : Deallocator) : Prop :=
  type.elementSize * u32 size ≤ bytesOf type size ∧
    (tag = .numaFree → bytesOf type (u32 size) = bytesOf type size)

/-- The selected allocator goes with the flags, or its allocation fails; without one there is no
memory from before. -/
def Selects (s : QueueMemory) (cfg : QueueMemoryConf) (succeeds : Bool) :
    Option Deallocator → Prop
  | some tag => succeeds = true →
    tag = deallocator cfg.numaAware cfg.intrinsicAllocator ∧ SizeFits type cfg.size tag
  | none => s.records = none

def MeetsAllocator (s : QueueMemory) : MemoryAction → Prop
  | .conf cfg succeeds => Selects type s cfg succeeds cfg.allocator
  | _ => True

instance (size : ℕ) (tag : Deallocator) : Decidable (SizeFits type size tag) :=
  inferInstanceAs (Decidable (_ ∧ _))

instance (s : QueueMemory) (cfg : QueueMemoryConf) (succeeds : Bool) :
    ∀ allocator, Decidable (Selects type s cfg succeeds allocator)
  | some _ => inferInstanceAs (Decidable (_ → _))
  | none => inferInstanceAs (Decidable (_ = _))

instance (s : QueueMemory) : ∀ a, Decidable (MeetsAllocator type s a)
  | .conf _ _ => inferInstanceAs (Decidable (Selects ..))
  | .scrap _ | .operate _ _ | .destroy => .isTrue trivial

theorem sizeFits_of_lt {size : ℕ} (helement : type.elementSize < 4294967296)
    (hsize : size < 4294967296) (tag : Deallocator) : SizeFits type size tag := by
  have hmul : type.elementSize * size < 18446744073709551616 :=
    Nat.mul_lt_mul'' helement hsize
  rw [SizeFits, u32_of_lt hsize, bytesOf, Nat.mod_eq_of_lt hmul]
  exact ⟨Nat.le_refl _, fun _ => rfl⟩

/-- The block at `records_`, or nothing, is all that has not been released. -/
def Held (s : QueueMemory) : Prop :=
  match s.records with
  | none => s.heap.AllReleased ∧ s.readIndex = s.writeIndex
  | some p => ∃ block, s.heap.Only p block ∧
      block.tag = deallocator s.numaAware s.intrinsicAllocator ∧
        type.elementSize * s.size ≤ block.bytes ∧
          (block.tag = .numaFree → bytesOf type s.size = block.bytes)

structure Owned (s : QueueMemory) : Prop where
  sound : s.heap.sound = true
  held : s.outcome ≠ .destroyed → Held type s
  released : s.outcome = .destroyed → s.heap.AllReleased
  returned : s.outcome = .returned → s.records.isSome

section Steps
variable {type} {s s' : QueueMemory}

theorem Owned.consistent (h : Owned type s) : Consistent type s := by
  refine ⟨h.sound, ?_, ?_, h.released⟩
  · by_cases hdestroyed : s.outcome = .destroyed
    · exact (h.released hdestroyed).releases_le
    · have hheld := h.held hdestroyed
      unfold Held at hheld
      split at hheld
      · exact hheld.1.releases_le
      · obtain ⟨block, honly, -⟩ := hheld
        exact honly.releases_le
  · intro hreturned
    have hheld := h.held (by rw [hreturned]; exact nofun)
    obtain ⟨p, hp⟩ := Option.isSome_iff_exists.mp (h.returned hreturned)
    rw [Held, hp] at hheld
    obtain ⟨block, honly, htag, hbytes, -⟩ := hheld
    exact ⟨p, block, hp, honly.block_eq, honly.live, htag, hbytes⟩

theorem Held.destructElements (h : Held type s) : s.destructElements type = s.heap := by
  unfold QueueMemory.destructElements
  split_ifs with hnone
  · rfl
  · unfold Held at h
    split at h
    · exact absurd (.inr h.2) hnone
    · next p hp =>
      obtain ⟨block, honly, -⟩ := h
      rw [hp]
      exact honly.access

theorem Owned.freeMemory (h : Owned type s) (hnot : s.outcome ≠ .destroyed) :
    (s.freeMemory type).heap.AllReleased ∧ (s.freeMemory type).heap.sound = true := by
  have hheld := h.held hnot
  simp only [QueueMemory.freeMemory, hheld.destructElements]
  unfold Held at hheld
  split at hheld
  · exact ⟨hheld.1, h.sound⟩
  · obtain ⟨block, honly, htag, -, hbytes⟩ := hheld
    unfold deallocator at htag
    split_ifs with hintrinsic hnuma
    · rw [if_pos hintrinsic] at htag
      exact (honly.release htag fun n hn => absurd hn (Option.not_mem_none n)).imp id
        fun hsound => hsound.trans h.sound
    · rw [if_neg hintrinsic, if_pos hnuma] at htag
      refine (honly.release htag fun n hn => ?_).imp id fun hsound => hsound.trans h.sound
      rw [← Option.some.inj hn]
      exact hbytes htag
    · rw [if_neg hintrinsic, if_neg hnuma] at htag
      exact (honly.release htag fun n hn => absurd hn (Option.not_mem_none n)).imp id
        fun hsound => hsound.trans h.sound

theorem mul_two_le_bytesOf : type.elementSize * 2 ≤ bytesOf type 2 := by
  have hlt := type.elementSize_lt
  rw [bytesOf, Nat.mod_eq_of_lt (by omega)]

theorem owned_mallocTwo (hreleased : s.heap.AllReleased) (hsound : s.heap.sound = true)
    (hsize : s.size = 2) (hnuma : s.numaAware = false) (hintrinsic : s.intrinsicAllocator = false)
    (hindex : s.readIndex = s.writeIndex) (hnot : s.outcome ≠ .destroyed)
    (hreturned : s.outcome ≠ .returned) (succeeds : Bool) :
    Owned type (s.mallocTwo type succeeds) := by
  cases succeeds with
  | false =>
    exact ⟨hsound, fun _ => ⟨hreleased, hindex⟩, fun h => absurd h hnot,
      fun h => absurd h hreturned⟩
  | true =>
    refine ⟨hsound, fun _ => ?_, fun h => absurd h hnot, fun h => absurd h hreturned⟩
    refine ⟨_, hreleased.alloc .stdFree (bytesOf type 2), ?_, ?_, nofun⟩
    · simp only [mallocTwo, hnuma, hintrinsic]
      rfl
    · simp only [mallocTwo, hsize]
      exact mul_two_le_bytesOf

theorem owned_init (succeeds : Bool) : Owned type (init type succeeds) := by
  apply owned_mallocTwo
  · exact TaggedHeap.allReleased_empty
  all_goals first | rfl | exact nofun

theorem Owned.scrap (h : Owned type s) (hnot : s.outcome ≠ .destroyed) (succeeds : Bool) :
    Owned type (s.scrap type succeeds) := by
  obtain ⟨hreleased, hsound⟩ := h.freeMemory hnot
  apply owned_mallocTwo
  · exact hreleased
  · exact hsound
  all_goals first | rfl | exact nofun

theorem Owned.conf (h : Owned type s) (hnot : s.outcome ≠ .destroyed) {cfg : QueueMemoryConf}
    {succeeds : Bool} (hmeets : MeetsAllocator type s (.conf cfg succeeds)) :
    Owned type (s.conf type cfg succeeds) := by
  obtain ⟨hreleased, hsound⟩ := h.freeMemory hnot
  have hrecords : (s.freeMemory type).records = s.records := rfl
  have houtcome : (s.conf type cfg succeeds).outcome ≠ .destroyed := by
    simp only [QueueMemory.conf]
    split_ifs <;> exact nofun
  have hreturned : (s.conf type cfg succeeds).outcome = .returned →
      (s.conf type cfg succeeds).records.isSome := by
    simp only [QueueMemory.conf]
    split_ifs with hnone
    · exact nofun
    · intro _
      rwa [Option.isNone_iff_eq_none, ← ne_eq, ← Option.isSome_iff_ne_none] at hnone
  have hallocated : (s.conf type cfg succeeds).heap.sound = true := by
    simp only [QueueMemory.conf, allocateMemory]
    split
    · split_ifs <;> exact hsound
    · exact hsound
  refine ⟨hallocated, fun _ => ?_, fun hd => absurd hd houtcome, hreturned⟩
  rw [MeetsAllocator] at hmeets
  cases hallocator : cfg.allocator with
  | none =>
    rw [hallocator, Selects] at hmeets
    simp only [Held, QueueMemory.conf, allocateMemory, hallocator, hrecords, hmeets]
    exact ⟨hreleased, trivial⟩
  | some tag =>
    rw [hallocator, Selects] at hmeets
    cases succeeds with
    | false =>
      simp only [Held, QueueMemory.conf, allocateMemory, hallocator]
      exact ⟨hreleased, trivial⟩
    | true =>
      obtain ⟨htag, hbytes, hlength⟩ := hmeets rfl
      simp only [Held, QueueMemory.conf, allocateMemory, hallocator]
      exact ⟨_, hreleased.alloc tag (bytesOf type cfg.size), htag, hbytes, hlength⟩

theorem Owned.step (h : Owned type s) {a : MemoryAction} (hmeets : MeetsAllocator type s a)
    (hs : step type s a = some s') : Owned type s' := by
  unfold QueueMemory.step at hs
  split_ifs at hs with hnot
  cases a with
  | conf cfg succeeds =>
    obtain rfl := Option.some.inj hs
    exact h.conf hnot hmeets
  | scrap succeeds =>
    obtain rfl := Option.some.inj hs
    exact h.scrap hnot succeeds
  | operate readIndex writeIndex =>
    obtain ⟨p, hp, hmove⟩ := Option.bind_eq_some_iff.mp hs
    split_ifs at hmove
    obtain rfl := Option.some.inj hmove
    have hheld := h.held hnot
    rw [Held, hp] at hheld
    obtain ⟨block, honly, hrest⟩ := hheld
    rw [honly.access]
    refine ⟨h.sound, fun _ => ?_, h.released, h.returned⟩
    rw [Held, hp]
    exact ⟨block, honly, hrest⟩
  | destroy =>
    obtain rfl := Option.some.inj hs
    obtain ⟨hreleased, hsound⟩ := h.freeMemory hnot
    exact ⟨hsound, fun hd => absurd rfl hd, fun _ => hreleased, nofun⟩

end Steps

/-- Over every sequence of commands, with allocations that succeed or fail as they like, the memory
stays consistent as long as the configurations meet the condition. -/
theorem run_consistent (succeeds : Bool) (actions : List MemoryAction) (s : QueueMemory)
    (hmeets : Execution.StepsMeet (step type) (MeetsAllocator type) (init type succeeds) actions)
    (hrun : Execution.run (step type) (init type succeeds) actions = some s) :
    Consistent type s :=
  (Execution.run_invariant_of_stepsMeet (I := Owned type)
    (fun _ _ _ h hmeet hs => h.step hmeet hs) (owned_init succeeds) hmeets hrun).consistent

def frames : ElementType := ⟨464, true, by decide⟩

def reconfigured : List MemoryAction :=
  [.conf ⟨256, true, 1, false, 0, by decide⟩ true, .operate 3 7,
    .conf ⟨512, false, 0, false, 4096, by decide⟩ false,
    .conf ⟨256, false, 0, true, 4096, by decide⟩ true, .scrap true, .destroy]

theorem run_consistent_reconfigured :
    Consistent frames ((Execution.run (step frames) (init frames true) reconfigured).get
      (by decide +kernel)) :=
  run_consistent frames true reconfigured _
    (Execution.stepsMeet_of_checkSteps (fun _ _ => of_decide_eq_true)
      (by decide +kernel : Execution.checkSteps (step frames)
        (fun s a => decide (MeetsAllocator frames s a)) (init frames true) reconfigured = true))
    (Option.some_get _).symm

/-- The intrinsic allocator without an alignment: the memory freed before stays in use, and is freed
again. -/
theorem not_consistent_of_unaligned :
    ¬ ∀ (actions : List MemoryAction) (s : QueueMemory),
      Execution.run (step frames) (init frames true) actions = some s → Consistent frames s := by
  intro hall
  have hconsistent := hall [.conf ⟨256, false, 0, true, 0, by decide⟩ true, .destroy] _
    (Option.some_get (by decide +kernel)).symm
  exact absurd hconsistent.sound (by decide +kernel)

end QueueMemory
end DataHandling
