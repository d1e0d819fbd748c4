import DataHandling.Emulator.SourceEmulator

/-! Which bytes of its file the emulator sends: the elements in turn, whatever is dropped, as long
as there is one. -/

namespace DataHandling
open MachineInt

namespace EmulatorConf
variable (conf : EmulatorConf)

def element (i : ℕ) : List UInt8 :=
  (conf.source.drop (i * conf.readoutType.sizeOf)).take conf.readoutType.sizeOf

/-- The source is what `read` has accepted, with the size of the readout type as the chunk size. -/
def Accepts (file : List UInt8) : Prop :=
  ∃ inputLimit warnings,
    (FileSourceBuffer.create inputLimit conf.readoutType.sizeOf).read (some file) =
      some (conf.fileSource, warnings)

def creates (i : ℕ) : Bool := conf.dropouts.getD (i % conf.dropouts.length) false

variable {conf} {file : List UInt8} {offset : ℕ}

theorem Accepts.source_eq (h : conf.Accepts file) : conf.source = file := by
  obtain ⟨inputLimit, warnings, hread⟩ := h
  rw [source, ← (Prod.mk.inj (Option.some.inj hread)).1]
  exact List.append_nil _

theorem Accepts.numElements_eq (h : conf.Accepts file) :
    conf.fileSource.numElements = i32 ((file.length / conf.readoutType.sizeOf : ℕ) : ℤ) := by
  obtain ⟨inputLimit, warnings, hread⟩ := h
  have hpos : (conf.readoutType.sizeOf : ℤ) > 0 := Int.ofNat_lt.mpr conf.readoutType.sizeOf_pos
  rw [← (Prod.mk.inj (Option.some.inj hread)).1]
  exact if_pos hpos

theorem Accepts.numElem_eq (h : conf.Accepts file) :
    conf.numElem = file.length / conf.readoutType.sizeOf % 4294967296 := by
  obtain ⟨k, hk, _, _⟩ := i32_spec ((file.length / conf.readoutType.sizeOf : ℕ) : ℤ)
  rw [numElem, h.numElements_eq]
  omega

theorem Accepts.numElements_eq_zero_iff (h : conf.Accepts file) :
    conf.fileSource.numElements = 0 ↔ conf.numElem = 0 := by
  obtain ⟨k, hk, _, _⟩ := i32_spec ((file.length / conf.readoutType.sizeOf : ℕ) : ℤ)
  rw [numElem, h.numElements_eq]
  omega

theorem Accepts.numElem_mul_le (h : conf.Accepts file) :
    conf.numElem * conf.readoutType.sizeOf ≤ conf.source.length := by
  rw [h.numElem_eq, h.source_eq]
  exact Nat.le_trans (Nat.mul_le_mul_right _ (Nat.mod_le _ _)) (Nat.div_mul_le_self _ _)

theorem element_end_le (hfits : conf.numElem * conf.readoutType.sizeOf ≤ conf.source.length)
    (hlt : offset < conf.numElem) : (offset + 1) * conf.readoutType.sizeOf ≤ conf.source.length :=
  Nat.le_trans (Nat.mul_le_mul_right _ hlt) hfits

/-- Behind the last element the next one is the first again. The comparison with the size of the
file never makes a difference. -/
theorem nextOffset_eq (hfits : conf.numElem * conf.readoutType.sizeOf ≤ conf.source.length)
    (hfile : conf.source.length < 2 ^ 63) (h32 : conf.numElem < 4294967296)
    (hle : offset ≤ conf.numElem) :
    conf.nextOffset offset = if offset = conf.numElem then 0 else offset := by
  rw [nextOffset]
  by_cases hend : offset = conf.numElem
  · rw [if_pos (.inl hend), if_pos hend]
  · have hlt : offset < conf.numElem := Nat.lt_of_le_of_ne hle hend
    have hin := element_end_le hfits hlt
    have hfit : u64 (u32 (offset + 1) * conf.readoutType.sizeOf) =
        (offset + 1) * conf.readoutType.sizeOf := by
      rw [u32_of_lt (by omega), u64_of_lt (by omega)]
    rw [if_neg (not_or_intro hend (by rw [hfit]; exact Nat.not_lt.mpr hin)), if_neg hend]

end EmulatorConf

namespace SourceEmulator
variable {conf : EmulatorConf} {s : SourceEmulator}

/-- All payloads are copied from inside the file, each from the next element in turn, and nothing
is sent if there is no element. -/
structure Replays (conf : EmulatorConf) (s : SourceEmulator) : Prop where
  inBounds : ∀ p ∈ s.sent, p.start + conf.readoutType.sizeOf ≤ conf.source.length
  cyclic : ∀ k p, s.sent[k]? = some p → p.copied = conf.element (k % conf.numElem)
  nothing : conf.fileSource.numElements = 0 → s.sent = []

structure Replaying (conf : EmulatorConf) (s : SourceEmulator) : Prop where
  offset_le : s.offset ≤ conf.numElem
  offset_mod : s.offset % conf.numElem = s.sent.length % conf.numElem
  inBounds : ∀ p ∈ s.sent, p.start + conf.readoutType.sizeOf ≤ conf.source.length
  cyclic : ∀ k p, s.sent[k]? = some p → p.copied = conf.element (k % conf.numElem)

section Steps

theorem frame_of_dropped (h : conf.dropouts.getD s.dropoutIndex false = false) :
    s.frame conf = { s with
      offset := conf.nextOffset s.offset
      dropoutIndex := (s.dropoutIndex + 1) % conf.dropouts.length } :=
  if_neg (Bool.eq_false_iff.mp h)

theorem frame_of_created (h : conf.dropouts.getD s.dropoutIndex false = true) :
    s.frame conf = { s with
      offset := conf.nextOffset s.offset
      dropoutIndex := (s.dropoutIndex + 1) % conf.dropouts.length }.sendElement conf
        (conf.nextOffset s.offset) := if_pos h

theorem frame_dropoutIndex :
    (s.frame conf).dropoutIndex = (s.dropoutIndex + 1) % conf.dropouts.length := by
  cases h : conf.dropouts.getD s.dropoutIndex false with
  | false => rw [frame_of_dropped h]
  | true => rw [frame_of_created h]; rfl

theorem frame_sent_eq_nil_iff : (s.frame conf).sent = [] ↔
    s.sent = [] ∧ conf.dropouts.getD s.dropoutIndex false = false := by
  cases h : conf.dropouts.getD s.dropoutIndex false with
  | false =>
    rw [frame_of_dropped h]
    exact (and_iff_left rfl).symm
  | true =>
    rw [frame_of_created h]
    exact iff_of_false (List.append_ne_nil_of_right_ne_nil _ (List.cons_ne_nil _ _)) (by simp)

theorem frames_sent_eq_nil_iff {i : ℕ} (hindex : s.dropoutIndex = i % conf.dropouts.length)
    (n : ℕ) : (s.frames conf n).dropoutIndex = (i + n) % conf.dropouts.length ∧
      ((s.frames conf n).sent = [] ↔ s.sent = [] ∧ ∀ j < n, conf.creates (i + j) = false) := by
  induction n generalizing s i with
  | zero => exact ⟨hindex, (and_iff_left nofun).symm⟩
  | succ n ih =>
    have hnext : (s.frame conf).dropoutIndex = (i + 1) % conf.dropouts.length := by
      rw [frame_dropoutIndex, hindex, Nat.mod_add_mod]
    obtain ⟨hlast, hsent⟩ := ih hnext
    refine ⟨by rw [frames, hlast, Nat.add_right_comm, Nat.add_assoc], ?_⟩
    rw [frames, hsent, frame_sent_eq_nil_iff, hindex, and_assoc]
    refine and_congr_right fun _ => ⟨fun h j hj => ?_, fun h => ⟨h 0 (Nat.succ_pos n), ?_⟩⟩
    · cases j with
      | zero => exact h.1
      | succ j =>
        rw [← Nat.add_assoc, Nat.add_right_comm]
        exact h.2 j (Nat.lt_of_succ_lt_succ hj)
    · intro j hj
      rw [Nat.add_right_comm]
      exact h (j + 1) (Nat.succ_lt_succ hj)

theorem runProduce_sent_eq_nil_iff {i : ℕ} (hindex : s.dropoutIndex = i % conf.dropouts.length)
    (n : ℕ) : (s.runProduce conf n).sent = [] ↔
      s.sent = [] ∧ ∀ j < n * conf.framesPerTick.toNat, conf.creates (i + j) = false := by
  induction n generalizing s i with
  | zero => exact (and_iff_left fun j hj => absurd hj (by omega)).symm
  | succ n ih =>
    obtain ⟨hlast, hsent⟩ := frames_sent_eq_nil_iff hindex conf.framesPerTick.toNat
    have hnext : (s.tick conf).dropoutIndex =
        (i + conf.framesPerTick.toNat) % conf.dropouts.length := hlast
    have htick : (s.tick conf).sent = (s.frames conf conf.framesPerTick.toNat).sent := rfl
    rw [runProduce, ih hnext, htick, hsent, and_assoc, Nat.succ_mul]
    refine and_congr_right fun _ => ⟨fun h j hj => ?_, fun h => ⟨fun j hj => h j (by omega), ?_⟩⟩
    · rcases Nat.lt_or_ge j conf.framesPerTick.toNat with hlt | hge
      · exact h.1 j hlt
      · have hrest := h.2 (j - conf.framesPerTick.toNat) (by omega)
        rwa [Nat.add_assoc, Nat.add_sub_cancel' hge] at hrest
    · intro j hj
      rw [Nat.add_assoc]
      exact h (conf.framesPerTick.toNat + j) (by omega)

end Steps

section Invariant
variable (hfits : conf.numElem * conf.readoutType.sizeOf ≤ conf.source.length)
  (hfile : conf.source.length < 2 ^ 63) (hpos : 0 < conf.numElem) (h32 : conf.numElem < 4294967296)
include hfits hfile hpos h32

theorem Replaying.nextOffset (h : Replaying conf s) :
    conf.nextOffset s.offset < conf.numElem ∧
      conf.nextOffset s.offset = s.sent.length % conf.numElem := by
  rw [EmulatorConf.nextOffset_eq hfits hfile h32 h.offset_le, ← h.offset_mod]
  split_ifs with hend
  · exact ⟨hpos, by rw [hend, Nat.mod_self]⟩
  · have hlt := Nat.lt_of_le_of_ne h.offset_le hend
    exact ⟨hlt, (Nat.mod_eq_of_lt hlt).symm⟩

theorem Replaying.frame (h : Replaying conf s) : Replaying conf (s.frame conf) := by
  obtain ⟨hlt, hmod⟩ := h.nextOffset hfits hfile hpos h32
  cases hcreate : conf.dropouts.getD s.dropoutIndex false with
  | false =>
    rw [frame_of_dropped hcreate]
    refine ⟨Nat.le_of_lt hlt, ?_, h.inBounds, h.cyclic⟩
    exact (congrArg (· % conf.numElem) hmod).trans (Nat.mod_mod _ _)
  | true =>
    have hin := EmulatorConf.element_end_le hfits hlt
    have hmul : conf.nextOffset s.offset * conf.readoutType.sizeOf + conf.readoutType.sizeOf ≤
        conf.source.length := by rwa [← Nat.succ_mul]
    have hstart : conf.elementStart (conf.nextOffset s.offset) =
        conf.nextOffset s.offset * conf.readoutType.sizeOf := u64_of_lt (by omega)
    have hnext : u32 (conf.nextOffset s.offset + 1) = conf.nextOffset s.offset + 1 :=
      u32_of_lt (by omega)
    rw [frame_of_created hcreate]
    refine ⟨?_, ?_, ?_, ?_⟩
    · exact Nat.le_trans (Nat.le_of_eq hnext) hlt
    · simp only [sendElement, hnext, List.length_append, List.length_singleton]
      rw [hmod, Nat.mod_add_mod]
    · intro p hp
      rcases List.mem_append.mp hp with hold | hnew
      · exact h.inBounds p hold
      · rw [List.mem_singleton.mp hnew]
        exact Nat.le_trans (Nat.le_of_eq (congrArg (· + _) hstart)) hmul
    · intro k p hp
      rcases Nat.lt_trichotomy k s.sent.length with hk | rfl | hk
      · rw [sendElement, List.getElem?_append_left hk] at hp
        exact h.cyclic k p hp
      · rw [sendElement, List.getElem?_append_right (Nat.le_refl _), Nat.sub_self] at hp
        cases hp
        change List.take _ (List.drop (conf.elementStart (conf.nextOffset s.offset)) _) = _
        rw [hstart, hmod]
        rfl
      · rw [sendElement, List.getElem?_eq_none (by simp; omega)] at hp
        cases hp

theorem Replaying.frames (h : Replaying conf s) (n : ℕ) : Replaying conf (s.frames conf n) := by
  induction n generalizing s with
  | zero => exact h
  | succ n ih => exact ih (h.frame hfits hfile hpos h32)

theorem Replaying.runProduce (h : Replaying conf s) (n : ℕ) :
    Replaying conf (s.runProduce conf n) := by
  induction n generalizing s with
  | zero => exact h
  | succ n ih =>
    have hframes := h.frames hfits hfile hpos h32 conf.framesPerTick.toNat
    exact ih ⟨hframes.offset_le, hframes.offset_mod, hframes.inBounds, hframes.cyclic⟩

end Invariant

/-- The emulator replays any accepted file cyclically and in bounds, with any dropout pattern, just
if there is an element in the file or no frame is created. -/
theorem runProduce_replays_iff (conf : EmulatorConf) (file : List UInt8)
    (haccepts : conf.Accepts file)
    (hfile : file.length < 2 ^ 63) (now : Option UInt64) (errors : ErrorBitGenerator)
    (patterns : PatternGenerator) (previousTs : UInt64) (n : ℕ) :
    Replays conf ((init conf now errors patterns previousTs).runProduce conf n) ↔
      conf.fileSource.numElements ≠ 0 ∨
        ∀ i < n * conf.framesPerTick.toNat, conf.creates i = false := by
  have hindex : (init conf now errors patterns previousTs).dropoutIndex =
      0 % conf.dropouts.length := (Nat.zero_mod _).symm
  have hsent := runProduce_sent_eq_nil_iff hindex n
  simp only [Nat.zero_add] at hsent
  constructor
  · intro h
    by_cases hzero : conf.fileSource.numElements = 0
    · exact .inr (hsent.mp (h.nothing hzero)).2
    · exact .inl hzero
  · rintro (helements | hdropped)
    · have hpos : 0 < conf.numElem :=
        Nat.pos_of_ne_zero fun hzero => helements (haccepts.numElements_eq_zero_iff.mpr hzero)
      have h32 : conf.numElem < 4294967296 := by
        rw [haccepts.numElem_eq]
        exact Nat.mod_lt _ (by decide)
      have hinit : Replaying conf (init conf now errors patterns previousTs) :=
        ⟨Nat.zero_le _, rfl, nofun, nofun⟩
      have hrun := hinit.runProduce haccepts.numElem_mul_le (haccepts.source_eq ▸ hfile) hpos h32 n
      exact ⟨hrun.inBounds, hrun.cyclic, fun hzero => absurd hzero helements⟩
    · have hnil := hsent.mpr ⟨rfl, hdropped⟩
      refine ⟨?_, ?_, fun _ => hnil⟩
      · rw [hnil]
        nofun
      · rw [hnil]
        nofun

section Words

def wordType : EmulatedType where
  sizeOf := 2
  sizeOf_pos := by decide
  sizeOf_lt := by decide
  getTimestamp bytes := (bytes.headD 0).toUInt64
  getNumFrames _ := 1
  fakeTimestamps timestamp _ bytes := timestamp.toUInt8 :: bytes.tail
  fakeGeoid _ _ _ bytes := bytes
  fakeFrameErrors _ bytes := bytes
  fakeAdcPattern _ _ := none

def wordConf (file : List UInt8) (dropouts : List Bool) (hne : dropouts ≠ []) : EmulatorConf where
  readoutType := wordType
  fileSource := ⟨0, 2, file.length / 2, file⟩
  dropouts := dropouts
  dropouts_ne := hne
  framesPerTick := 2
  timeTickDiff := 25
  crateid := 0
  slotid := 0
  linkid := 0
  generatePeriodicAdcPattern := false
  timeToWait := 9768

def noErrors : ErrorBitGenerator := .generated ⟨fun _ => 0, fun _ => 0, fun _ => 0⟩

def oddConf : EmulatorConf := wordConf [1, 2, 3, 4, 5] [true, true, false] (by decide)

def shortConf : EmulatorConf := wordConf [1] [true] (by decide)

theorem runProduce_replays_iff_odd :
    Replays oddConf ((init oddConf none noErrors ⟨[], 0⟩ 0).runProduce oddConf 4) :=
  (runProduce_replays_iff oddConf [1, 2, 3, 4, 5] ⟨0, _, rfl⟩ (by decide) none noErrors
    ⟨[], 0⟩ 0 4).mpr (.inl (by decide))

/-- Two bytes are copied from a file of one byte, for every payload. -/
theorem not_replays_of_short :
    ¬ Replays shortConf ((init shortConf none noErrors ⟨[], 0⟩ 0).runProduce shortConf 1) := by
  intro h
  have hnothing := congrArg List.length (h.nothing (by decide))
  revert hnothing
  decide

end Words
end SourceEmulator
end DataHandling
