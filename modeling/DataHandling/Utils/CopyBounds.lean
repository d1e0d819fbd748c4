import DataHandling.Utils.BufferCopy

/-! The calls of `std::memcpy` in `buffer_copy` and `dump_to_buffer`: where each of them reads and
writes, and when the loop ends. -/

namespace DataHandling
open MachineInt

/-- A call of `std::memcpy`, from the first source byte on. -/
structure CopyCall where
  dest : ℕ
  length : ℕ
  deriving DecidableEq

def copyCalls (bufferSize : ℕ) : ℕ → ℕ → ℕ → Option (List CopyCall)
  | 0, _, _ => none
  | fuel + 1, bytesToCopy, bufferPos =>
    if bytesToCopy > 0 then
      let n := min bytesToCopy (toSize (bufferSize - bufferPos))
      let nextPos := u32 (bufferPos + n)
      (copyCalls bufferSize fuel (bytesToCopy - n)
        (if nextPos = bufferSize then 0 else nextPos)).map
        (⟨bufferPos, n⟩ :: ·)
    else some []

def bufferCopyCalls (fuel : ℕ) (data : List UInt8) (bufferPos bufferSize : ℕ) :
    Option (List CopyCall) :=
  copyCalls bufferSize fuel data.length bufferPos

def dumpToBufferCalls (fuel : ℕ) (data : List UInt8) (bufferPos bufferSize : ℕ) :
    Option (List CopyCall) :=
  copyCalls bufferSize fuel data.length bufferPos

def performCalls (data : List UInt8) (calls : List CopyCall) (buffer : ℕ → UInt8) : ℕ → UInt8 :=
  calls.foldl (fun buffer c => memcpy c.dest data c.length buffer) buffer

/-- A call reads in the source and writes in the destination. -/
def CopyCall.InBounds (size bufferSize : ℕ) (c : CopyCall) : Prop :=
  c.length ≤ size ∧ c.dest + c.length ≤ bufferSize

section Calls
variable {data : List UInt8} {bufferSize fuel bytesToCopy bufferPos : ℕ} {buffer : ℕ → UInt8}

theorem copyLoop_eq_calls :
    copyLoop data bufferSize fuel bytesToCopy bufferPos buffer =
      (copyCalls bufferSize fuel bytesToCopy bufferPos).map fun calls =>
        performCalls data calls buffer := by
  induction fuel generalizing bytesToCopy bufferPos buffer with
  | zero => rfl
  | succ fuel ih =>
    rw [copyLoop, copyCalls]
    split_ifs with hbytes
    · simp only [ih, Option.map_map]
      rfl
    · rfl

theorem bufferCopy_eq_calls : bufferCopy fuel data buffer bufferPos bufferSize =
    (bufferCopyCalls fuel data bufferPos bufferSize).map fun calls =>
      performCalls data calls buffer := copyLoop_eq_calls

theorem dumpToBuffer_eq_calls : dumpToBuffer fuel data buffer bufferPos bufferSize =
    (dumpToBufferCalls fuel data bufferPos bufferSize).map fun calls =>
      performCalls data calls buffer := copyLoop_eq_calls

theorem nextPos_lt {n : ℕ} (h0 : 0 < bufferSize) (hfits : bufferPos + n ≤ bufferSize) :
    (if u32 (bufferPos + n) = bufferSize then 0 else u32 (bufferPos + n)) < bufferSize ∧
      (if u32 (bufferPos + n) = bufferSize then 0 else u32 (bufferPos + n)) < 4294967296 := by
  have hle : u32 (bufferPos + n) ≤ bufferPos + n := Nat.mod_le _ _
  have hlt : u32 (bufferPos + n) < 4294967296 := Nat.mod_lt _ (by decide)
  split_ifs <;> omega

theorem copyCalls_succ (hbytes : 0 < bytesToCopy) :
    copyCalls bufferSize (fuel + 1) bytesToCopy bufferPos =
      let n := min bytesToCopy (toSize (bufferSize - bufferPos))
      (copyCalls bufferSize fuel (bytesToCopy - n)
        (if u32 (bufferPos + n) = bufferSize then 0 else u32 (bufferPos + n))).map
          (⟨bufferPos, n⟩ :: ·) := by
  rw [copyCalls, if_pos hbytes]

theorem copyCalls_inBounds (h64 : bufferSize < 2 ^ 64) (hpos : bufferPos < bufferSize)
    (hfuel : bytesToCopy < fuel) :
    ∃ calls, copyCalls bufferSize fuel bytesToCopy bufferPos = some calls ∧
      ∀ c ∈ calls, c.InBounds bytesToCopy bufferSize := by
  induction fuel generalizing bytesToCopy bufferPos with
  | zero => exact absurd hfuel (Nat.not_lt_zero _)
  | succ fuel ih =>
    rcases Nat.eq_zero_or_pos bytesToCopy with rfl | hbytes
    · exact ⟨[], rfl, nofun⟩
    · have hspace : toSize ((bufferSize : ℤ) - bufferPos) = bufferSize - bufferPos :=
        toSize_sub (Nat.le_of_lt hpos) h64
      rw [copyCalls_succ hbytes, hspace]
      dsimp only
      generalize hn : min bytesToCopy (bufferSize - bufferPos) = n
      have hfits : bufferPos + n ≤ bufferSize := by omega
      obtain ⟨calls, hcalls, hin⟩ := ih (nextPos_lt (Nat.zero_lt_of_lt hpos) hfits).1
        (show bytesToCopy - n < fuel by omega)
      refine ⟨⟨bufferPos, n⟩ :: calls, by rw [hcalls]; rfl, ?_⟩
      intro c hc
      rcases List.mem_cons.mp hc with rfl | hc
      · exact ⟨hn ▸ Nat.min_le_left _ _, hfits⟩
      · exact ⟨Nat.le_trans (hin c hc).1 (Nat.sub_le _ _), (hin c hc).2⟩

theorem copyCalls_inBounds_of_le (h64 : bufferSize < 2 ^ 64) (h0 : 0 < bufferSize)
    (h32 : bufferPos < 2 ^ 32) (hpos : bufferPos ≤ bufferSize) (hfuel : bytesToCopy + 1 < fuel) :
    ∃ calls, copyCalls bufferSize fuel bytesToCopy bufferPos = some calls ∧
      ∀ c ∈ calls, c.InBounds bytesToCopy bufferSize := by
  rcases Nat.lt_or_eq_of_le hpos with hlt | rfl
  · exact copyCalls_inBounds h64 hlt (by omega)
  obtain ⟨fuel, rfl⟩ : ∃ n, fuel = n + 1 := ⟨fuel - 1, by omega⟩
  rcases Nat.eq_zero_or_pos bytesToCopy with rfl | hbytes
  · exact ⟨[], rfl, nofun⟩
  obtain ⟨calls, hcalls, hin⟩ := copyCalls_inBounds h64 h0 (Nat.lt_of_succ_lt_succ hfuel)
  refine ⟨⟨bufferPos, 0⟩ :: calls, ?_, ?_⟩
  · have hspace : toSize ((bufferPos : ℤ) - bufferPos) = 0 := by rw [Int.sub_self]; rfl
    rw [copyCalls_succ hbytes, hspace, Nat.min_zero]
    dsimp only
    rw [Nat.add_zero, u32_of_lt h32, if_pos rfl, Nat.sub_zero, hcalls]
    rfl
  · intro c hc
    rcases List.mem_cons.mp hc with rfl | hc
    · exact ⟨Nat.zero_le _, Nat.le_refl _⟩
    · exact hin c hc

theorem copyCalls_of_noSpace (hbytes : 0 < bytesToCopy) :
    copyCalls 0 fuel bytesToCopy 0 = none := by
  induction fuel with
  | zero => rfl
  | succ fuel ih =>
    have hspace : toSize (((0 : ℕ) : ℤ) - (0 : ℕ)) = 0 := rfl
    rw [copyCalls_succ hbytes, hspace, Nat.min_zero]
    exact congrArg (Option.map _) ih

end Calls

/-- Both copies end, and all their calls stay in the source and in the destination. -/
structure CopiesInBounds (data : List UInt8) (bufferPos bufferSize : ℕ) : Prop where
  bufferCopy : ∃ fuel calls, bufferCopyCalls fuel data bufferPos bufferSize = some calls ∧
    ∀ c ∈ calls, c.InBounds data.length bufferSize
  dumpToBuffer : ∃ fuel calls, dumpToBufferCalls fuel data bufferPos bufferSize = some calls ∧
    ∀ c ∈ calls, c.InBounds data.length bufferSize

/-- The loop goes wrong just where there are bytes to copy and no place for them. -/
theorem copiesInBounds_iff {data : List UInt8} {bufferPos bufferSize : ℕ}
    (h64 : bufferSize < 2 ^ 64) (h32 : bufferPos < 2 ^ 32) (hpos : bufferPos ≤ bufferSize) :
    CopiesInBounds data bufferPos bufferSize ↔ data = [] ∨ bufferSize ≠ 0 := by
  constructor
  · rintro ⟨⟨fuel, calls, hcalls, _⟩, _⟩
    by_contra hnot
    obtain ⟨hdata, hsize⟩ := not_or.mp hnot
    obtain rfl := not_not.mp hsize
    obtain rfl := Nat.le_zero.mp hpos
    rw [bufferCopyCalls, copyCalls_of_noSpace (List.length_pos_iff.mpr hdata)] at hcalls
    cases hcalls
  · intro h
    have hends : ∃ calls,
        copyCalls bufferSize (data.length + 2) data.length bufferPos = some calls ∧
        ∀ c ∈ calls, c.InBounds data.length bufferSize := by
      rcases h with rfl | hsize
      · exact ⟨[], rfl, nofun⟩
      · exact copyCalls_inBounds_of_le h64 (Nat.pos_of_ne_zero hsize) h32 hpos (Nat.lt_succ_self _)
    exact ⟨⟨_, hends⟩, ⟨_, hends⟩⟩

/-- Six bytes into a buffer of four, from its last byte on. -/
theorem copiesInBounds_iff_wrapped :
    CopiesInBounds [1, 2, 3, 4, 5, 6] 3 4 :=
  (copiesInBounds_iff (by decide) (by decide) (by decide)).mpr (.inr (by decide))

/-- One byte for a buffer of size zero: the loop does not end. -/
theorem not_copiesInBounds_of_noSpace : ¬ CopiesInBounds [1] 0 0 := by
  rintro ⟨⟨fuel, calls, hcalls, _⟩, _⟩
  rw [bufferCopyCalls, copyCalls_of_noSpace (by decide)] at hcalls
  cases hcalls

end DataHandling
