import DataHandling.Foundation.MachineInt
import DataHandling.Foundation.RingWrite
import Mathlib.Algebra.Group.Nat.Defs

/-! `buffer_copy`, and `dump_to_buffer` of `DefaultRequestHandlerModel` with the same body. The
destination is a memory counted from its first byte. -/

namespace DataHandling
open MachineInt RingWrite

def memcpy (dest : ℕ) (src : List UInt8) (n : ℕ) (memory : ℕ → UInt8) : ℕ → UInt8 :=
  overlay dest (src.take n) memory

/-- The loop with a bound on its iterations; `buffer_pos` is a 32-bit value, the other counters
have 64 bits. -/
def copyLoop (data : List UInt8) (bufferSize : ℕ) :
    ℕ → ℕ → ℕ → (ℕ → UInt8) → Option (ℕ → UInt8)
  | 0, _, _, _ => none
  | fuel + 1, bytesToCopy, bufferPos, buffer =>
    if bytesToCopy > 0 then
      let n := min bytesToCopy (toSize (bufferSize - bufferPos))
      let buffer := memcpy bufferPos data n buffer
      let bufferPos := u32 (bufferPos + n)
      let bytesToCopy := bytesToCopy - n
      copyLoop data bufferSize fuel bytesToCopy (if bufferPos = bufferSize then 0 else bufferPos)
        buffer
    else some buffer

def bufferCopy (fuel : ℕ) (data : List UInt8) (buffer : ℕ → UInt8) (bufferPos bufferSize : ℕ) :
    Option (ℕ → UInt8) :=
  copyLoop data bufferSize fuel data.length bufferPos buffer

def dumpToBuffer (fuel : ℕ) (data : List UInt8) (buffer : ℕ → UInt8) (bufferPos bufferSize : ℕ) :
    Option (ℕ → UInt8) :=
  copyLoop data bufferSize fuel data.length bufferPos buffer

def copyChunks (fuel : ℕ) (bufferSize : ℕ) :
    List (List UInt8) → ℕ → (ℕ → UInt8) → Option (ℕ → UInt8)
  | [], _, buffer => some buffer
  | chunk :: chunks, bufferPos, buffer =>
    (bufferCopy fuel chunk buffer bufferPos bufferSize).bind
      (copyChunks fuel bufferSize chunks ((bufferPos + chunk.length) % bufferSize))

/-- The index of the source byte that the loop writes as its `i`-th: each pass starts again at
the first source byte. -/
def sourceIndex (bufferSize bufferPos i : ℕ) : ℕ :=
  if i < bufferSize - bufferPos then i else (i - (bufferSize - bufferPos)) % bufferSize

def reread (bufferSize bufferPos : ℕ) (data : List UInt8) (bytesToCopy : ℕ) : List UInt8 :=
  (List.range bytesToCopy).map fun i => data.getD (sourceIndex bufferSize bufferPos i) 0

section Loop
variable {data : List UInt8} {bufferSize bufferPos bytesToCopy : ℕ}

@[simp] theorem length_reread :
    (reread bufferSize bufferPos data bytesToCopy).length = bytesToCopy := by
  rw [reread, List.length_map, List.length_range]

theorem reread_of_le (hlen : bytesToCopy ≤ data.length) (h : bytesToCopy ≤ bufferSize - bufferPos) :
    reread bufferSize bufferPos data bytesToCopy = data.take bytesToCopy := by
  refine List.ext_getElem (by rw [length_reread, List.length_take_of_le hlen]) ?_
  intro i hi _
  rw [length_reread] at hi
  simp only [reread, List.getElem_map, List.getElem_range, List.getElem_take]
  rw [sourceIndex, if_pos (by omega), List.getD_eq_getElem?_getD, List.getElem?_eq_getElem]
  rfl

theorem reread_add (n : ℕ) :
    reread bufferSize bufferPos data (bufferSize - bufferPos + n) =
      reread bufferSize bufferPos data (bufferSize - bufferPos) ++ reread bufferSize 0 data n := by
  rw [reread, List.range_add, List.map_append, List.map_map]
  congr 1
  refine List.map_congr_left fun i _ => ?_
  have hsource : sourceIndex bufferSize bufferPos (bufferSize - bufferPos + i) =
      sourceIndex bufferSize 0 i := by
    unfold sourceIndex
    rw [if_neg (by omega), Nat.add_sub_cancel_left, Nat.sub_zero]
    split_ifs with hlt
    · exact Nat.mod_eq_of_lt hlt
    · exact Nat.mod_eq_sub_mod (Nat.not_lt.mp hlt)
  exact congrArg (fun j => data.getD j 0) hsource

theorem memcpy_eq {n : ℕ} (hlen : n ≤ data.length) (hn : bufferPos + n ≤ bufferSize)
    (buffer : ℕ → UInt8) :
    memcpy bufferPos data n buffer =
      ringWrite bufferSize bufferPos (reread bufferSize bufferPos data n) buffer := by
  rw [ringWrite_of_fits (by rwa [length_reread]), reread_of_le hlen (by omega), memcpy]

theorem copyLoop_zero {fuel : ℕ} (hfuel : 0 < fuel) (buffer : ℕ → UInt8) :
    copyLoop data bufferSize fuel 0 bufferPos buffer = some buffer := by
  obtain ⟨fuel, rfl⟩ := Nat.exists_eq_succ_of_ne_zero (Nat.ne_of_gt hfuel)
  rfl

theorem copyLoop_eq (h0 : 0 < bufferSize) (h32 : bufferSize < 2 ^ 32)
    (hlen : bytesToCopy ≤ data.length) (hpos : bufferPos ≤ bufferSize) {fuel : ℕ}
    (hfuel : bytesToCopy < fuel ∧ (bufferPos = bufferSize → bytesToCopy + 1 < fuel))
    (buffer : ℕ → UInt8) :
    copyLoop data bufferSize fuel bytesToCopy bufferPos buffer =
      some (ringWrite bufferSize bufferPos (reread bufferSize bufferPos data bytesToCopy)
        buffer) := by
  induction fuel generalizing bytesToCopy bufferPos buffer with
  | zero => exact absurd hfuel.1 (Nat.not_lt_zero _)
  | succ fuel ih =>
    have hroom : toSize (bufferSize - bufferPos) = bufferSize - bufferPos :=
      toSize_sub hpos (by omega)
    unfold copyLoop
    by_cases hzero : bytesToCopy > 0
    · rw [if_pos hzero, hroom]
      dsimp only
      rcases Nat.lt_or_ge bytesToCopy (bufferSize - bufferPos) with hfits | hturn
      · -- the last pass, before the end of the buffer
        have hend : bufferPos + bytesToCopy ≤ bufferSize := by omega
        rw [Nat.min_eq_left (Nat.le_of_lt hfits), Nat.sub_self, copyLoop_zero (by omega),
          memcpy_eq hlen hend]
      · -- a pass up to the end of the buffer, then from its begin again
        obtain ⟨m, rfl⟩ := Nat.exists_eq_add_of_le hturn
        have hadd : bufferPos + (bufferSize - bufferPos) = bufferSize := Nat.add_sub_cancel' hpos
        have hrest : m < fuel := by
          rcases Nat.lt_or_eq_of_le hpos with hlt | heq
          · omega
          · have hmore := hfuel.2 heq
            omega
        rw [Nat.min_eq_right hturn, memcpy_eq (by omega) (Nat.le_of_eq hadd), hadd, u32_of_lt h32,
          if_pos rfl, Nat.add_sub_cancel_left,
          ih (by omega) (Nat.zero_le _) ⟨hrest, fun hz => absurd hz (Nat.ne_of_lt h0)⟩, reread_add,
          ringWrite_append, length_reread, hadd]
        exact congrArg some (ringWrite_congr (by rw [Nat.mod_self, Nat.zero_mod]))
    · obtain rfl : bytesToCopy = 0 := by omega
      rw [if_neg hzero]
      rfl

end Loop

section Law
variable {bufferSize bufferPos fuel : ℕ}

theorem bufferCopy_eq (h0 : 0 < bufferSize) (h32 : bufferSize < 2 ^ 32)
    (hpos : bufferPos ≤ bufferSize) {data : List UInt8} (hfuel : data.length + 1 < fuel)
    (buffer : ℕ → UInt8) :
    bufferCopy fuel data buffer bufferPos bufferSize =
      some (ringWrite bufferSize bufferPos (reread bufferSize bufferPos data data.length)
        buffer) :=
  copyLoop_eq h0 h32 (Nat.le_refl _) hpos ⟨by omega, fun _ => hfuel⟩ buffer

def rereadChunks (bufferSize : ℕ) : ℕ → List (List UInt8) → List UInt8
  | _, [] => []
  | bufferPos, chunk :: chunks =>
    reread bufferSize bufferPos chunk chunk.length ++
      rereadChunks bufferSize ((bufferPos + chunk.length) % bufferSize) chunks

theorem length_rereadChunks (chunks : List (List UInt8)) :
    (rereadChunks bufferSize bufferPos chunks).length = chunks.flatten.length := by
  induction chunks generalizing bufferPos with
  | nil => rfl
  | cons chunk chunks ih =>
    rw [rereadChunks, List.length_append, length_reread, ih, List.flatten_cons, List.length_append]

theorem copyChunks_eq (h0 : 0 < bufferSize) (h32 : bufferSize < 2 ^ 32)
    (hpos : bufferPos ≤ bufferSize) {chunks : List (List UInt8)}
    (hfuel : ∀ chunk ∈ chunks, chunk.length + 1 < fuel) (buffer : ℕ → UInt8) :
    copyChunks fuel bufferSize chunks bufferPos buffer =
      some (ringWrite bufferSize bufferPos (rereadChunks bufferSize bufferPos chunks) buffer) := by
  induction chunks generalizing bufferPos buffer with
  | nil => rfl
  | cons chunk chunks ih =>
    rw [copyChunks, bufferCopy_eq h0 h32 hpos (hfuel chunk List.mem_cons_self), Option.bind_some,
      ih (Nat.le_of_lt (Nat.mod_lt _ h0)) fun c hc => hfuel c (List.mem_cons_of_mem _ hc),
      rereadChunks, ringWrite_append, length_reread]
    exact congrArg some (ringWrite_congr (Nat.mod_mod _ _))

/-- The ring copy law for one source, and for a list of chunks copied one after the other. -/
structure RingCopyLaw (fuel bufferSize bufferPos : ℕ) (data : List UInt8)
    (chunks : List (List UInt8)) (buffer : ℕ → UInt8) : Prop where
  bufferCopy : bufferCopy fuel data buffer bufferPos bufferSize =
    some (ringWrite bufferSize bufferPos data buffer)
  dumpToBuffer : dumpToBuffer fuel data buffer bufferPos bufferSize =
    some (ringWrite bufferSize bufferPos data buffer)
  copyChunks : copyChunks fuel bufferSize chunks bufferPos buffer =
    some (ringWrite bufferSize bufferPos chunks.flatten buffer)

/-- Each byte that no later one replaces, with `later` bytes still to come, equals the source
byte that is read in its place. -/
def RereadsSame (bufferSize bufferPos : ℕ) (data : List UInt8) (later : ℕ) : Prop :=
  ∀ i < data.length, data.length + later ≤ i + bufferSize →
    data[sourceIndex bufferSize bufferPos i]? = data[i]?

def ChunksRereadSame (bufferSize : ℕ) : ℕ → List (List UInt8) → Prop
  | _, [] => True
  | bufferPos, chunk :: chunks =>
    RereadsSame bufferSize bufferPos chunk chunks.flatten.length ∧
      ChunksRereadSame bufferSize ((bufferPos + chunk.length) % bufferSize) chunks

theorem sourceIndex_le (i : ℕ) : sourceIndex bufferSize bufferPos i ≤ i := by
  have hle := Nat.mod_le (i - (bufferSize - bufferPos)) bufferSize
  unfold sourceIndex
  split_ifs <;> omega

theorem rereadsSame_of_fits {data : List UInt8} (h : bufferPos + data.length ≤ bufferSize)
    (later : ℕ) : RereadsSame bufferSize bufferPos data later := by
  intro i hi _
  rw [sourceIndex, if_pos (by omega)]

theorem rereadsSame_iff (data : List UInt8) (later : ℕ) :
    RereadsSame bufferSize bufferPos data later ↔
      ∀ i < data.length, data.length + later ≤ i + bufferSize →
        (reread bufferSize bufferPos data data.length)[i]? = data[i]? := by
  refine forall_congr' fun i => forall_congr' fun hi => forall_congr' fun _ => ?_
  have hsource : sourceIndex bufferSize bufferPos i < data.length :=
    Nat.lt_of_le_of_lt (sourceIndex_le i) hi
  rw [reread, List.getElem?_map, List.getElem?_range hi, Option.map_some,
    List.getD_eq_getElem?_getD, List.getElem?_eq_getElem hsource]
  rfl

theorem chunksRereadSame_iff (chunks : List (List UInt8)) :
    ChunksRereadSame bufferSize bufferPos chunks ↔
      ∀ i < chunks.flatten.length, chunks.flatten.length ≤ i + bufferSize →
        (rereadChunks bufferSize bufferPos chunks)[i]? = chunks.flatten[i]? := by
  induction chunks generalizing bufferPos with
  | nil => exact ⟨fun _ i hi => absurd hi (Nat.not_lt_zero _), fun _ => trivial⟩
  | cons chunk chunks ih =>
    exact (and_congr (rereadsSame_iff chunk _) ih).trans
      (forall_last_append length_reread (length_rereadChunks chunks)).symm

/-- The law holds just where reading the source again from its first byte makes no difference. -/
theorem ringCopyLaw_iff (h0 : 0 < bufferSize) (h32 : bufferSize < 2 ^ 32)
    (hpos : bufferPos ≤ bufferSize) (data : List UInt8) (chunks : List (List UInt8))
    (buffer : ℕ → UInt8) (hdata : data.length + 1 < fuel)
    (hchunks : ∀ chunk ∈ chunks, chunk.length + 1 < fuel) :
    RingCopyLaw fuel bufferSize bufferPos data chunks buffer ↔
      RereadsSame bufferSize bufferPos data 0 ∧ ChunksRereadSame bufferSize bufferPos chunks := by
  have hcopy := bufferCopy_eq h0 h32 hpos hdata buffer
  have hall := copyChunks_eq h0 h32 hpos hchunks buffer
  have hone : ringWrite bufferSize bufferPos (reread bufferSize bufferPos data data.length) buffer =
      ringWrite bufferSize bufferPos data buffer ↔ RereadsSame bufferSize bufferPos data 0 := by
    rw [rereadsSame_iff, ringWrite_eq_iff h0 length_reread, length_reread, Nat.add_zero]
  have hmany : ringWrite bufferSize bufferPos (rereadChunks bufferSize bufferPos chunks) buffer =
      ringWrite bufferSize bufferPos chunks.flatten buffer ↔
        ChunksRereadSame bufferSize bufferPos chunks := by
    rw [chunksRereadSame_iff, ringWrite_eq_iff h0 (length_rereadChunks chunks),
      length_rereadChunks]
  constructor
  · intro h
    exact ⟨hone.mp (Option.some.inj (hcopy.symm.trans h.bufferCopy)),
      hmany.mp (Option.some.inj (hall.symm.trans h.copyChunks))⟩
  · rintro ⟨hsame, hsames⟩
    have heq := congrArg some (hone.mpr hsame)
    exact ⟨hcopy.trans heq, hcopy.trans heq, hall.trans (congrArg some (hmany.mpr hsames))⟩

/-- A chunk that ends just at the end of the buffer, and the next one at its begin. -/
theorem ringCopyLaw_iff_twoChunks :
    RingCopyLaw 4 4 2 [1, 2] [[1, 2], [3, 4]] (fun _ => 0) :=
  (ringCopyLaw_iff (by decide) (by decide) (by decide) _ _ _ (by decide) (by decide)).mpr
    ⟨rereadsSame_of_fits (by decide) 0,
      rereadsSame_of_fits (by decide) 2, rereadsSame_of_fits (by decide) 0, trivial⟩

/-- Four bytes that cross the end of the buffer: its first bytes become 1, 2 instead of 3, 4. -/
theorem not_ringCopyLaw_of_wrapped : ¬ RingCopyLaw 6 4 2 [1, 2, 3, 4] [] (fun _ => 0) := by
  intro h
  have hat : (bufferCopy 6 [1, 2, 3, 4] (fun _ => 0) 2 4).map (fun buffer => buffer 0) =
      some 3 := congrArg (Option.map fun buffer => buffer 0) h.bufferCopy
  revert hat
  decide

end Law
end DataHandling
