import DataHandling.Foundation.Execution
import DataHandling.Recording.ZeroCopy

/-! The counters of a zero-copy recording. Each call of `::write` gives -1 or the number of bytes
that it has written, in any order; the aligned starts and the end pointers are whatever the ring
holds in each pass of the outer loop. -/

namespace DataHandling
open ReadoutType IterableQueueModel

/-- The chunk size, and the number of elements in the buffer and their size. -/
structure WriteConf where
  chunkSize : ℕ
  size : ℕ
  fixedPayloadSize : ℕ
  fixedPayloadSize_pos : 0 < fixedPayloadSize

/-- A call of `::write`: how much it was to write, what it returned, and whether a warning was
issued. -/
structure WriteCall where
  length : ℕ
  result : ℤ
  warned : Bool
  deriving DecidableEq

def WriteCall.written (c : WriteCall) : ℕ := c.result.toNat

def WriteCall.full (c : WriteCall) : Bool := decide (c.result = c.length)

/-- In the outer loop, in the loop over chunks, or behind the completion. -/
inductive AccountingPhase where
  | outer
  | chunks (currentEnd : ℤ) (considered : ℕ)
  | done
  deriving DecidableEq

/-- The pointer and the counters of the recording thread, and the calls made so far. -/
structure WriteAccounting where
  phase : AccountingPhase
  writePointer : Option ℕ
  bytesWritten : ℕ
  failedWrites : ℕ
  calls : List WriteCall

/-- A pass of the outer loop starts, with the element that the search has found if it had to search,
and the end pointer; a chunk is considered; or the duration is over. A chunk and the completion take
the result of the call that they make, if they make one. -/
inductive AccountingAction where
  | pass (begin : Option ℕ) (currentEnd : ℤ)
  | chunk (result : ℤ)
  | passOver
  | timeUp (result : ℤ)

namespace WriteConf
variable (conf : WriteConf)

def endOfBuffer : ℕ := conf.size * conf.fixedPayloadSize

/-- The length of the write for a chunk at the write pointer and where the pointer goes, or none
when the recorder has caught up. -/
def chunkCall (currentEnd : ℤ) (writePointer : ℕ) : Option (ℕ × ℕ) :=
  if (writePointer : ℤ) + conf.chunkSize < currentEnd then
    some (conf.chunkSize, writePointer + conf.chunkSize)
  else if currentEnd < writePointer then
    if writePointer + conf.chunkSize < conf.endOfBuffer then
      some (conf.chunkSize, writePointer + conf.chunkSize)
    else some (conf.endOfBuffer - writePointer, 0)
  else none

def completionCall (writePointer : ℕ) : Option ℕ :=
  let lastStartedFrame := writePointer / conf.fixedPayloadSize * conf.fixedPayloadSize
  if lastStartedFrame ≠ writePointer then
    some (lastStartedFrame + conf.fixedPayloadSize - writePointer)
  else none

end WriteConf

namespace WriteAccounting

def init : WriteAccounting where
  phase := .outer
  writePointer := none
  bytesWritten := 0
  failedWrites := 0
  calls := []

def possible (length : ℕ) (result : ℤ) : Bool := decide (-1 ≤ result ∧ result ≤ length)

variable (conf : WriteConf)

/-- The branch of the loop that writes; `!result` is the test for failure. -/
def writeChunk (s : WriteAccounting) (length target : ℕ) (result : ℤ) : WriteAccounting :=
  let failedWrite := result == 0
  { s with
    bytesWritten := if failedWrite then s.bytesWritten else s.bytesWritten + length
    writePointer := some (if target = conf.endOfBuffer then 0 else target)
    failedWrites := if failedWrite then s.failedWrites + 1 else s.failedWrites
    calls := s.calls ++ [⟨length, result, failedWrite⟩] }

def writeCompletion (s : WriteAccounting) (length : ℕ) (result : ℤ) : WriteAccounting :=
  let failedWrite := result == 0
  { s with
    bytesWritten := if failedWrite then s.bytesWritten else s.bytesWritten + length
    calls := s.calls ++ [⟨length, result, failedWrite⟩] }

def step (s : WriteAccounting) : AccountingAction → Option WriteAccounting
  | .pass begin currentEnd =>
    let writePointer := (begin.map fun b => b * conf.fixedPayloadSize).or s.writePointer
    if s.phase = .outer ∧ writePointer.isSome ∧ begin.all (fun b => decide (b < conf.size)) ∧
        currentEnd < conf.endOfBuffer then
      some { s with phase := .chunks currentEnd 0, writePointer := writePointer }
    else none
  | .chunk result =>
    match s.phase, s.writePointer with
    | .chunks currentEnd considered, some writePointer =>
      if considered < chunksConsidered then
        match conf.chunkCall currentEnd writePointer with
        | none => some { s with phase := .chunks currentEnd (considered + 1) }
        | some (length, target) =>
          if possible length result then
            some { s.writeChunk conf length target result with
              phase := .chunks currentEnd (considered + 1) }
          else none
      else none
    | _, _ => none
  | .passOver =>
    match s.phase with
    | .chunks _ considered =>
      if considered < chunksConsidered then none
      else some { s with phase := .outer }
    | _ => none
  | .timeUp result =>
    match s.phase with
    | .outer =>
      match s.writePointer.bind conf.completionCall with
      | none => some { s with phase := .done }
      | some length =>
        if possible length result then
          some { s.writeCompletion length result with phase := .done }
        else none
    | _ => none

/-- The counters are right, and each call that has not written its full length is warned of. -/
structure Accounts (s : WriteAccounting) : Prop where
  bytesWritten_eq : s.bytesWritten = (s.calls.map WriteCall.written).sum
  failedWrites_eq : s.failedWrites = s.calls.countP fun c => !c.full
  warned : ∀ c ∈ s.calls, c.full = false → c.warned = true

/-- A chunk is written in one call of a length that is not zero, fully or not at all, and the
completion fully. -/
def MeetsResult (s : WriteAccounting) : AccountingAction → Prop
  | .chunk result =>
    match s.phase, s.writePointer with
    | .chunks currentEnd _, some writePointer =>
      ∀ call ∈ conf.chunkCall currentEnd writePointer,
        call.1 ≠ 0 ∧ (result = 0 ∨ result = call.1)
    | _, _ => True
  | .timeUp result =>
    ∀ length ∈ s.writePointer.bind conf.completionCall, result = (length : ℤ)
  | .pass _ _ | .passOver => True

structure Counts (s : WriteAccounting) : Prop where
  pointer_lt : ∀ wp ∈ s.writePointer, wp < conf.endOfBuffer
  still : conf.chunkSize = 0 → ∀ wp ∈ s.writePointer, wp % conf.fixedPayloadSize = 0
  end_lt : ∀ currentEnd considered, s.phase = .chunks currentEnd considered →
    currentEnd < conf.endOfBuffer
  length_pos : ∀ c ∈ s.calls, c.length = 0 → conf.chunkSize = 0
  warned_iff : ∀ c ∈ s.calls, c.warned = true ↔ c.result = 0
  written_le : (s.calls.map WriteCall.written).sum ≤ s.bytesWritten
  failedWrites_eq : s.phase ≠ .done → s.failedWrites = s.calls.countP WriteCall.warned

section Calls
variable {conf} {s : WriteAccounting} {calls : List WriteCall} {c : WriteCall}

theorem full_mk (length : ℕ) (result : ℤ) (warned : Bool) :
    WriteCall.full ⟨length, result, warned⟩ = decide (result = length) := rfl

theorem sum_written_concat : ((calls ++ [c]).map WriteCall.written).sum =
    (calls.map WriteCall.written).sum + c.result.toNat := by
  rw [List.map_append, List.sum_append]
  rfl

theorem countP_concat (p : WriteCall → Bool) :
    (calls ++ [c]).countP p = calls.countP p + if p c then 1 else 0 := by
  rw [List.countP_append, List.countP_singleton]

theorem countP_le_warned (hwarned : ∀ c ∈ calls, c.full = false → c.warned = true) :
    (calls.countP fun c => !c.full) ≤ calls.countP WriteCall.warned :=
  List.countP_mono_left fun c hc hfull => hwarned c hc (by simpa using hfull)

theorem Counts.warned_le (h : Counts conf s) (hchunk : conf.chunkSize ≠ 0) :
    s.calls.countP WriteCall.warned ≤ s.calls.countP fun c => !c.full := by
  refine List.countP_mono_left fun c hc hwarned => ?_
  have hzero := (h.warned_iff c hc).mp hwarned
  have hlength := mt (h.length_pos c hc) hchunk
  rw [WriteCall.full, hzero, Bool.not_eq_true', decide_eq_false_iff_not]
  omega

end Calls

section Steps
variable {conf} {s s' : WriteAccounting}

theorem chunkCall_spec {currentEnd : ℤ} {wp length target : ℕ} (hwp : wp < conf.endOfBuffer)
    (hend : currentEnd < conf.endOfBuffer)
    (hcall : conf.chunkCall currentEnd wp = some (length, target)) :
    (length = 0 → conf.chunkSize = 0) ∧ target ≤ conf.endOfBuffer ∧
      (conf.chunkSize = 0 → target = wp) := by
  unfold WriteConf.chunkCall at hcall
  split_ifs at hcall with hbefore hbehind hinside
  all_goals
    obtain ⟨rfl, rfl⟩ := Prod.mk.inj (Option.some.inj hcall)
    omega

theorem completionCall_spec {wp length : ℕ} (hcall : conf.completionCall wp = some length) :
    0 < length ∧ wp % conf.fixedPayloadSize ≠ 0 := by
  have hdiv := Nat.div_add_mod wp conf.fixedPayloadSize
  have hmod := Nat.mod_lt wp conf.fixedPayloadSize_pos
  rw [Nat.mul_comm] at hdiv
  simp only [WriteConf.completionCall] at hcall
  split_ifs at hcall with hne
  obtain rfl := Option.some.inj hcall
  omega

theorem forall_warned_concat {calls : List WriteCall} {c : WriteCall} :
    (∀ d ∈ calls ++ [c], d.full = false → d.warned = true) ↔
      (∀ d ∈ calls, d.full = false → d.warned = true) ∧ (c.full = false → c.warned = true) := by
  simp only [List.mem_append, List.mem_singleton, or_imp, forall_and, forall_eq]

theorem accounts_writeChunk_iff (h : Counts conf s) (hphase : s.phase ≠ .done) (length target : ℕ)
    (result : ℤ) : Accounts (s.writeChunk conf length target result) ↔
      Accounts s ∧ length ≠ 0 ∧ (result = 0 ∨ result = length) := by
  have hle := h.written_le
  have hfailed := h.failedWrites_eq hphase
  constructor
  · rintro ⟨hbytes, hcount, hwarned⟩
    have hall := forall_warned_concat.mp hwarned
    have hmono := countP_le_warned hall.1
    have hlast := hall.2
    simp only [writeChunk, sum_written_concat, countP_concat, full_mk, beq_iff_eq,
      Bool.not_eq_true', decide_eq_false_iff_not] at hbytes hcount hlast
    by_cases hfull : result = length
    · simp only [hfull, not_true_eq_false, if_false] at hcount hbytes
      refine ⟨⟨?_, ?_, hall.1⟩, ?_, .inr hfull⟩
      all_goals split_ifs at hbytes hcount <;> omega
    · have hzero : result = 0 := hlast hfull
      simp only [hzero, if_true] at hbytes hcount
      rw [if_pos (by omega)] at hcount
      exact ⟨⟨by omega, Nat.succ.inj hcount, hall.1⟩, by omega, .inl hzero⟩
  · rintro ⟨⟨hbytes, hcount, hwarned⟩, hlength, hresult⟩
    refine ⟨?_, ?_, forall_warned_concat.mpr ⟨hwarned, fun hnot => ?_⟩⟩
    · simp only [writeChunk, sum_written_concat, beq_iff_eq]
      rcases hresult with rfl | rfl
      · rw [if_pos rfl, hbytes]
        rfl
      · rw [if_neg (by omega), hbytes, Int.toNat_natCast]
    · simp only [writeChunk, countP_concat, full_mk, beq_iff_eq, Bool.not_eq_true',
        decide_eq_false_iff_not]
      rcases hresult with rfl | rfl
      · rw [if_pos rfl, if_pos (by omega), hcount]
      · rw [if_neg (by omega), if_neg (not_not.mpr rfl), hcount]
        rfl
    · rw [full_mk, decide_eq_false_iff_not] at hnot
      exact beq_iff_eq.mpr (hresult.resolve_right hnot)

theorem accounts_writeCompletion_iff (h : Counts conf s) (hphase : s.phase ≠ .done)
    (hchunk : conf.chunkSize ≠ 0) {length : ℕ} (hlength : 0 < length) (result : ℤ) :
    Accounts (s.writeCompletion length result) ↔ Accounts s ∧ result = length := by
  have hle := h.written_le
  have hfailed := h.failedWrites_eq hphase
  have hmore := h.warned_le hchunk
  constructor
  · rintro ⟨hbytes, hcount, hwarned⟩
    have hall := forall_warned_concat.mp hwarned
    have hlast := hall.2
    simp only [writeCompletion, sum_written_concat, countP_concat, full_mk, beq_iff_eq,
      Bool.not_eq_true', decide_eq_false_iff_not] at hbytes hcount hlast
    by_cases hfull : result = length
    · simp only [hfull, not_true_eq_false, if_false] at hcount hbytes
      rw [if_neg (by omega)] at hbytes
      exact ⟨⟨by omega, hcount, hall.1⟩, hfull⟩
    · -- a warning that goes uncounted, while every other one is counted
      rw [if_pos hfull] at hcount
      omega
  · rintro ⟨⟨hbytes, hcount, hwarned⟩, rfl⟩
    refine ⟨?_, ?_, forall_warned_concat.mpr ⟨hwarned, fun hnot => ?_⟩⟩
    · simp only [writeCompletion, sum_written_concat, beq_iff_eq]
      rw [if_neg (by omega), hbytes, Int.toNat_natCast]
    · simp only [writeCompletion, countP_concat, full_mk, decide_true, Bool.not_true,
        Bool.false_eq_true, if_false, hcount]
      rfl
    · rw [full_mk, decide_eq_false_iff_not] at hnot
      exact absurd rfl hnot

theorem counts_init : Counts conf init where
  pointer_lt := nofun
  still := fun _ => nofun
  end_lt := nofun
  length_pos := nofun
  warned_iff := nofun
  written_le := Nat.le_refl _
  failedWrites_eq := fun _ => rfl

theorem written_le_concat {calls : List WriteCall} {bytesWritten length : ℕ} {result : ℤ}
    {warned : Bool} (hle : (calls.map WriteCall.written).sum ≤ bytesWritten)
    (hresult : possible length result = true) :
    ((calls ++ [(⟨length, result, warned⟩ : WriteCall)]).map WriteCall.written).sum ≤
      if result == 0 then bytesWritten else bytesWritten + length := by
  rw [possible, decide_eq_true_iff] at hresult
  rw [sum_written_concat]
  simp only [beq_iff_eq]
  split_ifs <;> omega

theorem Counts.writeChunk (h : Counts conf s) (hphase : s.phase ≠ .done) {wp : ℕ}
    (hwp : s.writePointer = some wp) {currentEnd : ℤ} (hend : currentEnd < conf.endOfBuffer)
    {length target : ℕ} (hcall : conf.chunkCall currentEnd wp = some (length, target))
    {result : ℤ} (hresult : possible length result = true) (considered : ℕ) :
    Counts conf { s.writeChunk conf length target result with
      phase := .chunks currentEnd considered } := by
  have hlt := h.pointer_lt wp hwp
  obtain ⟨hlength, htarget, hstill⟩ := chunkCall_spec hlt hend hcall
  refine {
    pointer_lt := ?_
    still := ?_
    end_lt := ?_
    length_pos := ?_
    warned_iff := ?_
    written_le := written_le_concat h.written_le hresult
    failedWrites_eq := fun _ => ?_ }
  · rintro next hnext
    obtain rfl := Option.some.inj hnext
    split_ifs <;> omega
  · rintro hzero next hnext
    obtain rfl := Option.some.inj hnext
    rw [hstill hzero, if_neg (Nat.ne_of_lt hlt)]
    exact h.still hzero wp hwp
  · rintro _ _ hphases
    cases hphases
    exact hend
  · exact List.forall_mem_append.mpr ⟨h.length_pos, List.forall_mem_singleton.mpr hlength⟩
  · exact List.forall_mem_append.mpr ⟨h.warned_iff, List.forall_mem_singleton.mpr beq_iff_eq⟩
  · have hfailed := h.failedWrites_eq hphase
    simp only [WriteAccounting.writeChunk, countP_concat, beq_iff_eq]
    split_ifs <;> omega

theorem Counts.writeCompletion (h : Counts conf s) {length : ℕ} (hlength : 0 < length) {result : ℤ}
    (hresult : possible length result = true) :
    Counts conf { s.writeCompletion length result with phase := .done } := by
  refine { h with
    end_lt := nofun
    length_pos := ?_
    warned_iff := ?_
    written_le := written_le_concat h.written_le hresult
    failedWrites_eq := fun hdone => absurd rfl hdone }
  · have hnonzero : length = 0 → conf.chunkSize = 0 :=
      fun hzero => absurd hzero (Nat.ne_of_gt hlength)
    exact List.forall_mem_append.mpr ⟨h.length_pos, List.forall_mem_singleton.mpr hnonzero⟩
  · exact List.forall_mem_append.mpr ⟨h.warned_iff, List.forall_mem_singleton.mpr beq_iff_eq⟩

theorem Counts.pass (h : Counts conf s) (houter : s.phase = .outer) {begin : Option ℕ}
    (hbegin : begin.all (fun b => decide (b < conf.size)) = true) {currentEnd : ℤ}
    (hend : currentEnd < conf.endOfBuffer) :
    Counts conf { s with
      phase := .chunks currentEnd 0
      writePointer := (begin.map fun b => b * conf.fixedPayloadSize).or s.writePointer } := by
  refine { h with
    pointer_lt := ?_
    still := ?_
    end_lt := ?_
    failedWrites_eq := fun _ => h.failedWrites_eq (by rw [houter]; exact nofun) }
  · cases begin with
    | none => exact h.pointer_lt
    | some b =>
      rintro wp hwp
      obtain rfl := Option.some.inj hwp
      have hb : b < conf.size := by simpa using hbegin
      exact Nat.mul_lt_mul_of_pos_right hb conf.fixedPayloadSize_pos
  · intro hzero
    cases begin with
    | none => exact h.still hzero
    | some b =>
      rintro wp hwp
      obtain rfl := Option.some.inj hwp
      exact Nat.mul_mod_left _ _
  · rintro _ _ hphase
    cases hphase
    exact hend

theorem accounts_goTo (s : WriteAccounting) (phase : AccountingPhase) (writePointer : Option ℕ) :
    Accounts { s with phase := phase, writePointer := writePointer } ↔ Accounts s :=
  ⟨fun ha => ⟨ha.1, ha.2, ha.3⟩, fun ha => ⟨ha.1, ha.2, ha.3⟩⟩

theorem Counts.chunk {result : ℤ} (h : Counts conf s)
    (hs : step conf s (.chunk result) = some s') :
    Counts conf s' ∧ (Accounts s' ↔ Accounts s ∧ MeetsResult conf s (.chunk result)) := by
  simp only [step] at hs
  split at hs
  case h_2 => cases hs
  case h_1 currentEnd considered wp hphase hwp =>
    have hend := h.end_lt _ _ hphase
    have hdone : s.phase ≠ .done := by
      rw [hphase]
      exact nofun
    simp only [MeetsResult, hphase, hwp]
    split_ifs at hs
    split at hs
    case h_1 hcall =>
      obtain rfl := Option.some.inj hs
      refine ⟨{ h with end_lt := ?_, failedWrites_eq := fun _ => h.failedWrites_eq hdone }, ?_⟩
      · rintro _ _ hchunks
        cases hchunks
        exact hend
      · rw [hcall]
        exact (accounts_goTo s _ _).trans (and_iff_left fun _ hc =>
          absurd hc (Option.not_mem_none _)).symm
    case h_2 length target hcall =>
      split_ifs at hs with hresult
      obtain rfl := Option.some.inj hs
      refine ⟨h.writeChunk hdone hwp hend hcall hresult _, ?_⟩
      have hiff := accounts_writeChunk_iff h hdone length target result
      rw [hcall]
      simp only [Option.mem_some_iff, forall_eq']
      exact (accounts_goTo _ _ _).trans hiff

theorem Counts.timeUp {result : ℤ} (h : Counts conf s)
    (hs : step conf s (.timeUp result) = some s') :
    Counts conf s' ∧ (Accounts s' ↔ Accounts s ∧ MeetsResult conf s (.timeUp result)) := by
  simp only [step] at hs
  split at hs
  case h_2 => cases hs
  case h_1 hphase =>
    have hdone : s.phase ≠ .done := by
      rw [hphase]
      exact nofun
    simp only [MeetsResult]
    split at hs
    case h_1 hnone =>
      obtain rfl := Option.some.inj hs
      rw [hnone]
      exact ⟨{ h with end_lt := nofun, failedWrites_eq := fun hd => absurd rfl hd },
        (accounts_goTo s _ _).trans (and_iff_left fun _ hc =>
          absurd hc (Option.not_mem_none _)).symm⟩
    case h_2 length hcall =>
      split_ifs at hs with hresult
      obtain rfl := Option.some.inj hs
      obtain ⟨wp, hwp, hcompletion⟩ := Option.bind_eq_some_iff.mp hcall
      obtain ⟨hlength, hmod⟩ := completionCall_spec hcompletion
      have hiff := accounts_writeCompletion_iff h hdone
        (fun hzero => hmod (h.still hzero wp hwp)) hlength result
      refine ⟨h.writeCompletion hlength hresult, ?_⟩
      rw [hcall]
      simp only [Option.mem_some_iff, forall_eq']
      exact (accounts_goTo _ _ _).trans hiff

theorem step_counts {a : AccountingAction} (h : Counts conf s) (hs : step conf s a = some s') :
    Counts conf s' ∧ (Accounts s' ↔ Accounts s ∧ MeetsResult conf s a) := by
  cases a with
  | pass begin currentEnd =>
    simp only [step] at hs
    split_ifs at hs with hcond
    obtain ⟨houter, -, hbegin, hend⟩ := hcond
    obtain rfl := Option.some.inj hs
    exact ⟨h.pass houter hbegin hend, (accounts_goTo s _ _).trans (and_iff_left trivial).symm⟩
  | chunk result => exact h.chunk hs
  | passOver =>
    simp only [step] at hs
    split at hs
    case h_2 => cases hs
    case h_1 currentEnd considered hphase =>
      split_ifs at hs
      obtain rfl := Option.some.inj hs
      exact ⟨{ h with
          end_lt := nofun
          failedWrites_eq := fun _ => h.failedWrites_eq (by rw [hphase]; exact nofun) },
        (accounts_goTo s _ _).trans (and_iff_left trivial).symm⟩
  | timeUp result => exact h.timeUp hs

/-- For every sequence of results and every run of the chunk loop: the counters are right just if
each call meets the condition. -/
theorem run_accounts_iff {actions : List AccountingAction}
    (hrun : Execution.run (step conf) init actions = some s) :
    Accounts s ↔ Execution.StepsMeet (step conf) (MeetsResult conf) init actions := by
  have hiff := Execution.run_iff_stepsMeet (I := Accounts) (J := Counts conf)
    (fun _ _ _ h hs => step_counts h hs) counts_init hrun
  exact hiff.trans (and_iff_right ⟨rfl, rfl, nofun⟩)

end Steps

instance (s : WriteAccounting) : Decidable (Accounts s) :=
  decidable_of_iff (s.bytesWritten = (s.calls.map WriteCall.written).sum ∧
      s.failedWrites = (s.calls.countP fun c => !c.full) ∧
      ∀ c ∈ s.calls, c.full = false → c.warned = true)
    ⟨fun ⟨h1, h2, h3⟩ => ⟨h1, h2, h3⟩, fun ⟨h1, h2, h3⟩ => ⟨h1, h2, h3⟩⟩

instance : (s : WriteAccounting) → (a : AccountingAction) → Decidable (MeetsResult conf s a)
  | ⟨.chunks currentEnd _, some writePointer, _, _, _⟩, .chunk result =>
    inferInstanceAs (Decidable (∀ call ∈ conf.chunkCall currentEnd writePointer,
      call.1 ≠ 0 ∧ (result = 0 ∨ result = call.1)))
  | ⟨.chunks _ _, none, _, _, _⟩, .chunk _ => isTrue trivial
  | ⟨.outer, _, _, _, _⟩, .chunk _ => isTrue trivial
  | ⟨.done, _, _, _, _⟩, .chunk _ => isTrue trivial
  | ⟨_, writePointer, _, _, _⟩, .timeUp result => inferInstanceAs (Decidable
      (∀ length ∈ writePointer.bind conf.completionCall, result = (length : ℤ)))
  | _, .pass _ _ => isTrue trivial
  | _, .passOver => isTrue trivial

def fourFrames : WriteConf := ⟨4096, 4, 6000, by decide⟩

def failingActions : List AccountingAction :=
  [.pass (some 0) 18000, .chunk 4096, .chunk 0, .chunk 4096] ++
    List.replicate 97 (.chunk 4096) ++ [.passOver, .timeUp 1616]

theorem run_accounts_iff_failing : Accounts
    ((Execution.run (step fourFrames) init failingActions).get (by decide +kernel)) :=
  (run_accounts_iff (Option.some_get _).symm).mpr
    (Execution.stepsMeet_of_checkSteps (fun _ _ => of_decide_eq_true)
      (by decide +kernel : Execution.checkSteps (step fourFrames)
        (fun s a => decide (MeetsResult fourFrames s a)) init failingActions = true))

/-- One chunk whose write returns -1 counts as 4096 bytes written. -/
theorem not_accounts_of_error :
    ¬ ∀ (actions : List AccountingAction) (s : WriteAccounting),
      Execution.run (step fourFrames) init actions = some s → Accounts s := by
  intro hall
  have haccounts := hall [.pass (some 0) 18000, .chunk (-1)] _
    (Option.some_get (by decide +kernel)).symm
  revert haccounts
  decide +kernel

end WriteAccounting

section Chunks
variable {T : Type} {zeroCopy : ZeroCopyConf T} {conf : WriteConf} {s : ZeroCopySystem T}

/-- The calls are those of the recording whose file is modelled byte by byte. -/
theorem considerChunk_eq_chunkCall (hchunk : zeroCopy.chunkSize = conf.chunkSize)
    (hend : s.endOfBuffer zeroCopy = conf.endOfBuffer) (currentEnd : ℤ) (considered wp : ℕ) :
    s.considerChunk zeroCopy currentEnd considered wp =
      match conf.chunkCall currentEnd wp with
      | some (length, target) => .copying currentEnd considered wp length target
      | none => .updating currentEnd considered := by
  unfold ZeroCopySystem.considerChunk WriteConf.chunkCall
  rw [hchunk, hend]
  split_ifs <;> rfl

theorem completeFrame_eq_completionCall
    (hpayload : zeroCopy.fixedPayloadSize = conf.fixedPayloadSize) (wp : ℕ) :
    ZeroCopySystem.completeFrame zeroCopy (some wp) =
      match conf.completionCall wp with
      | some length => .completing wp length
      | none => .finishing := by
  unfold ZeroCopySystem.completeFrame WriteConf.completionCall
  rw [hpayload]
  dsimp only
  split_ifs <;> rfl

end Chunks
end DataHandling
