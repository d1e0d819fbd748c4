import DataHandling.Emulator.Replay
import DataHandling.Foundation.Segments
import Mathlib.Data.List.GetD

/-! The stream that the emulator sends, payload by payload: the timestamps of the frames that are
not dropped, the errors in their stretches, and the ADC patterns at their distance. -/

namespace DataHandling
open MachineInt Segments

namespace ErrorBits
variable (bits : ErrorBits)

def frameCount (occurrences : ℤ) : ℕ := max 1 occurrences.toNat

/-- The stretches of frames, without errors and with errors by turns. The first ones drawn with
errors come last. -/
def stretches (i : ℕ) : ℕ × UInt16 :=
  let j := (i / 2 + 1) % ErrorBitGenerator.size
  if i % 2 = 0 then (frameCount (bits.noErrorOccurrences (i / 2 % ErrorBitGenerator.size)), 0)
  else (frameCount (bits.errorOccurrences j),
    if bits.errorOccurrences j = 0 then 0 else bits.errorBits j)

theorem frameCount_pos (occurrences : ℤ) : 0 < frameCount occurrences :=
  Nat.lt_of_lt_of_le Nat.one_pos (Nat.le_max_left _ _)

theorem le_frameCount_iff {occurrences : ℤ} {c : ℕ} (hc : 0 < c) :
    frameCount occurrences ≤ c ↔ occurrences ≤ c := by
  rw [frameCount, Nat.max_le]
  omega

theorem stretches_pos (i : ℕ) : 0 < (bits.stretches i).1 := by
  rw [stretches]
  split_ifs <;> exact frameCount_pos _

def frameErrors (n : ℕ) : List UInt16 := (stream bits.stretches n).take n

end ErrorBits

namespace ErrorBitGenerator

def drawn (bits : ErrorBits) (i : ℕ) : ℤ :=
  if i % 2 = 0 then bits.noErrorOccurrences (i / 2 % size)
  else bits.errorOccurrences ((i / 2 + 1) % size)

theorem length_stretches (bits : ErrorBits) (i : ℕ) :
    (bits.stretches i).1 = ErrorBits.frameCount (drawn bits i) := by
  rw [ErrorBits.stretches, drawn]
  split_ifs <;> rfl

structure InStretch (bits : ErrorBits) (g : ErrorBitGenerator) (i c : ℕ) : Prop where
  bits_eq : g.toErrorBits = bits
  within : c ≤ (bits.stretches i).1
  count : g.occurrenceCount = c
  errorBitsIndex : g.errorBitsIndex = (i / 2 + 1) % size
  errorOccurrencesIndex : g.errorOccurrencesIndex = (i / 2 + 1) % size
  noErrorOccurrencesIndex : g.noErrorOccurrencesIndex = (i + 1) / 2 % size
  setErrorBits : g.setErrorBits = decide (i % 2 = 1)
  currentOccurrence : g.currentOccurrence = drawn bits i

variable {bits : ErrorBits} {g : ErrorBitGenerator} {i c : ℕ}

def emit (g : ErrorBitGenerator) : UInt16 × ErrorBitGenerator :=
  (if g.setErrorBits ∧ g.currentOccurrence ≠ 0 then g.errorBits g.errorBitsIndex else 0,
    { g with occurrenceCount := g.occurrenceCount + 1 })

theorem next_eq (g : ErrorBitGenerator) :
    g.next = if g.occurrenceCount ≥ g.currentOccurrence then g.turn.emit else g.emit := by
  unfold next
  by_cases hend : g.occurrenceCount ≥ g.currentOccurrence
  · rw [if_pos hend, if_pos hend]
    rfl
  · rw [if_neg hend, if_neg hend]
    rfl

theorem InStretch.emit (h : InStretch bits g i c) (hlt : c < (bits.stretches i).1) :
    g.emit.1 = (bits.stretches i).2 ∧ InStretch bits g.emit.2 i (c + 1) := by
  obtain ⟨hbits, hwithin, hcount, hbit, herr, hno, hset, hcur⟩ := h
  refine ⟨?_, hbits, hlt, ?_, hbit, herr, hno, hset, hcur⟩
  · show (if g.setErrorBits ∧ g.currentOccurrence ≠ 0 then g.errorBits g.errorBitsIndex else 0) = _
    rw [hset, hcur, hbit, hbits, drawn, ErrorBits.stretches]
    rcases Nat.mod_two_eq_zero_or_one i with heven | hodd
    · simp [heven]
    · simp [hodd]
  · show g.occurrenceCount + 1 = ((c + 1 : ℕ) : ℤ)
    rw [hcount]
    rfl

theorem InStretch.turn (h : InStretch bits g i c) : InStretch bits g.turn (i + 1) 0 := by
  obtain ⟨hbits, hwithin, hcount, hbit, herr, hno, hset, hcur⟩ := h
  rw [ErrorBitGenerator.turn]
  rcases Nat.mod_two_eq_zero_or_one i with heven | hodd
  · have hindex : (i + 1) / 2 = i / 2 := by omega
    have hnext : (i + 1) % 2 = 1 := by omega
    have hround : (i + 1 + 1) / 2 = i / 2 + 1 := by omega
    have hoff : ¬g.setErrorBits = true := by
      rw [hset, heven]
      decide
    rw [if_neg hoff]
    refine ⟨hbits, Nat.zero_le _, rfl, ?_, ?_, ?_, ?_, ?_⟩
    · rw [hindex]
      exact hbit
    · rw [hindex]
      exact herr
    · show (g.noErrorOccurrencesIndex + 1) % size = _
      rw [hno, Nat.mod_add_mod, hindex, hround]
    · rw [hnext]
      rfl
    · rw [drawn, hnext, if_neg (by decide), hindex, ← herr, ← hbits]
  · have hindex : (i + 1) / 2 = i / 2 + 1 := by omega
    have hnext : (i + 1) % 2 = 0 := by omega
    have hround : (i + 1 + 1) / 2 = (i + 1) / 2 := by omega
    have hon : g.setErrorBits = true := by
      rw [hset, hodd]
      rfl
    rw [if_pos hon]
    refine ⟨hbits, Nat.zero_le _, rfl, ?_, ?_, ?_, ?_, ?_⟩
    · show (g.errorBitsIndex + 1) % size = _
      rw [hbit, Nat.mod_add_mod, hindex]
    · show (g.errorOccurrencesIndex + 1) % size = _
      rw [herr, Nat.mod_add_mod, hindex]
    · rw [hround]
      exact hno
    · rw [hnext]
      rfl
    · rw [drawn, if_pos hnext, ← hno, ← hbits]

theorem inStretch_generated (bits : ErrorBits) : InStretch bits (generated bits).turn 0 0 :=
  ⟨rfl, Nat.zero_le _, rfl, rfl, rfl, rfl, rfl, rfl⟩

/-- Each call goes on in the stretch, or begins the next one when it is at its end. -/
theorem InStretch.next (h : InStretch bits g i c) (hc : 0 < c) :
    ∃ i' c', 0 < c' ∧ InStretch bits g.next.2 i' c' ∧
      upTo bits.stretches i' c' = upTo bits.stretches i c ++ [g.next.1] := by
  have hlength := length_stretches bits i
  rw [next_eq, h.count, h.currentOccurrence]
  split_ifs with hend
  · have hfull : c = (bits.stretches i).1 :=
      Nat.le_antisymm h.within (hlength ▸ (ErrorBits.le_frameCount_iff hc).mpr hend)
    obtain ⟨hvalue, hnext⟩ := h.turn.emit (bits.stretches_pos _)
    exact ⟨i + 1, 1, Nat.one_pos, hnext, by rw [hfull, upTo_full, upTo_succ, hvalue]⟩
  · have hlt : c < (bits.stretches i).1 := by
      rw [hlength]
      exact Nat.lt_of_not_le fun hle => hend ((ErrorBits.le_frameCount_iff hc).mp hle)
    obtain ⟨hvalue, hnext⟩ := h.emit hlt
    exact ⟨i, c + 1, Nat.succ_pos c, hnext, by rw [upTo_succ, hvalue]⟩

theorem InStretch.nexts (h : InStretch bits g i c) (hc : 0 < c) (n : ℕ) :
    ∃ i' c', 0 < c' ∧ InStretch bits (g.nexts n).2 i' c' ∧
      upTo bits.stretches i' c' = upTo bits.stretches i c ++ (g.nexts n).1 := by
  induction n generalizing g i c with
  | zero => exact ⟨i, c, hc, h, (List.append_nil _).symm⟩
  | succ n ih =>
    obtain ⟨i₁, c₁, hc₁, h₁, hstream₁⟩ := h.next hc
    obtain ⟨i₂, c₂, hc₂, h₂, hstream₂⟩ := ih h₁ hc₁
    refine ⟨i₂, c₂, hc₂, h₂, ?_⟩
    rw [hstream₂, hstream₁, List.append_assoc]
    rfl

theorem length_nexts (n : ℕ) (g : ErrorBitGenerator) : (g.nexts n).1.length = n := by
  induction n generalizing g with
  | zero => rfl
  | succ n ih => rw [ErrorBitGenerator.nexts, List.length_cons, ih]

theorem nexts_generated (bits : ErrorBits) (n : ℕ) :
    ((generated bits).nexts n).1 = bits.frameErrors n := by
  cases n with
  | zero => rfl
  | succ n =>
    have hturn : (generated bits).next = (generated bits).turn.emit := by
      rw [next_eq]
      exact if_pos (Int.le_refl 0)
    obtain ⟨hvalue, hfirst⟩ := (inStretch_generated bits).emit (bits.stretches_pos 0)
    obtain ⟨i, c, hc, h, hstream⟩ := hfirst.nexts Nat.one_pos n
    have hall : upTo bits.stretches i c = ((generated bits).nexts (n + 1)).1 := by
      rw [hstream, upTo_succ, ErrorBitGenerator.nexts, hturn, hvalue]
      rfl
    rw [← hall, ErrorBits.frameErrors]
    exact upTo_eq_take bits.stretches_pos h.within hc (by rw [hall, length_nexts])

theorem nexts_add (m n : ℕ) (g : ErrorBitGenerator) :
    g.nexts (m + n) = ((g.nexts m).1 ++ ((g.nexts m).2.nexts n).1, ((g.nexts m).2.nexts n).2) := by
  induction m generalizing g with
  | zero => rw [Nat.zero_add]; rfl
  | succ m ih =>
    rw [Nat.succ_add, ErrorBitGenerator.nexts, ih, ErrorBitGenerator.nexts]
    rfl

end ErrorBitGenerator

/-- The channel of a call of `get_channel_number`, by the number of calls before it. -/
def PatternGenerator.channelNumber (g : PatternGenerator) (j : ℕ) : ℤ :=
  g.channel.getD ((g.index + j) % g.channel.length) 0

def PatternGenerator.after (g : PatternGenerator) : ℕ → PatternGenerator
  | 0 => g
  | j + 1 => (g.after j).getChannelNumber.2

theorem PatternGenerator.channel_after (g : PatternGenerator) (j : ℕ) :
    (g.after j).channel = g.channel := by
  induction j with
  | zero => rfl
  | succ j ih => exact ih

theorem PatternGenerator.index_after {g : PatternGenerator} (hpos : 0 < g.channel.length)
    (hindex : g.index ≤ g.channel.length) (j : ℕ) :
    (g.after j).index ≤ g.channel.length ∧
      (g.after j).index % g.channel.length = (g.index + j) % g.channel.length := by
  induction j with
  | zero => exact ⟨hindex, rfl⟩
  | succ j ih =>
    obtain ⟨hle, hmod⟩ := ih
    have hnext : (g.after (j + 1)).index =
        (if (g.after j).index = g.channel.length then 0 else (g.after j).index) + 1 := by
      rw [after, getChannelNumber, channel_after]
    rw [hnext, ← Nat.add_assoc, ← Nat.mod_add_mod (g.index + j), ← hmod]
    split_ifs with hend
    · exact ⟨hpos, by rw [hend, Nat.mod_self]⟩
    · exact ⟨Nat.lt_of_le_of_ne hle hend, by rw [Nat.mod_add_mod]⟩

theorem PatternGenerator.getChannelNumber_after {g : PatternGenerator} (hne : g.channel ≠ [])
    (hindex : g.index ≤ g.channel.length) (j : ℕ) :
    (g.after j).getChannelNumber.1 = some (g.channelNumber j) := by
  have hpos := List.length_pos_iff.mpr hne
  have hlt := Nat.mod_lt (g.index + j) hpos
  obtain ⟨hle, hmod⟩ := index_after hpos hindex j
  rw [getChannelNumber, channelNumber, channel_after, List.getD_eq_getElem _ _ hlt,
    ← List.getElem?_eq_getElem hlt, ← hmod]
  split_ifs with hend
  · rw [hend, Nat.mod_self]
  · rw [Nat.mod_eq_of_lt (Nat.lt_of_le_of_ne hle hend)]

namespace EmulatorConf
variable (conf : EmulatorConf)

def numFrames : ℕ := conf.readoutType.getNumFrames conf.source

def createdFrames (n : ℕ) : List ℕ :=
  (List.range (n * conf.framesPerTick.toNat)).filter conf.creates

def frameTime (t0 : UInt64) (m : ℕ) : UInt64 :=
  t0 + UInt64.ofNat (m / conf.framesPerTick.toNat) *
    (conf.timeTickDiff * UInt64.ofNat conf.numFrames)

def times (t0 : UInt64) (n : ℕ) : List UInt64 := (conf.createdFrames n).map (conf.frameTime t0)

def late (last t : UInt64) : Bool :=
  conf.generatePeriodicAdcPattern && decide (t - last > conf.timeToWait.toUInt64)

def plainPayload (bits : ErrorBits) (t : UInt64) (k : ℕ) : List UInt8 :=
  conf.readoutType.fakeFrameErrors
    ((bits.frameErrors ((k + 1) * conf.numFrames)).drop (k * conf.numFrames))
    (conf.readoutType.fakeGeoid conf.crateid conf.slotid conf.linkid
      (conf.readoutType.fakeTimestamps t conf.timeTickDiff (conf.element (k % conf.numElem))))

/-- The payload with a number, where `ts` are the timestamps up to it and beyond. -/
def payloadOf (bits : ErrorBits) (patterns : PatternGenerator) (previousTs : UInt64)
    (ts : List UInt64) (k : ℕ) : List UInt8 :=
  let lifts := DeadTime.picks conf.late previousTs ts
  let payload := conf.plainPayload bits (ts.getD k 0) k
  if lifts.getD k false then
    (conf.readoutType.fakeAdcPattern (patterns.channelNumber ((lifts.take k).count true))
      payload).getD payload
  else payload

theorem times_succ (t0 : UInt64) (n : ℕ) : conf.times t0 (n + 1) = conf.times t0 n ++
    ((List.range conf.framesPerTick.toNat).filter
      fun j => conf.creates (n * conf.framesPerTick.toNat + j)).map
        fun _ => t0 + UInt64.ofNat n * (conf.timeTickDiff * UInt64.ofNat conf.numFrames) := by
  rw [times, createdFrames, Nat.succ_mul, List.range_add, List.filter_append, List.map_append,
    List.filter_map, List.map_map]
  congr 1
  apply List.map_congr_left
  intro j hj
  have hlt : j < conf.framesPerTick.toNat := List.mem_range.mp (List.mem_of_mem_filter hj)
  show conf.frameTime t0 (n * conf.framesPerTick.toNat + j) = _
  rw [frameTime, Nat.add_comm, Nat.add_mul_div_right _ _ (Nat.zero_lt_of_lt hlt),
    Nat.div_eq_of_lt hlt, Nat.zero_add]

end EmulatorConf

namespace SourceEmulator
variable {conf : EmulatorConf} {s : SourceEmulator}

/-- What is sent in a number of rounds from a first timestamp: for each frame that is created its
payload, counted; the patterns are lifted at a distance. -/
structure Emulates (conf : EmulatorConf) (t0 : UInt64) (bits : ErrorBits)
    (patterns : PatternGenerator) (previousTs : UInt64) (n : ℕ) (s : SourceEmulator) : Prop where
  payloads : s.sent.map SentPayload.payload =
    (List.range (conf.times t0 n).length).map
      fun k => some (conf.payloadOf bits patterns previousTs (conf.times t0 n) k)
  total : s.packetCountTot = Int32.ofNat (conf.times t0 n).length
  spaced : (previousTs :: DeadTime.chosen conf.late previousTs (conf.times t0 n)).IsChain
    fun a b => b - a > conf.timeToWait.toUInt64

structure Emulating (conf : EmulatorConf) (bits : ErrorBits) (patterns : PatternGenerator)
    (previousTs : UInt64) (ts : List UInt64) (s : SourceEmulator) : Prop where
  payloads : s.sent.map SentPayload.payload =
    (List.range ts.length).map fun k => some (conf.payloadOf bits patterns previousTs ts k)
  errors : s.errorBitGenerator =
    ((ErrorBitGenerator.generated bits).nexts (ts.length * conf.numFrames)).2
  pattern : s.patternGenerator =
    patterns.after ((DeadTime.picks conf.late previousTs ts).count true)
  previous : s.patternGeneratorPreviousTs = DeadTime.lastPick conf.late previousTs ts
  total : s.packetCountTot = Int32.ofNat ts.length

theorem emulating_init (conf : EmulatorConf) (now : Option UInt64) (bits : ErrorBits)
    (patterns : PatternGenerator) (previousTs : UInt64) :
    Emulating conf bits patterns previousTs []
      (init conf now (.generated bits) patterns previousTs) where
  payloads := rfl
  errors := by
    rw [List.length_nil, Nat.zero_mul]
    rfl
  pattern := rfl
  previous := rfl
  total := rfl

section Sending
variable {bits : ErrorBits} {patterns : PatternGenerator} {previousTs : UInt64} {ts : List UInt64}

theorem payloadOf_concat (t : UInt64) {k : ℕ} (hk : k < ts.length) :
    conf.payloadOf bits patterns previousTs (ts ++ [t]) k =
      conf.payloadOf bits patterns previousTs ts k := by
  have hlength := DeadTime.length_picks conf.late previousTs ts
  rw [EmulatorConf.payloadOf, EmulatorConf.payloadOf, DeadTime.picks_concat]
  rw [List.getD_append _ _ _ _ hk, List.getD_append _ _ _ _ (hlength ▸ hk),
    List.take_append_of_le_length (hlength ▸ Nat.le_of_lt hk)]

theorem payloadOf_length (t : UInt64) :
    conf.payloadOf bits patterns previousTs (ts ++ [t]) ts.length =
      if conf.late (DeadTime.lastPick conf.late previousTs ts) t then
        (conf.readoutType.fakeAdcPattern
          (patterns.channelNumber ((DeadTime.picks conf.late previousTs ts).count true))
          (conf.plainPayload bits t ts.length)).getD (conf.plainPayload bits t ts.length)
      else conf.plainPayload bits t ts.length := by
  have hlength := DeadTime.length_picks conf.late previousTs ts
  rw [EmulatorConf.payloadOf, DeadTime.picks_concat]
  rw [List.getD_append_right _ _ _ _ le_rfl, List.getD_append_right _ _ _ _ (le_of_eq hlength),
    hlength, Nat.sub_self, ← hlength, List.take_left, hlength]
  rfl

theorem frameErrors_drop (k n : ℕ) : (bits.frameErrors ((k + 1) * n)).drop (k * n) =
    (((ErrorBitGenerator.generated bits).nexts (k * n)).2.nexts n).1 := by
  rw [← ErrorBitGenerator.nexts_generated, Nat.succ_mul, ErrorBitGenerator.nexts_add,
    List.drop_left' (ErrorBitGenerator.length_nexts _ _)]

/-- The next element of the file is written over and sent, with the timestamp of its round. -/
theorem Emulating.sendElement {offset : ℕ}
    (hchannels : conf.generatePeriodicAdcPattern = true → patterns.channel ≠ [])
    (hindex : patterns.index ≤ patterns.channel.length)
    (h : Emulating conf bits patterns previousTs ts s)
    (hcopied : (conf.source.drop (conf.elementStart offset)).take conf.readoutType.sizeOf =
      conf.element (ts.length % conf.numElem)) :
    Emulating conf bits patterns previousTs (ts ++ [s.timestamp]) (s.sendElement conf offset) := by
  have hlate : (conf.generatePeriodicAdcPattern &&
      decide (s.timestamp - s.patternGeneratorPreviousTs > conf.timeToWait.toUInt64)) =
        conf.late (DeadTime.lastPick conf.late previousTs ts) s.timestamp := by
    rw [h.previous]
    rfl
  have hlength : (ts ++ [s.timestamp]).length = ts.length + 1 := List.length_append
  have herrors : ((ErrorBitGenerator.generated bits).nexts ((ts.length + 1) * conf.numFrames)).2 =
      (s.errorBitGenerator.nexts conf.numFrames).2 := by
    rw [Nat.succ_mul, ErrorBitGenerator.nexts_add, h.errors]
  have hplain : conf.readoutType.fakeFrameErrors (s.errorBitGenerator.nexts conf.numFrames).1
      (conf.readoutType.fakeGeoid conf.crateid conf.slotid conf.linkid
        (conf.readoutType.fakeTimestamps s.timestamp conf.timeTickDiff
          ((conf.source.drop (conf.elementStart offset)).take conf.readoutType.sizeOf))) =
      conf.plainPayload bits s.timestamp ts.length := by
    rw [EmulatorConf.plainPayload, frameErrors_drop, h.errors, hcopied]
  have hchannel : conf.late (DeadTime.lastPick conf.late previousTs ts) s.timestamp = true →
      s.patternGenerator.getChannelNumber.1 =
        some (patterns.channelNumber ((DeadTime.picks conf.late previousTs ts).count true)) := by
    intro hlift
    rw [h.pattern]
    exact PatternGenerator.getChannelNumber_after
      (hchannels (Bool.and_eq_true_iff.mp hlift).1) hindex _
  constructor
  · rw [hlength, List.range_succ, List.map_append, List.map_singleton, payloadOf_length]
    have hold : (List.range ts.length).map
        (fun k => some (conf.payloadOf bits patterns previousTs (ts ++ [s.timestamp]) k)) =
          s.sent.map SentPayload.payload := by
      rw [h.payloads]
      exact List.map_congr_left fun k hk =>
        congrArg some (payloadOf_concat _ (List.mem_range.mp hk))
    rw [hold, ← hplain, SourceEmulator.sendElement, List.map_append, List.map_singleton]
    dsimp only
    rw [hlate]
    split_ifs with hlift
    · rw [hchannel hlift]
      rfl
    · rfl
  · rw [hlength, herrors]
    rfl
  · rw [DeadTime.picks_concat, List.count_append, ← hlate]
    show (if _ then _ else _) = _
    split_ifs with hlift
    · rw [hlift, h.pattern]
      rfl
    · rw [Bool.eq_false_iff.mpr hlift, h.pattern]
      rfl
  · rw [DeadTime.lastPick_concat, ← hlate, ← h.previous]
    rfl
  · rw [hlength, Int32.ofNat_add, ← h.total]
    rfl

theorem Emulating.frame
    (hchannels : conf.generatePeriodicAdcPattern = true → patterns.channel ≠ [])
    (hindex : patterns.index ≤ patterns.channel.length)
    (hfits : conf.numElem * conf.readoutType.sizeOf ≤ conf.source.length)
    (hfile : conf.source.length < 2 ^ 63) (hpos : 0 < conf.numElem)
    (h32 : conf.numElem < 4294967296)
    (hreplay : Replaying conf s) (h : Emulating conf bits patterns previousTs ts s) :
    Emulating conf bits patterns previousTs
      (ts ++ if conf.dropouts.getD s.dropoutIndex false then [s.timestamp] else [])
      (s.frame conf) := by
  cases hcreate : conf.dropouts.getD s.dropoutIndex false with
  | false =>
    rw [frame_of_dropped hcreate, if_neg Bool.false_ne_true, List.append_nil]
    exact ⟨h.payloads, h.errors, h.pattern, h.previous, h.total⟩
  | true =>
    have hlength : s.sent.length = ts.length := by
      rw [← List.length_map (f := SentPayload.payload), h.payloads, List.length_map,
        List.length_range]
    obtain ⟨hlt, hmod⟩ := hreplay.nextOffset hfits hfile hpos h32
    have hin := EmulatorConf.element_end_le hfits hlt
    have hstart : conf.elementStart (conf.nextOffset s.offset) =
        conf.nextOffset s.offset * conf.readoutType.sizeOf := u64_of_lt (by
      rw [Nat.succ_mul] at hin
      omega)
    rw [frame_of_created hcreate, if_pos rfl]
    have hnow : Emulating conf bits patterns previousTs ts { s with
        offset := conf.nextOffset s.offset
        dropoutIndex := (s.dropoutIndex + 1) % conf.dropouts.length } :=
      ⟨h.payloads, h.errors, h.pattern, h.previous, h.total⟩
    refine hnow.sendElement hchannels hindex ?_
    rw [hstart, hmod, hlength]
    rfl

end Sending

theorem frame_timestamp (s : SourceEmulator) : (s.frame conf).timestamp = s.timestamp := by
  cases h : conf.dropouts.getD s.dropoutIndex false with
  | false => rw [frame_of_dropped h]
  | true => rw [frame_of_created h]; rfl

theorem runProduce_succ (n : ℕ) (s : SourceEmulator) :
    s.runProduce conf (n + 1) = (s.runProduce conf n).tick conf := by
  induction n generalizing s with
  | zero => rfl
  | succ n ih => exact ih (s.tick conf)

section Rounds
variable {bits : ErrorBits} {patterns : PatternGenerator} {previousTs : UInt64} {ts : List UInt64}
  (hchannels : conf.generatePeriodicAdcPattern = true → patterns.channel ≠ [])
  (hindex : patterns.index ≤ patterns.channel.length)
  (hfits : conf.numElem * conf.readoutType.sizeOf ≤ conf.source.length)
  (hfile : conf.source.length < 2 ^ 63) (hpos : 0 < conf.numElem) (h32 : conf.numElem < 4294967296)
include hchannels hindex hfits hfile hpos h32

theorem Emulating.frames {m : ℕ} (hdropout : s.dropoutIndex = m % conf.dropouts.length)
    (hreplay : Replaying conf s) (h : Emulating conf bits patterns previousTs ts s) (n : ℕ) :
    (s.frames conf n).timestamp = s.timestamp ∧
      Emulating conf bits patterns previousTs
        (ts ++ ((List.range n).filter fun j => conf.creates (m + j)).map fun _ => s.timestamp)
        (s.frames conf n) := by
  induction n generalizing s m ts with
  | zero => exact ⟨rfl, by rwa [List.range_zero, List.filter_nil, List.map_nil, List.append_nil]⟩
  | succ n ih =>
    have hnext : (s.frame conf).dropoutIndex = (m + 1) % conf.dropouts.length := by
      rw [frame_dropoutIndex, hdropout, Nat.mod_add_mod]
    have hframe := h.frame hchannels hindex hfits hfile hpos h32 hreplay
    obtain ⟨htime, hframes⟩ := ih hnext (hreplay.frame hfits hfile hpos h32) hframe
    rw [frame_timestamp] at htime hframes
    refine ⟨htime, ?_⟩
    have hcreates : conf.dropouts.getD s.dropoutIndex false = conf.creates (m + 0) := by
      rw [hdropout]
      rfl
    have hshift :
        (fun j => conf.creates (m + 1 + j)) = (fun j => conf.creates (m + j)) ∘ Nat.succ := by
      funext j
      rw [Nat.add_assoc, Nat.add_comm 1 j]
      rfl
    rw [hcreates, hshift] at hframes
    rw [List.range_succ_eq_map, List.filter_cons, List.filter_map]
    split_ifs at hframes ⊢
    · rw [List.map_cons, List.map_map, List.append_cons]
      exact hframes
    · rw [List.map_map, ← List.append_nil ts]
      exact hframes

variable (bits previousTs) in
theorem emulating_runProduce (now : Option UInt64) (n : ℕ) :
    let s := (init conf now (.generated bits) patterns previousTs).runProduce conf n
    Emulating conf bits patterns previousTs (conf.times (conf.firstTimestamp now) n) s ∧
      Replaying conf s ∧
      s.dropoutIndex = (n * conf.framesPerTick.toNat) % conf.dropouts.length ∧
      s.timestamp = conf.firstTimestamp now +
        UInt64.ofNat n * (conf.timeTickDiff * UInt64.ofNat conf.numFrames) := by
  induction n with
  | zero =>
    have htimes : conf.times (conf.firstTimestamp now) 0 = [] := by
      rw [EmulatorConf.times, EmulatorConf.createdFrames, Nat.zero_mul]
      rfl
    refine ⟨?_, ⟨Nat.zero_le _, rfl, nofun, nofun⟩, ?_, ?_⟩
    · rw [htimes]
      exact emulating_init conf now bits patterns previousTs
    · rw [Nat.zero_mul, Nat.zero_mod]
      rfl
    · show conf.firstTimestamp now = conf.firstTimestamp now + 0 * _
      rw [UInt64.zero_mul, UInt64.add_zero]
  | succ n ih =>
    obtain ⟨hemulating, hreplay, hdropout, htime⟩ := ih
    have hround := hemulating.frames hchannels hindex hfits hfile hpos h32 hdropout hreplay
      conf.framesPerTick.toNat
    have hreplay' := hreplay.frames hfits hfile hpos h32 conf.framesPerTick.toNat
    have hdropout' := (frames_sent_eq_nil_iff hdropout conf.framesPerTick.toNat).1
    rw [htime] at hround
    rw [runProduce_succ, EmulatorConf.times_succ]
    refine ⟨⟨hround.2.payloads, hround.2.errors, hround.2.pattern, hround.2.previous,
      hround.2.total⟩, ⟨hreplay'.offset_le, hreplay'.offset_mod, hreplay'.inBounds,
        hreplay'.cyclic⟩, ?_, ?_⟩
    · rw [Nat.succ_mul, ← hdropout']
      rfl
    · have hstep := congrArg
        (· + conf.timeTickDiff * UInt64.ofNat conf.numFrames) hround.1
      rw [UInt64.ofNat_add, UInt64.add_mul, UInt64.ofNat_one, UInt64.one_mul, ← UInt64.add_assoc]
      exact hstep

end Rounds

/-- The emulator sends the stream that its file, its dropouts, its errors and its pattern
describe, whatever the number of rounds. -/
theorem runProduce_emulates (conf : EmulatorConf) (file : List UInt8)
    (haccepts : conf.Accepts file) (hfile : file.length < 2 ^ 63)
    (helements : conf.fileSource.numElements ≠ 0) (now : Option UInt64) (bits : ErrorBits)
    (patterns : PatternGenerator)
    (hchannels : conf.generatePeriodicAdcPattern = true → patterns.channel ≠ [])
    (hindex : patterns.index ≤ patterns.channel.length) (previousTs : UInt64) (n : ℕ) :
    Emulates conf (conf.firstTimestamp now) bits patterns previousTs n
      ((init conf now (.generated bits) patterns previousTs).runProduce conf n) := by
  have hpos : 0 < conf.numElem :=
    Nat.pos_of_ne_zero fun hzero => helements (haccepts.numElements_eq_zero_iff.mpr hzero)
  have h32 : conf.numElem < 4294967296 := by
    rw [haccepts.numElem_eq]
    exact Nat.mod_lt _ (by decide)
  obtain ⟨h, -⟩ := emulating_runProduce bits previousTs hchannels hindex haccepts.numElem_mul_le
    (haccepts.source_eq ▸ hfile) hpos h32 now n
  refine ⟨h.payloads, h.total, (DeadTime.chosen_spaced conf.late previousTs _).imp ?_⟩
  intro a b hlate
  exact of_decide_eq_true (Bool.and_eq_true _ _ ▸ hlate).2

def markedType : EmulatedType :=
  { wordType with
    fakeFrameErrors := fun errors bytes =>
      bytes.take 1 ++ (bytes.drop 1).map (· + (errors.headD 0).toUInt8)
    fakeAdcPattern := fun channel bytes => some (bytes ++ [UInt8.ofNat channel.toNat]) }

def liftingConf : EmulatorConf :=
  { oddConf with readoutType := markedType, generatePeriodicAdcPattern := true, timeToWait := 30 }

def errorTurns : ErrorBits := ⟨fun i => UInt16.ofNat (10 * i), fun _ => 1, fun _ => 2⟩

theorem runProduce_emulates_lifting :
    Emulates liftingConf (liftingConf.firstTimestamp none) errorTurns ⟨[7, 9], 0⟩ 0 4
      ((init liftingConf none (.generated errorTurns) ⟨[7, 9], 0⟩ 0).runProduce liftingConf 4) :=
  runProduce_emulates liftingConf [1, 2, 3, 4, 5] ⟨0, _, rfl⟩ (by decide) (by decide) none
    errorTurns ⟨[7, 9], 0⟩ (by decide) (by decide) 0 4

end SourceEmulator
end DataHandling
