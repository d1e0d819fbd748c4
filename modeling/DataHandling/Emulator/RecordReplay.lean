import DataHandling.Emulator.EmulatedStream
import DataHandling.Recording.RecorderModel

/-! The file of the stand-alone recorder as the input of the emulator: what was received is what is
replayed. -/

namespace DataHandling
open MachineInt StoredFile

namespace RecorderModel
variable {filters : Filters} {n : ℕ} {s : RecorderModel filters n}

theorem Recorded.file_eq (h : Recorded CompressionAlgorithm.none.text s)
    (hphase : s.phase = .configured ∨ s.phase = .scrapped) :
    s.bufferedWriter.file = some (s.received.flatMap (·.1)) := by
  rcases hphase with hconfigured | hscrapped
  · refine h.flushed (.inl hconfigured) (h.idle (fun hrunning => ?_) fun hjoining => ?_) rfl
    · rw [hconfigured] at hrunning
      cases hrunning
    · rw [hconfigured] at hjoining
      cases hjoining
  · obtain ⟨algorithm, stored, htext, hdecode, hfile⟩ := h.scrapped hscrapped
    have halgorithm : algorithm = .none := by
      have hsame := congrArg CompressionAlgorithm.ofText htext
      rw [CompressionAlgorithm.ofText_text, CompressionAlgorithm.ofText_text] at hsame
      exact (Option.some.inj hsame).symm
    subst halgorithm
    rw [hfile, ← hdecode]
    rfl

end RecorderModel

theorem FileSourceBuffer.moreDataThanExpected_not_mem {inputLimit : ℤ} {count width : ℕ}
    {contents : List UInt8} {b : FileSourceBuffer} {warnings : List FileWarning}
    (hlength : contents.length = count * width)
    (hread : (create inputLimit width).read (some contents) = some (b, warnings)) :
    ∀ filesize chunkSize, .moreDataThanExpected filesize chunkSize ∉ warnings := by
  intro filesize chunkSize hmem
  have hrest : (contents.length : ℤ) % (width : ℤ) = 0 := by
    rw [hlength, ← Int.natCast_emod, Nat.mul_mod_left]
    rfl
  rw [← (Prod.mk.inj (Option.some.inj hread)).2] at hmem
  rcases List.mem_append.mp hmem with hlimit | hmore
  · split_ifs at hlimit
    · cases List.mem_singleton.mp hlimit
    · cases hlimit
  · have hnone : ¬ i32 ((contents.length : ℤ) % (width : ℤ)) > 0 := by
      rw [hrest]
      decide
    rw [if_neg fun hmoreData => hnone hmoreData.2] at hmore
    cases hmore

namespace SourceEmulator

/-- The elements of the source are those that were recorded, and the payloads are copied from them
in turn. -/
structure ReplaysRecording {n : ℕ} (conf : EmulatorConf) (recorded : List (Element n))
    (s : SourceEmulator) : Prop where
  numElem : conf.numElem = recorded.length
  element : ∀ i x, recorded[i]? = some x → conf.element i = x.1
  copied : ∀ k p, s.sent[k]? = some p →
    ∃ x ∈ recorded[k % recorded.length]?, p.copied = x.1

variable {filters : Filters} {n : ℕ}

/-- Whatever a recorder has received, the emulator reads it without a rest and sends it in turn. -/
theorem run_replaysRecording (filters : Filters) (file : Option (List UInt8))
    (as : List (RecorderAction n)) (recorder : RecorderModel filters n)
    (hwrites : Execution.StepsMeet (RecorderModel.step CompressionAlgorithm.none.text)
      RecorderModel.WritesSucceed (RecorderModel.init file : RecorderModel filters n) as)
    (hrun : Execution.run (RecorderModel.step CompressionAlgorithm.none.text)
      (RecorderModel.init file) as = some recorder)
    (hphase : recorder.phase = .configured ∨ recorder.phase = .scrapped)
    (hne : recorder.received ≠ []) (hcount : recorder.received.length < 2 ^ 32)
    (conf : EmulatorConf) (hsize : conf.readoutType.sizeOf = n) (inputLimit : ℤ)
    (warnings : List FileWarning)
    (hread : (FileSourceBuffer.create inputLimit n).read recorder.bufferedWriter.file =
      some (conf.fileSource, warnings))
    (now : Option UInt64) (bits : ErrorBits) (patterns : PatternGenerator)
    (hchannels : conf.generatePeriodicAdcPattern = true → patterns.channel ≠ [])
    (hindex : patterns.index ≤ patterns.channel.length) (previousTs : UInt64) (rounds : ℕ) :
    (∀ filesize chunkSize, .moreDataThanExpected filesize chunkSize ∉ warnings) ∧
      ReplaysRecording conf recorder.received
        ((init conf now (.generated bits) patterns previousTs).runProduce conf rounds) ∧
      Emulates conf (conf.firstTimestamp now) bits patterns previousTs rounds
        ((init conf now (.generated bits) patterns previousTs).runProduce conf rounds) := by
  have hrecorded := RecorderModel.run_recorded hwrites hrun
  rw [hrecorded.file_eq hphase] at hread
  subst hsize
  have hlength := Records.length_flatMap (fun x : Element conf.readoutType.sizeOf => x.2)
    recorder.received
  have haccepts : conf.Accepts (recorder.received.flatMap (·.1)) := ⟨inputLimit, warnings, hread⟩
  have hpos := conf.readoutType.sizeOf_pos
  have hnum : conf.numElem = recorder.received.length := by
    rw [haccepts.numElem_eq, hlength, Nat.mul_div_cancel _ hpos]
    exact Nat.mod_eq_of_lt hcount
  have hnonempty : 0 < recorder.received.length := List.length_pos_iff.mpr hne
  have helements : conf.fileSource.numElements ≠ 0 := by
    intro hzero
    rw [haccepts.numElements_eq_zero_iff, hnum] at hzero
    exact Nat.ne_of_gt hnonempty hzero
  have hfile : (recorder.received.flatMap (·.1)).length < 2 ^ 63 := by
    rw [hlength]
    calc recorder.received.length * conf.readoutType.sizeOf
        < 2 ^ 32 * 2 ^ 31 := Nat.mul_lt_mul'' hcount conf.readoutType.sizeOf_lt
      _ = 2 ^ 63 := by decide
  have helement : ∀ i x, recorder.received[i]? = some x → conf.element i = x.1 := by
    intro i x hx
    rw [EmulatorConf.element, haccepts.source_eq]
    exact Records.drop_take_flatMap (fun x => x.2) hx
  have hreplays := (runProduce_replays_iff conf _ haccepts hfile now (.generated bits) patterns
    previousTs rounds).mpr (.inl helements)
  refine ⟨?_, ⟨hnum, helement, fun k p hp => ?_⟩, ?_⟩
  · exact FileSourceBuffer.moreDataThanExpected_not_mem hlength hread
  · obtain ⟨x, hx⟩ : ∃ x, recorder.received[k % recorder.received.length]? = some x :=
      ⟨_, List.getElem?_eq_getElem (Nat.mod_lt k hnonempty)⟩
    refine ⟨x, hx, ?_⟩
    rw [hreplays.cyclic k p hp, hnum]
    exact helement _ x hx
  · exact runProduce_emulates conf _ haccepts hfile helements now bits patterns hchannels hindex
      previousTs rounds

def pausedRecorder : RecorderModel markedFilters 2 :=
  (Execution.run (RecorderModel.step CompressionAlgorithm.none.text)
    (RecorderModel.init (some [9, 9, 9])) RecorderModel.pausedActions).get (by decide +kernel)

def replayConf : EmulatorConf := { liftingConf with fileSource := ⟨100, 2, 2, [1, 2, 3, 4]⟩ }

theorem run_replaysRecording_paused :
    (∀ filesize chunkSize,
      .moreDataThanExpected filesize chunkSize ∉ ([] : List FileWarning)) ∧
      ReplaysRecording replayConf pausedRecorder.received
        ((init replayConf none (.generated errorTurns) ⟨[7, 9], 0⟩ 0).runProduce replayConf 4) ∧
      Emulates replayConf (replayConf.firstTimestamp none) errorTurns ⟨[7, 9], 0⟩ 0 4
        ((init replayConf none (.generated errorTurns) ⟨[7, 9], 0⟩ 0).runProduce replayConf 4) := by
  have hfile : pausedRecorder.bufferedWriter.file = some [1, 2, 3, 4] := by decide +kernel
  refine run_replaysRecording markedFilters (some [9, 9, 9]) RecorderModel.pausedActions
    pausedRecorder (Execution.stepsMeet_of_checkSteps (fun _ _ => of_decide_eq_true)
      (by decide +kernel :
        Execution.checkSteps (RecorderModel.step CompressionAlgorithm.none.text)
          (fun s a => decide (RecorderModel.WritesSucceed s a))
          (RecorderModel.init (some [9, 9, 9]) : RecorderModel markedFilters 2)
          RecorderModel.pausedActions = true))
    (Option.some_get _).symm (.inr (by decide +kernel)) (by decide +kernel)
    (by decide +kernel) replayConf rfl 100 [] ?_ none errorTurns ⟨[7, 9], 0⟩ (by decide)
    (by decide) 0 4
  rw [hfile]
  rfl

end SourceEmulator
end DataHandling
