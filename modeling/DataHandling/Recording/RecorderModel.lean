import DataHandling.Foundation.Execution
import DataHandling.Utils.FileRoundTrip

/-! The stand-alone recorder: its commands and the thread that writes every element it receives to
a file of its own. A write to the file may fail, as one at an unaligned offset does with `O_DIRECT`;
then the stream is bad and takes nothing until the file is opened anew. -/

namespace DataHandling
open StoredFile

/-- Where the commands stand; `joining` is in `do_stop`. -/
inductive RecorderPhase where
  | initial
  | configured
  | running
  | joining
  | scrapped
  deriving DecidableEq

/-- Where the thread in `do_work` stands: out of it, before it reads the run marker, before it
receives, with an element, or past the loop. -/
inductive WorkThread (n : ℕ) where
  | ready
  | atRunMarker
  | atReceive
  | atWrite (element : Element n)
  | atFlush

/-- The recorder of elements of `n` bytes, with the elements received since its configuration. -/
structure RecorderModel (filters : Filters) (n : ℕ) where
  phase : RecorderPhase
  bufferedWriter : BufferedFileWriter filters
  streamBad : Bool
  runMarker : Bool
  workThread : WorkThread n
  received : List (Element n)

/-- The commands and the steps of the thread. The buffers of the file empty in the course of the
calls of the writer, unless the file refuses to take what they hold. -/
inductive RecorderAction (n : ℕ) where
  | doConf
  | doStart
  | doStop
  | joinWork
  | doScrap (passes : List (ℕ × ℕ))
  | readRunMarker
  | receive (element : Element n)
  | receiveTimeout
  | write (passes : List (ℕ × ℕ))
  | writeFails (taken : ℕ) (passes : List (ℕ × ℕ))
  | flush (passes : List (ℕ × ℕ))
  | flushFails (passes : List (ℕ × ℕ))

namespace RecorderModel
variable {filters : Filters} {n : ℕ}

def init (file : Option (List UInt8)) : RecorderModel filters n where
  phase := .initial
  bufferedWriter := ⟨file, none⟩
  streamBad := false
  runMarker := false
  workThread := .ready
  received := []

variable (compressionAlgorithm : String)

/-- The output file is removed and opened; `open` throws if it does not know the algorithm. -/
def doConf (s : RecorderModel filters n) : RecorderModel filters n :=
  let writer := { s.bufferedWriter with file := none }.openFile compressionAlgorithm
  { s with
    phase := if writer.stream.isSome then .configured else .initial
    bufferedWriter := writer
    streamBad := false
    received := [] }

def step (s : RecorderModel filters n) : RecorderAction n → Option (RecorderModel filters n)
  | .doConf =>
    if s.phase = .running ∨ s.phase = .joining then none else some (s.doConf compressionAlgorithm)
  | .doStart =>
    if s.phase = .configured then
      some { s with
        phase := .running
        runMarker := true
        workThread := match s.workThread with
          | .ready => .atRunMarker
          -- the work is refused
          | busy => busy }
    else none
  | .doStop =>
    if s.phase = .running then some { s with phase := .joining, runMarker := false } else none
  | .joinWork =>
    match s.phase, s.workThread with
    | .joining, .ready => some { s with phase := .configured }
    | _, _ => none
  | .doScrap passes =>
    if s.phase = .configured then
      some { s with phase := .scrapped, bufferedWriter := s.bufferedWriter.close passes }
    else none
  | .readRunMarker =>
    match s.workThread with
    | .atRunMarker =>
      some { s with workThread := if s.runMarker then .atReceive else .atFlush }
    | _ => none
  | .receive element =>
    match s.workThread with
    | .atReceive =>
      some { s with workThread := .atWrite element, received := s.received ++ [element] }
    | _ => none
  | .receiveTimeout =>
    match s.workThread with
    | .atReceive => some { s with workThread := .atRunMarker }
    | _ => none
  | .write passes =>
    match s.workThread with
    | .atWrite element =>
      if s.streamBad then some { s with workThread := .atFlush }
      else
        let result := s.bufferedWriter.write element.1 passes
        some { s with
          bufferedWriter := result.1
          workThread := if result.2 then .atRunMarker else .atFlush }
    | _ => none
  -- a failed write leaves the loop
  | .writeFails taken passes =>
    match s.workThread with
    | .atWrite element =>
      if s.streamBad then none
      else
        some { s with
          bufferedWriter := (s.bufferedWriter.write (element.1.take taken) passes).1
          streamBad := true
          workThread := .atFlush }
    | _ => none
  | .flush passes =>
    match s.workThread with
    | .atFlush =>
      some { s with
        bufferedWriter :=
          if s.streamBad then s.bufferedWriter else s.bufferedWriter.flush passes
        workThread := .ready }
    | _ => none
  | .flushFails passes =>
    match s.workThread with
    | .atFlush =>
      if s.streamBad then none
      else
        some { s with
          bufferedWriter := passes.foldl BufferedFileWriter.pass s.bufferedWriter
          streamBad := true
          workThread := .ready }
    | _ => none

def WritesSucceed (_ : RecorderModel filters n) : RecorderAction n → Prop
  | .writeFails _ _ | .flushFails _ => False
  | _ => True

instance (s : RecorderModel filters n) : (a : RecorderAction n) → Decidable (WritesSucceed s a)
  | .writeFails _ _ | .flushFails _ => isFalse id
  | .doConf | .doStart | .doStop | .joinWork | .doScrap _ | .readRunMarker | .receive _
  | .receiveTimeout | .write _ | .flush _ => isTrue trivial

/-- After `do_scrap` a reader gets back every element received since `do_conf`, and nothing else;
without compression they are in the file already when `do_stop` has returned. -/
structure RecordsStream (s : RecorderModel filters n) : Prop where
  scrapped : s.phase = .scrapped →
    ∃ reader ∈ BufferedFileReader.openFile filters s.bufferedWriter.file compressionAlgorithm,
      reader.ReadsBack s.received
  stopped : s.phase = .configured → compressionAlgorithm = CompressionAlgorithm.none.text →
    s.bufferedWriter.file = some (s.received.flatMap (·.1))

def held : WorkThread n → List (Element n)
  | .atWrite element => [element]
  | _ => []

def Takes (elements : List (Element n)) (writer : BufferedFileWriter filters) : Prop :=
  ∃ algorithm w, compressionAlgorithm = CompressionAlgorithm.text algorithm ∧
    BufferedFileWriter.Storing algorithm (elements.flatMap (·.1)) w ∧ writer = w []

structure Recorded (s : RecorderModel filters n) : Prop where
  good : s.streamBad = false
  taken : s.phase = .configured ∨ s.phase = .running ∨ s.phase = .joining →
    ∃ elements, s.received = elements ++ held s.workThread ∧
      Takes compressionAlgorithm elements s.bufferedWriter
  idle : s.phase ≠ .running → s.phase ≠ .joining → s.workThread = .ready
  working : s.phase = .running → s.workThread ≠ .ready ∧ s.workThread ≠ .atFlush ∧
    s.runMarker = true
  flushed : s.phase = .configured ∨ s.phase = .joining → s.workThread = .ready →
    compressionAlgorithm = CompressionAlgorithm.none.text →
      s.bufferedWriter.file = some (s.received.flatMap (·.1))
  scrapped : s.phase = .scrapped → ∃ algorithm stored,
    compressionAlgorithm = CompressionAlgorithm.text algorithm ∧
      (filters.pair algorithm).decode stored = s.received.flatMap (·.1) ∧
        s.bufferedWriter.file = some stored

section Writer
variable {compressionAlgorithm} {elements : List (Element n)} {writer : BufferedFileWriter filters}

theorem feedAll_of_none {algorithm : CompressionAlgorithm} (h : algorithm = .none)
    (chunks : List (List UInt8)) :
    ((filters.pair algorithm).feedAll (filters.pair algorithm).start chunks).2 =
      chunks.flatten := by
  subst h
  have hlossless := (filters.pair .none).lossless chunks
  rw [Encoder.encode] at hlossless
  have hfinish : (filters.pair .none).finish
      ((filters.pair .none).feedAll (filters.pair .none).start chunks).1 = [] := rfl
  rw [hfinish, List.append_nil] at hlossless
  exact hlossless

theorem takes_openFile (algorithm : CompressionAlgorithm) (stream : Option (OutputStream filters)) :
    Takes algorithm.text ([] : List (Element n))
      (BufferedFileWriter.openFile ⟨none, stream⟩ algorithm.text) := by
  refine ⟨algorithm, _, rfl, BufferedFileWriter.storing_openFile filters algorithm, ?_⟩
  cases stream with
  | none => exact BufferedFileWriter.openFile_getD none algorithm.text
  | some st => rfl

theorem Takes.write (h : Takes compressionAlgorithm elements writer) (element : Element n)
    (passes : List (ℕ × ℕ)) :
    (writer.write element.1 passes).2 = true ∧
      Takes compressionAlgorithm (elements ++ [element]) (writer.write element.1 passes).1 := by
  obtain ⟨algorithm, w, htext, hstoring, rfl⟩ := h
  have hwrite := hstoring.write element.1 passes
  refine ⟨?_, algorithm, fun base => ((w base).write element.1 passes).1, htext, ?_, rfl⟩
  · obtain ⟨st, chunks, written, _, _, hw⟩ := hstoring
    rw [BufferedFileWriter.write, hw]
  · rw [List.flatMap_append, List.flatMap_singleton]
    exact hwrite

theorem Takes.flush (h : Takes compressionAlgorithm elements writer) (passes : List (ℕ × ℕ)) :
    Takes compressionAlgorithm elements (writer.flush passes) := by
  obtain ⟨algorithm, w, htext, hstoring, rfl⟩ := h
  exact ⟨algorithm, fun base => (w base).flush passes, htext, hstoring.flush passes, rfl⟩

theorem Takes.flush_file (h : Takes compressionAlgorithm elements writer)
    (hnone : compressionAlgorithm = CompressionAlgorithm.none.text) (passes : List (ℕ × ℕ)) :
    (writer.flush passes).file = some (elements.flatMap (·.1)) := by
  obtain ⟨algorithm, w, htext, hstoring, rfl⟩ := h
  have halgorithm : algorithm = .none := by
    have hsame : algorithm.text = CompressionAlgorithm.none.text := htext.symm.trans hnone
    have hof := CompressionAlgorithm.ofText_text algorithm
    rw [hsame, CompressionAlgorithm.ofText_text] at hof
    exact (Option.some.inj hof).symm
  obtain ⟨st, chunks, written, hst, hholds, hw⟩ := hstoring.passes passes
  have hfed := hholds.feed st.buffered.length
  have hplain : st.algorithm = .none := hst.trans halgorithm
  -- what the stream has given out is what it has taken
  have hout : written ++ (st.feed st.buffered.length).output = elements.flatMap (·.1) := by
    have hdata := hfed.data
    have hempty : (st.feed st.buffered.length).buffered = [] := List.drop_length
    rw [hempty, List.append_nil] at hdata
    rw [hfed.output, ← hdata]
    exact feedAll_of_none hplain _
  have hpasses : passes.foldl BufferedFileWriter.pass (w []) =
      ⟨some (writeAt [] 0 written), some st⟩ := hw []
  rw [BufferedFileWriter.flush, hpasses]
  dsimp only
  rw [if_pos hplain, BufferedFileWriter.store]
  simp only [Option.map_some, hfed.offset, List.take_length, writeAt_writeAt, hout]
  rw [writeAt_zero, List.drop_nil, List.append_nil]

theorem Takes.close (h : Takes compressionAlgorithm elements writer) (passes : List (ℕ × ℕ)) :
    ∃ algorithm stored, compressionAlgorithm = CompressionAlgorithm.text algorithm ∧
      (filters.pair algorithm).decode stored = elements.flatMap (·.1) ∧
        writer.close passes = ⟨some stored, none⟩ := by
  obtain ⟨algorithm, w, htext, hstoring, rfl⟩ := h
  obtain ⟨stored, hdecode, hclose⟩ := hstoring.close passes
  refine ⟨algorithm, stored, htext, hdecode, ?_⟩
  rw [hclose, writeAt_zero, List.drop_nil, List.append_nil]

end Writer

variable {compressionAlgorithm} {s s' : RecorderModel filters n}

theorem recorded_init (file : Option (List UInt8)) :
    Recorded compressionAlgorithm (init file : RecorderModel filters n) where
  good := rfl
  taken := by
    rintro (h | h | h) <;> cases h
  idle := fun _ _ => rfl
  working := nofun
  flushed := by
    rintro (h | h) <;> cases h
  scrapped := nofun

theorem text_of_ofText {text : String} {algorithm : CompressionAlgorithm}
    (h : CompressionAlgorithm.ofText text = some algorithm) : text = algorithm.text := by
  rw [CompressionAlgorithm.ofText] at h
  split_ifs at h with hzstd hlzma hzlib hnone
  all_goals
    cases h
    assumption

theorem openFile_stream_of_none {text : String} (h : CompressionAlgorithm.ofText text = none)
    (stream : Option (OutputStream filters)) :
    (BufferedFileWriter.openFile ⟨none, stream⟩ text).stream = none := by
  cases stream <;> simp [BufferedFileWriter.openFile, BufferedFileWriter.close, h]

theorem openFile_of_some {text : String} {algorithm : CompressionAlgorithm}
    (h : CompressionAlgorithm.ofText text = some algorithm)
    (stream : Option (OutputStream filters)) :
    BufferedFileWriter.openFile ⟨none, stream⟩ text =
      ⟨some [], some ⟨algorithm, (filters.pair algorithm).start, [], [], 0⟩⟩ := by
  cases stream <;> simp [BufferedFileWriter.openFile, BufferedFileWriter.close, h]

theorem Recorded.doConf (h : Recorded compressionAlgorithm s)
    (hidle : ¬ (s.phase = .running ∨ s.phase = .joining)) :
    Recorded compressionAlgorithm (s.doConf compressionAlgorithm) := by
  have hready : s.workThread = .ready :=
    h.idle (fun hr => hidle (.inl hr)) fun hj => hidle (.inr hj)
  cases halgorithm : CompressionAlgorithm.ofText compressionAlgorithm with
  | none =>
    have hphase : (s.doConf compressionAlgorithm).phase = .initial := by
      rw [RecorderModel.doConf]
      dsimp only
      rw [openFile_stream_of_none halgorithm]
      rfl
    refine ⟨rfl, ?_, fun _ _ => hready, ?_, ?_, ?_⟩
    all_goals
      rw [hphase]
      simp
  | some algorithm =>
    have hphase : (s.doConf compressionAlgorithm).phase = .configured := by
      rw [RecorderModel.doConf]
      dsimp only
      rw [openFile_of_some halgorithm]
      rfl
    refine ⟨rfl, fun _ => ⟨[], ?_, ?_⟩, fun _ _ => hready, ?_, fun _ _ _ => ?_, ?_⟩
    · show ([] : List (Element n)) = [] ++ held s.workThread
      rw [hready]
      rfl
    · show Takes compressionAlgorithm []
        (BufferedFileWriter.openFile ⟨none, _⟩ compressionAlgorithm)
      rw [text_of_ofText halgorithm]
      exact takes_openFile algorithm _
    · rw [hphase]
      nofun
    · show (BufferedFileWriter.openFile ⟨none, _⟩ compressionAlgorithm).file = _
      rw [openFile_of_some halgorithm]
      rfl
    · rw [hphase]
      nofun

theorem Recorded.active (h : Recorded compressionAlgorithm s) (hne : s.workThread ≠ .ready) :
    s.phase = .running ∨ s.phase = .joining := by
  by_contra hidle
  exact hne (h.idle (fun hr => hidle (.inl hr)) fun hj => hidle (.inr hj))

theorem Recorded.goTo (h : Recorded compressionAlgorithm s) (hne : s.workThread ≠ .ready)
    {thread : WorkThread n} {writer : BufferedFileWriter filters} {received : List (Element n)}
    (hthread : thread ≠ .ready) (hflush : s.runMarker = true → thread ≠ .atFlush)
    (htaken : ∃ elements, received = elements ++ held thread ∧
      Takes compressionAlgorithm elements writer) :
    Recorded compressionAlgorithm
      { s with workThread := thread, bufferedWriter := writer, received := received } where
  good := h.good
  taken := fun _ => htaken
  idle := by
    intro hrunning hjoining
    rcases h.active hne with hphase | hphase
    · exact absurd hphase hrunning
    · exact absurd hphase hjoining
  working := by
    intro hphase
    have hmarker := (h.working hphase).2.2
    exact ⟨hthread, hflush hmarker, hmarker⟩
  flushed := fun _ hready => absurd hready hthread
  scrapped := by
    intro hphase
    rcases h.active hne with hrunning | hjoining
    · exact absurd (hphase.symm.trans hrunning) nofun
    · exact absurd (hphase.symm.trans hjoining) nofun

theorem Recorded.busy (h : Recorded compressionAlgorithm s) {thread : WorkThread n}
    (hthread : s.workThread = thread) (hbusy : thread ≠ .ready) :
    s.workThread ≠ .ready ∧ ∃ elements, s.received = elements ++ held thread ∧
      Takes compressionAlgorithm elements s.bufferedWriter := by
  subst hthread
  exact ⟨hbusy, h.taken (.inr (h.active hbusy))⟩

section Steps
variable (h : Recorded compressionAlgorithm s)
include h

theorem Recorded.doStart
    (hstep : RecorderModel.step compressionAlgorithm s .doStart = some s') :
    Recorded compressionAlgorithm s' := by
  rw [RecorderModel.step] at hstep
  split_ifs at hstep with hphase
  cases hstep
  have hready := h.idle (by rw [hphase]; rintro ⟨⟩) (by rw [hphase]; rintro ⟨⟩)
  obtain ⟨elements, hreceived, htakes⟩ := h.taken (.inl hphase)
  rw [hready] at hreceived
  simp only [hready]
  exact ⟨h.good, fun _ => ⟨elements, hreceived, htakes⟩, fun hne => absurd rfl hne,
    fun _ => ⟨by rintro ⟨⟩, by rintro ⟨⟩, rfl⟩, fun _ => by rintro ⟨⟩, by rintro ⟨⟩⟩

theorem Recorded.doStop
    (hstep : RecorderModel.step compressionAlgorithm s .doStop = some s') :
    Recorded compressionAlgorithm s' := by
  rw [RecorderModel.step] at hstep
  split_ifs at hstep with hphase
  cases hstep
  exact ⟨h.good, fun _ => h.taken (.inr (.inl hphase)), fun _ hne => absurd rfl hne,
    by rintro ⟨⟩, fun _ hready => absurd hready (h.working hphase).1, by rintro ⟨⟩⟩

theorem Recorded.joinWork
    (hstep : RecorderModel.step compressionAlgorithm s .joinWork = some s') :
    Recorded compressionAlgorithm s' := by
  rw [RecorderModel.step] at hstep
  split at hstep
  · rename_i hphase hready
    cases hstep
    exact ⟨h.good, fun _ => h.taken (.inr (.inr hphase)), fun _ _ => hready, by rintro ⟨⟩,
      fun _ => h.flushed (.inr hphase), by rintro ⟨⟩⟩
  · cases hstep

theorem Recorded.doScrap {passes : List (ℕ × ℕ)}
    (hstep : RecorderModel.step compressionAlgorithm s (.doScrap passes) = some s') :
    Recorded compressionAlgorithm s' := by
  rw [RecorderModel.step] at hstep
  split_ifs at hstep with hphase
  cases hstep
  have hready := h.idle (by rw [hphase]; rintro ⟨⟩) (by rw [hphase]; rintro ⟨⟩)
  obtain ⟨elements, hreceived, htakes⟩ := h.taken (.inl hphase)
  obtain ⟨algorithm, stored, htext, hdecode, hclose⟩ := htakes.close passes
  rw [hready] at hreceived
  have hall : s.received = elements := hreceived.trans (List.append_nil elements)
  refine ⟨h.good, ?_, fun _ _ => hready, by rintro ⟨⟩, ?_,
    fun _ => ⟨algorithm, stored, htext, ?_, ?_⟩⟩
  · rintro (hp | hp | hp) <;> cases hp
  · rintro (hp | hp) <;> cases hp
  · rw [hall]
    exact hdecode
  · show (s.bufferedWriter.close passes).file = some stored
    rw [hclose]

theorem Recorded.readRunMarker
    (hstep : RecorderModel.step compressionAlgorithm s .readRunMarker = some s') :
    Recorded compressionAlgorithm s' := by
  rw [RecorderModel.step] at hstep
  split at hstep
  · rename_i hthread
    cases hstep
    obtain ⟨hne, elements, hreceived, htakes⟩ := h.busy hthread (by rintro ⟨⟩)
    apply h.goTo hne
    · split_ifs <;> rintro ⟨⟩
    · intro hmarker
      rw [if_pos hmarker]
      rintro ⟨⟩
    · refine ⟨elements, ?_, htakes⟩
      rw [hreceived]
      split_ifs <;> rfl
  · cases hstep

theorem Recorded.receive {element : Element n}
    (hstep : RecorderModel.step compressionAlgorithm s (.receive element) = some s') :
    Recorded compressionAlgorithm s' := by
  rw [RecorderModel.step] at hstep
  split at hstep
  · rename_i hthread
    cases hstep
    obtain ⟨hne, elements, hreceived, htakes⟩ := h.busy hthread (by rintro ⟨⟩)
    refine h.goTo hne (by rintro ⟨⟩) (fun _ => by rintro ⟨⟩) ⟨elements, ?_, htakes⟩
    rw [hreceived]
    exact congrArg (· ++ [element]) (List.append_nil elements)
  · cases hstep

theorem Recorded.receiveTimeout
    (hstep : RecorderModel.step compressionAlgorithm s .receiveTimeout = some s') :
    Recorded compressionAlgorithm s' := by
  rw [RecorderModel.step] at hstep
  split at hstep
  · rename_i hthread
    cases hstep
    obtain ⟨hne, elements, hreceived, htakes⟩ := h.busy hthread (by rintro ⟨⟩)
    exact h.goTo hne (by rintro ⟨⟩) (fun _ => by rintro ⟨⟩) ⟨elements, hreceived, htakes⟩
  · cases hstep

theorem Recorded.write {passes : List (ℕ × ℕ)}
    (hstep : RecorderModel.step compressionAlgorithm s (.write passes) = some s') :
    Recorded compressionAlgorithm s' := by
  rw [RecorderModel.step] at hstep
  split at hstep
  · rename_i element hthread
    rw [if_neg (Bool.eq_false_iff.mp h.good)] at hstep
    cases hstep
    obtain ⟨hne, elements, hreceived, htakes⟩ := h.busy hthread (by rintro ⟨⟩)
    obtain ⟨hwritten, hnext⟩ := htakes.write element passes
    rw [hwritten, if_pos rfl]
    refine h.goTo hne (by rintro ⟨⟩) (fun _ => by rintro ⟨⟩) ⟨elements ++ [element], ?_, hnext⟩
    exact hreceived.trans (List.append_nil _).symm
  · cases hstep

theorem Recorded.flush {passes : List (ℕ × ℕ)}
    (hstep : RecorderModel.step compressionAlgorithm s (.flush passes) = some s') :
    Recorded compressionAlgorithm s' := by
  rw [RecorderModel.step] at hstep
  split at hstep
  · rename_i hthread
    rw [if_neg (Bool.eq_false_iff.mp h.good)] at hstep
    cases hstep
    obtain ⟨hne, elements, hreceived, htakes⟩ := h.busy hthread (by rintro ⟨⟩)
    have hall : s.received = elements := hreceived.trans (List.append_nil elements)
    have hjoining : s.phase = .joining := by
      rcases h.active hne with hphase | hphase
      · exact absurd hthread (h.working hphase).2.1
      · exact hphase
    refine ⟨h.good, fun _ => ⟨elements, hreceived, htakes.flush passes⟩, fun _ _ => rfl,
      fun hphase => ?_, fun _ _ hnone => ?_, fun hphase => ?_⟩
    · exact absurd (hjoining.symm.trans hphase) (by rintro ⟨⟩)
    · rw [hall]
      exact htakes.flush_file hnone passes
    · exact absurd (hjoining.symm.trans hphase) (by rintro ⟨⟩)
  · cases hstep

theorem Recorded.step {a : RecorderAction n} (hwrites : WritesSucceed s a)
    (hstep : RecorderModel.step compressionAlgorithm s a = some s') :
    Recorded compressionAlgorithm s' := by
  cases a with
  | doConf =>
    rw [RecorderModel.step] at hstep
    split_ifs at hstep with hbusy
    cases hstep
    exact h.doConf hbusy
  | doStart => exact h.doStart hstep
  | doStop => exact h.doStop hstep
  | joinWork => exact h.joinWork hstep
  | doScrap passes => exact h.doScrap hstep
  | readRunMarker => exact h.readRunMarker hstep
  | receive element => exact h.receive hstep
  | receiveTimeout => exact h.receiveTimeout hstep
  | write passes => exact h.write hstep
  | writeFails taken passes => exact absurd hwrites id
  | flush passes => exact h.flush hstep
  | flushFails passes => exact absurd hwrites id

end Steps

theorem Recorded.recordsStream (h : Recorded compressionAlgorithm s) (hsize : 0 < n) :
    RecordsStream compressionAlgorithm s where
  scrapped := by
    intro hphase
    obtain ⟨algorithm, stored, rfl, hdecode, hfile⟩ := h.scrapped hphase
    refine ⟨⟨some ((filters.pair algorithm).decode stored)⟩, ?_, ?_⟩
    · rw [BufferedFileReader.openFile, hfile, CompressionAlgorithm.ofText_text]
      rfl
    · rw [BufferedFileReader.readsBack_iff]
      exact ⟨[], by rw [hdecode, List.append_nil], hsize⟩
  stopped := by
    intro hphase hnone
    refine h.flushed (.inl hphase) (h.idle (fun hrunning => ?_) fun hjoining => ?_) hnone
    · rw [hphase] at hrunning
      cases hrunning
    · rw [hphase] at hjoining
      cases hjoining

theorem run_recorded {file : Option (List UInt8)} {as : List (RecorderAction n)}
    (hwrites : Execution.StepsMeet (RecorderModel.step compressionAlgorithm) WritesSucceed
      (init file : RecorderModel filters n) as)
    (hrun : Execution.run (RecorderModel.step compressionAlgorithm) (init file) as = some s) :
    Recorded compressionAlgorithm s :=
  Execution.run_invariant_of_stepsMeet (fun _ _ _ h hcond hstep => h.step hcond hstep)
    (recorded_init file) hwrites hrun

/-- In every run of the recorder its file holds what it received, as long as the file takes what
it is given. -/
theorem run_recordsStream (filters : Filters) (compressionAlgorithm : String) (hsize : 0 < n)
    (file : Option (List UInt8)) (as : List (RecorderAction n)) (s : RecorderModel filters n)
    (hwrites : Execution.StepsMeet (RecorderModel.step compressionAlgorithm) WritesSucceed
      (init file : RecorderModel filters n) as)
    (hrun : Execution.run (RecorderModel.step compressionAlgorithm) (init file) as = some s) :
    RecordsStream compressionAlgorithm s :=
  (run_recorded hwrites hrun).recordsStream hsize

def pausedActions : List (RecorderAction 2) :=
  [.doConf, .doStart, .readRunMarker, .receive ⟨[1, 2], rfl⟩, .write [(1, 1)], .readRunMarker,
    .doStop, .receiveTimeout, .readRunMarker, .flush [], .joinWork, .doStart, .readRunMarker,
    .receive ⟨[3, 4], rfl⟩, .doStop, .write [], .readRunMarker, .flush [(1, 2)], .joinWork,
    .doScrap [(2, 1)]]

theorem run_recordsStream_paused : RecordsStream "zlib"
    ((Execution.run (RecorderModel.step "zlib")
      (init (some [9, 9, 9, 9, 9, 9]) : RecorderModel markedFilters 2) pausedActions).get
        (by decide +kernel)) :=
  run_recordsStream markedFilters "zlib" (by decide) (some [9, 9, 9, 9, 9, 9]) pausedActions _
    (Execution.stepsMeet_of_checkSteps (fun _ _ => of_decide_eq_true)
      (by decide +kernel : Execution.checkSteps (RecorderModel.step "zlib")
        (fun s a => decide (WritesSucceed s a))
        (init (some [9, 9, 9, 9, 9, 9]) : RecorderModel markedFilters 2) pausedActions = true))
    (Option.some_get _).symm

end RecorderModel
end DataHandling
