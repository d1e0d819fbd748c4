import DataHandling.Utils.BufferedFile

/-! What a session leaves in a file, whatever the file held before, and what is read back. -/

namespace DataHandling
open StoredFile

/-- The stream has taken `data`: its filter has been given the chunks, and the bytes `written` are
in the file. -/
structure OutputStream.Holds {filters : Filters} (st : OutputStream filters)
    (chunks : List (List UInt8)) (written data : List UInt8) : Prop where
  state : st.state =
    ((filters.pair st.algorithm).feedAll (filters.pair st.algorithm).start chunks).1
  output : written ++ st.output =
    ((filters.pair st.algorithm).feedAll (filters.pair st.algorithm).start chunks).2
  offset : st.offset = written.length
  data : chunks.flatten ++ st.buffered = data

section Stream
variable {filters : Filters} {st : OutputStream filters} {chunks : List (List UInt8)}
  {written data : List UInt8}

theorem OutputStream.Holds.feed (h : st.Holds chunks written data) (n : ℕ) :
    (st.feed n).Holds (chunks ++ [st.buffered.take n]) written data where
  state := by
    simp only [OutputStream.feed, Encoder.feedAll_concat, h.state]
  output := by
    simp only [OutputStream.feed, Encoder.feedAll_concat]
    rw [← List.append_assoc, h.output, h.state]
  offset := h.offset
  data := by
    simp only [OutputStream.feed]
    rw [List.flatten_append, List.flatten_singleton, List.append_assoc, List.take_append_drop]
    exact h.data

theorem OutputStream.Holds.drain (h : st.Holds chunks written data) (n : ℕ) :
    (st.drain n).Holds chunks (written ++ st.output.take n) data where
  state := h.state
  output := by
    simp only [OutputStream.drain]
    rw [List.append_assoc, List.take_append_drop]
    exact h.output
  offset := by
    simp only [OutputStream.drain]
    rw [List.length_append, h.offset]
  data := h.data

end Stream

namespace BufferedFileWriter
variable {filters : Filters} {algorithm : CompressionAlgorithm} {data : List UInt8}
  {w : List UInt8 → BufferedFileWriter filters}

/-- The writer does the same over every file: it has taken `data`, and has put some bytes over the
beginning of what the file held. -/
def Storing (algorithm : CompressionAlgorithm) (data : List UInt8)
    (w : List UInt8 → BufferedFileWriter filters) : Prop :=
  ∃ (st : OutputStream filters) (chunks : List (List UInt8)) (written : List UInt8),
    st.algorithm = algorithm ∧ st.Holds chunks written data ∧
      ∀ base, w base = ⟨some (writeAt base 0 written), some st⟩

theorem storing_openFile (filters : Filters) (algorithm : CompressionAlgorithm) :
    Storing algorithm [] fun base =>
      (openFile ⟨some base, none⟩ algorithm.text : BufferedFileWriter filters) := by
  refine ⟨⟨algorithm, (filters.pair algorithm).start, [], [], 0⟩, [], [], rfl,
    ⟨rfl, rfl, rfl, rfl⟩, fun base => ?_⟩
  have hclosed : (close ⟨some base, none⟩ [] : BufferedFileWriter filters) = ⟨some base, none⟩ :=
    rfl
  simp only [openFile, CompressionAlgorithm.ofText_text, hclosed, Option.getD_some, writeAt_nil]

theorem storing_store (w : List UInt8 → BufferedFileWriter filters) {st : OutputStream filters}
    {chunks : List (List UInt8)} {written : List UInt8} (hst : st.Holds chunks written data)
    (hw : ∀ base, (w base).file = some (writeAt base 0 written)) (n : ℕ) :
    Storing st.algorithm data fun base => (w base).store st n := by
  refine ⟨st.drain n, chunks, written ++ st.output.take n, rfl, hst.drain n, fun base => ?_⟩
  simp only [store, hw, Option.map_some, hst.offset, writeAt_writeAt]

theorem Storing.pass (h : Storing algorithm data w) (amounts : ℕ × ℕ) :
    Storing algorithm data fun base => (w base).pass amounts := by
  obtain ⟨st, chunks, written, rfl, hst, hw⟩ := h
  simp only [BufferedFileWriter.pass, hw]
  exact storing_store _ (hst.feed amounts.1) (fun base => rfl) amounts.2

theorem Storing.passes (h : Storing algorithm data w) (passes : List (ℕ × ℕ)) :
    Storing algorithm data fun base => passes.foldl BufferedFileWriter.pass (w base) := by
  induction passes generalizing w with
  | nil => exact h
  | cons amounts passes ih => exact ih (h.pass amounts)

theorem Storing.write (h : Storing algorithm data w) (memory : List UInt8)
    (passes : List (ℕ × ℕ)) :
    Storing algorithm (data ++ memory) fun base => ((w base).write memory passes).1 := by
  obtain ⟨st, chunks, written, rfl, hst, hw⟩ := h
  simp only [BufferedFileWriter.write, hw]
  apply Storing.passes
  refine ⟨{ st with buffered := st.buffered ++ memory }, chunks, written, rfl,
    ⟨hst.state, hst.output, hst.offset, ?_⟩, fun base => rfl⟩
  rw [← hst.data, List.append_assoc]

theorem Storing.flush (h : Storing algorithm data w) (passes : List (ℕ × ℕ)) :
    Storing algorithm data fun base => (w base).flush passes := by
  obtain ⟨st, chunks, written, rfl, hst, hw⟩ := h.passes passes
  simp only [BufferedFileWriter.flush, hw]
  split_ifs with hnone
  · exact storing_store _ (hst.feed _) (fun base => rfl) _
  · exact ⟨st, chunks, written, rfl, hst, fun base => rfl⟩

theorem Storing.close (h : Storing algorithm data w) (passes : List (ℕ × ℕ)) :
    ∃ stored, (filters.pair algorithm).decode stored = data ∧
      ∀ base, (w base).close passes = ⟨some (writeAt base 0 stored), none⟩ := by
  obtain ⟨st, chunks, written, rfl, hst, hw⟩ := h.passes passes
  have hfed := hst.feed st.buffered.length
  refine ⟨(filters.pair st.algorithm).encode (chunks ++ [st.buffered.take st.buffered.length]),
    ?_, fun base => ?_⟩
  · have hdata := hfed.data
    simp only [OutputStream.feed, List.drop_length, List.append_nil] at hdata
    rw [(filters.pair st.algorithm).lossless, hdata]
  · simp only [BufferedFileWriter.close, hw, Option.map_some, hfed.offset, writeAt_writeAt]
    rw [Encoder.encode, ← List.append_assoc, hfed.output, hfed.state]
    rfl

theorem Storing.calls {n : ℕ} (h : Storing algorithm data w) (calls : List (WriterCall n)) :
    Storing algorithm (data ++ (written calls).flatMap (·.1))
      fun base => calls.foldl call (w base) := by
  induction calls generalizing data w with
  | nil =>
    rw [written, List.flatMap_nil, List.append_nil]
    exact h
  | cons first calls ih =>
    cases first with
    | write element passes =>
      have hrest := ih (h.write element.1 passes)
      rw [List.append_assoc] at hrest
      exact hrest
    | flush passes => exact ih (h.flush passes)

theorem openFile_getD (file : Option (List UInt8)) (text : String) :
    (openFile ⟨file, none⟩ text : BufferedFileWriter filters) =
      openFile ⟨some (file.getD []), none⟩ text := by
  cases file <;> rfl

end BufferedFileWriter

namespace Session
variable (filters : Filters) (session : Session)

def stored : List UInt8 :=
  ((BufferedFileWriter.runSession (⟨none, none⟩ : BufferedFileWriter filters) session).file).getD []

theorem exists_stored : ∃ stored, (filters.pair session.algorithm).decode stored = session.data ∧
    ∀ file, (BufferedFileWriter.runSession ⟨file, none⟩ session : BufferedFileWriter filters) =
      ⟨some (writeAt (file.getD []) 0 stored), none⟩ := by
  have hcalls := (BufferedFileWriter.storing_openFile filters session.algorithm).calls session.calls
  obtain ⟨stored, hdecode, hclose⟩ := hcalls.close session.closing
  refine ⟨stored, hdecode, fun file => ?_⟩
  rw [BufferedFileWriter.runSession, BufferedFileWriter.openFile_getD]
  exact hclose _

/-- A session puts its own bytes over the beginning of what the file held, and keeps the rest. -/
theorem stored_spec :
    (filters.pair session.algorithm).decode (session.stored filters) = session.data ∧
      ∀ file, (BufferedFileWriter.runSession ⟨file, none⟩ session : BufferedFileWriter filters) =
        ⟨some (session.stored filters ++
          (file.getD []).drop (session.stored filters).length), none⟩ := by
  obtain ⟨stored, hdecode, hrun⟩ := exists_stored filters session
  have hstored : session.stored filters = stored := by
    rw [Session.stored, hrun, Option.getD_some, Option.getD_none, writeAt_zero, List.drop_nil,
      List.append_nil]
  rw [hstored]
  exact ⟨hdecode, fun file => by rw [hrun, writeAt_zero]⟩

theorem stored_of_none {session : Session} (h : session.algorithm = .none) :
    session.stored filters = session.data := by
  have hdecode := (session.stored_spec filters).1
  rw [h] at hdecode
  exact hdecode

end Session

namespace BufferedFileReader
variable {n : ℕ} {bytes : List UInt8}

theorem read_eq_none_iff : (read n ⟨some bytes⟩).1 = none ↔ bytes.length < n := by
  have hlength : (bytes.take n).length = min n bytes.length := List.length_take
  rw [read]
  dsimp only
  split_ifs with h
  · exact iff_of_false nofun (by omega)
  · exact iff_of_true rfl (by omega)

theorem read_eq_some_iff {element : Element n} :
    (read n ⟨some bytes⟩).1 = some element ↔ bytes.take n = element.1 := by
  rw [read]
  dsimp only
  split_ifs with h
  · rw [Option.some.injEq, Subtype.ext_iff]
  · exact iff_of_false nofun fun htake => h (htake ▸ element.2)

/-- Reading back takes the bytes of the elements, with less than one more element behind them. -/
theorem readsBack_iff (elements : List (Element n)) :
    ReadsBack ⟨some bytes⟩ elements ↔
      ∃ extra, bytes = elements.flatMap (·.1) ++ extra ∧ extra.length < n := by
  induction elements generalizing bytes with
  | nil =>
    rw [ReadsBack, read_eq_none_iff]
    constructor
    · exact fun h => ⟨bytes, rfl, h⟩
    · rintro ⟨extra, rfl, h⟩
      exact h
  | cons element elements ih =>
    rw [ReadsBack, read_eq_some_iff]
    have hrest : (read n ⟨some bytes⟩).2 = ⟨some (bytes.drop n)⟩ := rfl
    rw [hrest, ih]
    constructor
    · rintro ⟨htake, extra, hdrop, hlt⟩
      refine ⟨extra, ?_, hlt⟩
      rw [List.flatMap_cons, List.append_assoc, ← hdrop, ← htake, List.take_append_drop]
    · rintro ⟨extra, rfl, hlt⟩
      rw [List.flatMap_cons, List.append_assoc]
      exact ⟨List.take_left' element.2, extra, List.drop_left' element.2, hlt⟩

end BufferedFileReader

section RoundTrip
variable (filters : Filters) (file : Option (List UInt8)) (earlier : List Session) (last : Session)

def writerAfter : BufferedFileWriter filters :=
  earlier.foldl BufferedFileWriter.runSession ⟨file, none⟩

/-- A reader with the algorithm of the last session reads back its elements. -/
def RoundTrips : Prop :=
  ∃ reader ∈ BufferedFileReader.openFile filters
      (BufferedFileWriter.runSession (writerAfter filters file earlier) last).file
      last.algorithm.text,
    reader.ReadsBack (written last.calls)

/-- The bytes that stay in the file behind those of the session make less than one more element:
by themselves, or as the decompressor sees them. -/
def RestIgnored (contents : List UInt8) (session : Session) : Prop :=
  match session.algorithm with
  | .none => contents.length - session.data.length < session.elementSize
  | algorithm =>
    let decompressed := (filters.pair algorithm).decode
      (session.stored filters ++ contents.drop (session.stored filters).length)
    session.data <+: decompressed ∧
      decompressed.length < session.data.length + session.elementSize

theorem writerAfter_stream : (writerAfter filters file earlier).stream = none := by
  induction earlier generalizing file with
  | nil => rfl
  | cons session earlier ih =>
    rw [writerAfter, List.foldl_cons, (session.stored_spec filters).2]
    exact ih _

theorem exists_extra_iff {bytes data : List UInt8} {n : ℕ} :
    (∃ extra, bytes = data ++ extra ∧ extra.length < n) ↔
      data <+: bytes ∧ bytes.length < data.length + n := by
  constructor
  · rintro ⟨extra, rfl, h⟩
    rw [List.length_append, Nat.add_lt_add_iff_left]
    exact ⟨List.prefix_append _ _, h⟩
  · rintro ⟨⟨extra, rfl⟩, h⟩
    rw [List.length_append, Nat.add_lt_add_iff_left] at h
    exact ⟨extra, rfl, h⟩

theorem roundTrips_iff_exists {contents : List UInt8}
    (hcontents : (writerAfter filters file earlier).file.getD [] = contents) :
    RoundTrips filters file earlier last ↔
      ∃ extra, (filters.pair last.algorithm).decode
          (last.stored filters ++ contents.drop (last.stored filters).length) =
            last.data ++ extra ∧ extra.length < last.elementSize := by
  have hwriter : writerAfter filters file earlier =
      ⟨(writerAfter filters file earlier).file, none⟩ := by
    rw [← writerAfter_stream filters file earlier]
  rw [RoundTrips, hwriter, (last.stored_spec filters).2, hcontents]
  simp only [BufferedFileReader.openFile, Option.bind_some, CompressionAlgorithm.ofText_text,
    Option.map_some, Option.mem_def, Option.some.injEq, exists_eq_left']
  exact BufferedFileReader.readsBack_iff _

theorem restIgnored_of_length_le {contents : List UInt8} {session : Session}
    (hsize : 0 < session.elementSize) (h : contents.length ≤ (session.stored filters).length) :
    RestIgnored filters contents session := by
  rw [RestIgnored]
  split
  · next hnone =>
    rw [session.stored_of_none filters hnone] at h
    rwa [Nat.sub_eq_zero_of_le h]
  · rw [List.drop_eq_nil_of_le h, List.append_nil, (session.stored_spec filters).1]
    exact ⟨List.prefix_rfl, Nat.lt_add_of_pos_right hsize⟩

/-- Over every history of a file, the elements of the last session are read back if and only if
the bytes it leaves behind its own are ignored. -/
theorem roundTrips_iff :
    RoundTrips filters file earlier last ↔
      RestIgnored filters ((writerAfter filters file earlier).file.getD []) last := by
  rw [roundTrips_iff_exists filters file earlier last rfl, exists_extra_iff, RestIgnored]
  split
  · next hnone =>
    have hdecode (bytes : List UInt8) : (filters.pair .none).decode bytes = bytes := rfl
    rw [last.stored_of_none filters hnone, hnone, hdecode, List.length_append, List.length_drop,
      Nat.add_lt_add_iff_left]
    exact and_iff_right (List.prefix_append _ _)
  · exact Iff.rfl

end RoundTrip

def markedFilters : Filters := ⟨.marked, .marked, .marked⟩

def twoInts : Session where
  algorithm := .none
  elementSize := 4
  calls := [.write ⟨[1, 0, 0, 0], rfl⟩ [], .write ⟨[2, 0, 0, 0], rfl⟩ [(6, 4)]]
  closing := []

def oneInt (algorithm : CompressionAlgorithm) : Session where
  algorithm := algorithm
  elementSize := 4
  calls := [.write ⟨[3, 0, 0, 0], rfl⟩ [(2, 1)], .flush []]
  closing := [(1, 0)]

/-- A decompressor that ignores what is behind its own end. -/
example : RestIgnored markedFilters [9, 9, 9, 9, 9, 9, 9, 9, 9, 9, 9, 9] (oneInt .zlib) :=
  ⟨by decide +kernel, by decide +kernel⟩

/-- The last session is as long as the longest one before it. -/
theorem roundTrips_iff_twoInts :
    RoundTrips markedFilters (some [9, 9, 9]) [twoInts, oneInt .none] twoInts :=
  (roundTrips_iff markedFilters _ _ twoInts).mpr
    (by decide +kernel : _ - twoInts.data.length < twoInts.elementSize)

/-- After a longer session the reader finds the end of its elements again. -/
theorem not_roundTrips_of_longer :
    ¬ ∀ (filters : Filters) (file : Option (List UInt8)) (earlier : List Session) (last : Session),
      RoundTrips filters file earlier last := by
  intro hall
  have hread := (roundTrips_iff_exists markedFilters none [twoInts] (oneInt .none) rfl).mp
    (hall markedFilters none [twoInts] (oneInt .none))
  exact absurd (exists_extra_iff.mp hread).2 (by decide +kernel)

end DataHandling
