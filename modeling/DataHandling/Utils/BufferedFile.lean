import DataHandling.Foundation.StreamFilter

/-! A file under a `BufferedFileWriter` and a `BufferedFileReader`. Every write to the file
succeeds, with or without `O_DIRECT`. -/

namespace DataHandling
open StoredFile

inductive CompressionAlgorithm where
  | zstd
  | lzma
  | zlib
  | none
  deriving DecidableEq

namespace CompressionAlgorithm

def text : CompressionAlgorithm → String
  | zstd => "zstd"
  | lzma => "lzma"
  | zlib => "zlib"
  | none => "None"

def ofText (text : String) : Option CompressionAlgorithm :=
  if text = "zstd" then some zstd
  else if text = "lzma" then some lzma
  else if text = "zlib" then some zlib
  else if text = "None" then some none
  else .none

theorem ofText_text (algorithm : CompressionAlgorithm) :
    ofText algorithm.text = some algorithm := by
  cases algorithm <;> rfl

end CompressionAlgorithm

structure Filters where
  zstd : FilterPair UInt8
  lzma : FilterPair UInt8
  zlib : FilterPair UInt8

def Filters.pair (filters : Filters) : CompressionAlgorithm → FilterPair UInt8
  | .zstd => filters.zstd
  | .lzma => filters.lzma
  | .zlib => filters.zlib
  | .none => .identity

/-- The chain behind `m_output_stream`: bytes that wait for the filter, the filter, its output that
waits for the file, and the position in the file. -/
structure OutputStream (filters : Filters) where
  algorithm : CompressionAlgorithm
  state : (filters.pair algorithm).State
  buffered : List UInt8
  output : List UInt8
  offset : ℕ

structure BufferedFileWriter (filters : Filters) where
  file : Option (List UInt8)
  stream : Option (OutputStream filters)

/-- The values of a type of `n` bytes. -/
abbrev Element (n : ℕ) := { bytes : List UInt8 // bytes.length = n }

/-- A call between `open` and `close`. The buffers fill up in the course of it, and each time some
bytes go on to the filter, and some of its output to the file. -/
inductive WriterCall (n : ℕ) where
  | write (element : Element n) (passes : List (ℕ × ℕ))
  | flush (passes : List (ℕ × ℕ))

structure Session where
  algorithm : CompressionAlgorithm
  elementSize : ℕ
  calls : List (WriterCall elementSize)
  closing : List (ℕ × ℕ)

/-- The reader, with what is left of the bytes that its stream will give out. -/
structure BufferedFileReader where
  bytes : Option (List UInt8)

section Stream
variable {filters : Filters}

def OutputStream.feed (st : OutputStream filters) (n : ℕ) : OutputStream filters :=
  let fed := (filters.pair st.algorithm).feed st.state (st.buffered.take n)
  { st with state := fed.1, buffered := st.buffered.drop n, output := st.output ++ fed.2 }

def OutputStream.drain (st : OutputStream filters) (n : ℕ) : OutputStream filters :=
  { st with output := st.output.drop n, offset := st.offset + (st.output.take n).length }

end Stream

namespace BufferedFileWriter
variable {filters : Filters}

def store (w : BufferedFileWriter filters) (st : OutputStream filters) (n : ℕ) :
    BufferedFileWriter filters where
  file := w.file.map (writeAt · st.offset (st.output.take n))
  stream := some (st.drain n)

def pass (w : BufferedFileWriter filters) (amounts : ℕ × ℕ) : BufferedFileWriter filters :=
  match w.stream with
  | none => w
  | some st => w.store (st.feed amounts.1) amounts.2

def write (w : BufferedFileWriter filters) (memory : List UInt8) (passes : List (ℕ × ℕ)) :
    BufferedFileWriter filters × Bool :=
  match w.stream with
  | none => (w, false)
  | some st =>
    (passes.foldl pass
      { w with stream := some { st with buffered := st.buffered ++ memory } }, true)

def flush (w : BufferedFileWriter filters) (passes : List (ℕ × ℕ)) : BufferedFileWriter filters :=
  let w := passes.foldl pass w
  match w.stream with
  | none => w
  | some st =>
    if st.algorithm = .none then
      let st := st.feed st.buffered.length
      w.store st st.output.length
    else w

def close (w : BufferedFileWriter filters) (passes : List (ℕ × ℕ)) : BufferedFileWriter filters :=
  let w := passes.foldl pass w
  match w.stream with
  | none => w
  | some st =>
    let st := st.feed st.buffered.length
    let output := st.output ++ (filters.pair st.algorithm).finish st.state
    { file := w.file.map (writeAt · st.offset output), stream := none }

/-- `open`. The flags are `O_CREAT` and `O_WRONLY`: a file that exists keeps its bytes. -/
def openFile (w : BufferedFileWriter filters) (compressionAlgorithm : String) :
    BufferedFileWriter filters :=
  let w := w.close []
  let file := some (w.file.getD [])
  match CompressionAlgorithm.ofText compressionAlgorithm with
  | some algorithm =>
    { file, stream := some ⟨algorithm, (filters.pair algorithm).start, [], [], 0⟩ }
  -- throws, with the file created and the writer closed
  | none => { w with file }

def call {n : ℕ} (w : BufferedFileWriter filters) : WriterCall n → BufferedFileWriter filters
  | .write element passes => (w.write element.1 passes).1
  | .flush passes => w.flush passes

def runSession (w : BufferedFileWriter filters) (session : Session) : BufferedFileWriter filters :=
  (session.calls.foldl call (w.openFile session.algorithm.text)).close session.closing

end BufferedFileWriter

namespace BufferedFileReader

/-- `open`, which throws if there is no file or the algorithm is not recognized. -/
def openFile (filters : Filters) (file : Option (List UInt8)) (compressionAlgorithm : String) :
    Option BufferedFileReader :=
  file.bind fun contents =>
    (CompressionAlgorithm.ofText compressionAlgorithm).map fun algorithm =>
      ⟨some ((filters.pair algorithm).decode contents)⟩

/-- `read`, which returns false if there are fewer bytes left than an element has. -/
def read (n : ℕ) (r : BufferedFileReader) : Option (Element n) × BufferedFileReader :=
  match r.bytes with
  | none => (none, r)
  | some bytes =>
    (if h : (bytes.take n).length = n then some ⟨bytes.take n, h⟩ else none, ⟨some (bytes.drop n)⟩)

def ReadsBack {n : ℕ} : BufferedFileReader → List (Element n) → Prop
  | r, [] => (r.read n).1 = none
  | r, element :: elements => (r.read n).1 = some element ∧ ReadsBack (r.read n).2 elements

end BufferedFileReader

def written {n : ℕ} : List (WriterCall n) → List (Element n)
  | [] => []
  | .write element _ :: calls => element :: written calls
  | .flush _ :: calls => written calls

def Session.data (session : Session) : List UInt8 := (written session.calls).flatMap (·.1)

end DataHandling
