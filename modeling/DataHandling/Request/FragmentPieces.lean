import DataHandling.Buffer.LatencyBuffer
import DataHandling.Request.FrameErrorRegistry

/-! `get_fragment_pieces`: the classification of a window against the buffer, the search
with the key moved back by one element, and the loop that cuts the elements found into
pieces. -/

namespace DataHandling
open ReadoutType

inductive ResultCode where
  | kFound
  | kNotFound
  | kTooOld
  | kNotYet
  | kPartial
  | kPartiallyOld
  | kCleanup
  | kUnknown
  deriving DecidableEq, Repr

/-- A pointer into the buffer and a size in bytes: the iterator of the element pointed into,
the first frame, and the number of bytes. -/
structure Piece where
  iterator : ℕ
  frame : ℕ
  size : ℕ
  deriving DecidableEq, Repr

section Pieces
variable {T : Type} [ReadoutType T]

/-- The pieces of one element: none if it ends before the window, the single frames if the
window cuts it, else the whole element. -/
def elementPieces (startWinTs endWinTs : UInt64) (it : ℕ) (element : T) : List Piece :=
  if getTimestamp element + tickSpan element ≤ startWinTs then []
  else if getNumFrames element > 1 ∧
      ((getTimestamp element < startWinTs ∧ getTimestamp element + tickSpan element > startWinTs) ∨
        getTimestamp element + tickSpan element > endWinTs) then
    ((List.range (getNumFrames element).toNat).filter fun i =>
      decide (frameTimestamp element i > startWinTs - expectedTickDifference T) &&
        decide (frameTimestamp element i < endWinTs)).map fun i =>
          ⟨it, i, getFrameSize element⟩
  else [⟨it, 0, getPayloadSize element⟩]

theorem iterator_of_mem_elementPieces {b e : UInt64} {it : ℕ} {x : T} {p : Piece}
    (hp : p ∈ elementPieces b e it x) : p.iterator = it := by
  rw [elementPieces] at hp
  split_ifs at hp
  · cases hp
  · obtain ⟨i, _, rfl⟩ := List.mem_map.mp hp
    rfl
  · rw [List.mem_singleton.mp hp]

variable {LB : Type} [LatencyBuffer LB T] (lb : LB)
open LatencyBuffer

/-- The loop over the elements from `start_iter`, with a bound on its iterations. -/
def gatherPieces (startWinTs endWinTs : UInt64) : ℕ → ℕ → Option (List Piece)
  | 0, _ => none
  | fuel + 1, it =>
    if good lb it then
      (deref lb it).bind fun element =>
        if getTimestamp element < endWinTs then
          (gatherPieces startWinTs endWinTs fuel (next lb it)).map
            (elementPieces startWinTs endWinTs it element ++ ·)
        else some []
    else some []

def requestElement (T : Type) [ReadoutType T] (startWinTs : UInt64) : T :=
  setTimestamp valueInit (startWinTs - tickSpan (valueInit : T))

def windowCode (lastTs newestTs startWinTs endWinTs : UInt64) : ResultCode :=
  if endWinTs > newestTs then .kPartial
  else if startWinTs < lastTs then .kPartiallyOld
  else .kFound

/-- The result code left in `rres` and the pieces. There is no result when a null pointer or
raw memory is read, or when the bound on the iterations is too small. -/
def getFragmentPieces (registry : FrameErrorRegistry) (startWinTs endWinTs : UInt64)
    (fuel : ℕ) : Option (ResultCode × List Piece) :=
  (front lb).bind fun frontElement =>
    (back lb).bind fun lastElement =>
      if startWinTs > getTimestamp lastElement then some (.kNotYet, [])
      else if endWinTs < getTimestamp frontElement then some (.kTooOld, [])
      else
        (lowerBound lb (requestElement T startWinTs) (registry.hasError "MISSING_FRAMES")).bind
          fun startIter =>
            if good lb startIter then
              (gatherPieces lb startWinTs endWinTs fuel startIter).map fun pieces =>
                (windowCode (getTimestamp frontElement) (getTimestamp lastElement)
                  startWinTs endWinTs, pieces)
            else some (.kNotFound, [])

def Piece.frames (p : Piece) : List (Frame T) :=
  match deref lb p.iterator with
  | some element =>
    (List.range' p.frame (p.size / getFrameSize element)).map (Frame.mk element)
  | none => []

def framesOf (pieces : List Piece) : List (Frame T) := pieces.flatMap (Piece.frames lb)

end Pieces
end DataHandling
