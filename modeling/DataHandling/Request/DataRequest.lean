import DataHandling.Request.FragmentPieces

/-! `data_request`: the answer to one data request, with its fragment header and the request
statistics. -/

namespace DataHandling

/-- What a handler reads of a `DataRequest`. -/
structure DataRequest where
  triggerNumber : UInt64
  sequenceNumber : UInt16
  runNumber : UInt32
  triggerTimestamp : UInt64
  windowBegin : UInt64
  windowEnd : UInt64
  dataDestination : String
  deriving DecidableEq

/-- The error bits that a handler sets in a fragment header. -/
structure FragmentErrorBits where
  kDataNotFound : Bool
  kIncomplete : Bool
  deriving DecidableEq

structure FragmentHeader where
  triggerNumber : UInt64
  triggerTimestamp : UInt64
  windowBegin : UInt64
  windowEnd : UInt64
  runNumber : UInt32
  sequenceNumber : UInt16
  fragmentType : UInt32
  detectorId : UInt16
  elementId : UInt16 × UInt32
  errorBits : FragmentErrorBits
  deriving DecidableEq

/-- What the fragment header takes from the handler: `ReadoutType::fragment_type`, `m_detid`
and `m_sourceid`. -/
structure FragmentSource where
  fragmentType : UInt32
  detid : UInt16
  sourceid : UInt16 × UInt32

def createFragmentHeader (source : FragmentSource) (dr : DataRequest) : FragmentHeader where
  triggerNumber := dr.triggerNumber
  triggerTimestamp := dr.triggerTimestamp
  windowBegin := dr.windowBegin
  windowEnd := dr.windowEnd
  runNumber := dr.runNumber
  sequenceNumber := dr.sequenceNumber
  fragmentType := source.fragmentType
  detectorId := source.detid
  elementId := source.sourceid
  errorBits := ⟨false, false⟩

structure RequestStats where
  numRequestsFound : Int32
  numRequestsBad : Int32
  numRequestsOldWindow : Int32
  numRequestsDelayed : Int32
  numRequestsTimedOut : Int32
  handledRequests : Int32
  deriving DecidableEq

namespace RequestStats

def zero : RequestStats := ⟨0, 0, 0, 0, 0, 0⟩

def count (s : RequestStats) : ResultCode → RequestStats
  | .kTooOld =>
    { s with
      numRequestsOldWindow := s.numRequestsOldWindow + 1, numRequestsBad := s.numRequestsBad + 1 }
  | .kPartiallyOld =>
    { s with
      numRequestsOldWindow := s.numRequestsOldWindow + 1
      numRequestsFound := s.numRequestsFound + 1 }
  | .kFound => { s with numRequestsFound := s.numRequestsFound + 1 }
  | .kPartial | .kNotYet => { s with numRequestsDelayed := s.numRequestsDelayed + 1 }
  | .kNotFound | .kCleanup | .kUnknown => { s with numRequestsBad := s.numRequestsBad + 1 }

end RequestStats

def ResultCode.errorBits : ResultCode → FragmentErrorBits
  | .kFound => ⟨false, false⟩
  | .kPartial => ⟨false, true⟩
  | .kPartiallyOld => ⟨true, true⟩
  | .kTooOld | .kNotYet | .kNotFound | .kCleanup | .kUnknown => ⟨true, false⟩

/-- The result code, the header and the pieces of the fragment. -/
structure RequestResult where
  resultCode : ResultCode
  dataRequest : DataRequest
  header : FragmentHeader
  pieces : List Piece
  deriving DecidableEq

section Answer
variable {T : Type} [ReadoutType T] {LB : Type} [LatencyBuffer LB T]
open LatencyBuffer

def RequestResult.ofCode (source : FragmentSource) (dr : DataRequest) (code : ResultCode)
    (pieces : List Piece) : RequestResult :=
  ⟨code, dr, { createFragmentHeader source dr with errorBits := code.errorBits }, pieces⟩

def dataRequest (lb : LB) (registry : FrameErrorRegistry) (source : FragmentSource)
    (fuel : ℕ) (stats : RequestStats) (dr : DataRequest) :
    Option (RequestResult × RequestStats) :=
  if occupancy lb = 0 then
    some (.ofCode source dr .kNotFound [], stats.count .kNotFound)
  else
    (getFragmentPieces lb registry dr.windowBegin dr.windowEnd fuel).bind fun res =>
      -- the boundaries are read again for the log
      (front lb).bind fun _ => (back lb).map fun _ =>
        (.ofCode source dr res.1 res.2, stats.count res.1)

def ResultCode.isDelayed (code : ResultCode) : Bool :=
  code == .kNotYet || code == .kPartial

end Answer
end DataHandling
