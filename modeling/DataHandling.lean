import DataHandling.Foundation.Execution
import DataHandling.Foundation.MachineInt
import DataHandling.Foundation.Cyclic
import DataHandling.Foundation.Ordered
import DataHandling.Foundation.SortedSet
import DataHandling.Foundation.BoundedFifo
import DataHandling.Foundation.Stretch
import DataHandling.Foundation.RingWrite
import DataHandling.Foundation.TaggedHeap
import DataHandling.Foundation.StreamFilter
import DataHandling.Foundation.Tally
import DataHandling.Foundation.Ledger
import DataHandling.Foundation.Destutter
import DataHandling.Foundation.Segments
import DataHandling.ReadoutType
import DataHandling.Chunk
import DataHandling.Buffer.QueueRefinement
import DataHandling.Buffer.Enumeration
import DataHandling.Buffer.Allocation
import DataHandling.Buffer.ProducerConsumer
import DataHandling.Buffer.RingBuffers
import DataHandling.Buffer.SkipList
import DataHandling.Buffer.SearchAgreement
import DataHandling.Buffer.InterfaceAgreement
import DataHandling.Buffer.IndexArithmetic
import DataHandling.Request.Exactness
import DataHandling.Request.OldEdge
import DataHandling.Request.NoData
import DataHandling.Request.NoLoss
import DataHandling.Request.SkipListCleanup
import DataHandling.Request.Exclusion
import DataHandling.Request.Relief
import DataHandling.Request.CleanupCall
import DataHandling.Request.ResponseTimes
import DataHandling.Request.Linearization
import DataHandling.Request.Accounting
import DataHandling.Request.Arrival
import DataHandling.Consumer.Immediate
import DataHandling.Consumer.DelayedReordering
import DataHandling.Consumer.MissingFrames
import DataHandling.Consumer.DelayedRing
import DataHandling.Consumer.DeferredAccounting
import DataHandling.Consumer.Lifetimes
import DataHandling.Consumer.TaskQueues
import DataHandling.Consumer.Monitoring
import DataHandling.Consumer.Timesync
import DataHandling.Command.LifeCycle
import DataHandling.Command.RunIsolation
import DataHandling.Command.Prefill
import DataHandling.Recording.Progress
import DataHandling.Recording.Image
import DataHandling.Recording.Protection
import DataHandling.Recording.AlignedStart
import DataHandling.Recording.WriteAccounting
import DataHandling.Recording.RecordCommands
import DataHandling.Recording.RecorderModel
import DataHandling.Emulator.Replay
import DataHandling.Emulator.EmulatedStream
import DataHandling.Emulator.RecordReplay
import DataHandling.Utils.BufferCopy
import DataHandling.Utils.FileRoundTrip
import DataHandling.Utils.CopyBounds
import DataHandling.Utils.RateLimiter
