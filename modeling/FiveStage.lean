import FiveStage.Files.Tree
import FiveStage.Main
import FiveStage.Sequential.Events
import FiveStage.Trace.File
import FiveStage.Trace.Replay
import FiveStage.Proofs.Memory.ByteMap
import FiveStage.Proofs.Memory.Bytes
import FiveStage.Proofs.Memory.Edits
import FiveStage.Proofs.Memory.Layout
import FiveStage.Proofs.Cache.Lines
import FiveStage.Proofs.Cache.Shown
import FiveStage.Proofs.Cache.Flat
import FiveStage.Proofs.Cache.Latency
import FiveStage.Proofs.Memory.Code
import FiveStage.Proofs.Pipeline.Cycle
import FiveStage.Proofs.Pipeline.StageFacts
import FiveStage.Proofs.Pipeline.Threads
import FiveStage.Proofs.Pipeline.Twins
import FiveStage.Proofs.Sequential.Slots
import FiveStage.Proofs.Pipeline.Forwarded
import FiveStage.Proofs.Pipeline.Delay
import FiveStage.Proofs.Sequential.Beyond
import FiveStage.Proofs.Sequential.Program
import FiveStage.Proofs.Sequential.Reads
import FiveStage.Proofs.Pipeline.Window
import FiveStage.Proofs.Pipeline.Advance
import FiveStage.Proofs.Pipeline.Paced
import FiveStage.Proofs.Pipeline.Refinement
import FiveStage.Proofs.Pipeline.Timing
import FiveStage.Proofs.Pipeline.Conclusion
import FiveStage.Proofs.Pipeline.Cost
import FiveStage.Proofs.Pipeline.Fault
import FiveStage.Proofs.Pipeline.Speculation
import FiveStage.Proofs.Pipeline.Reachable
import FiveStage.Proofs.Cache.Replayed
import FiveStage.Proofs.Pipeline.Resting
import FiveStage.Proofs.Cache.Recency
import FiveStage.Proofs.Cache.Evictions
import FiveStage.Proofs.Elf.Loading
import FiveStage.Proofs.Elf.Written
import FiveStage.Proofs.Memory.Order
import FiveStage.Proofs.Bits.Field
import FiveStage.Proofs.Isa.Datapath
import FiveStage.Proofs.Isa.Comparison
import FiveStage.Proofs.Isa.BitfieldMove
import FiveStage.Proofs.Memory.Confined
import FiveStage.Proofs.Cache.Validation
import FiveStage.Proofs.Cache.Split
import FiveStage.Proofs.Text.Words
import FiveStage.Proofs.Text.Digits
import FiveStage.Proofs.Text.Lines
import FiveStage.Proofs.Trace.Grammar
import FiveStage.Proofs.Elf.Protections
import FiveStage.Proofs.Checkpoint.Lines
import FiveStage.Proofs.Checkpoint.Reading
import FiveStage.Proofs.Checkpoint.Words
import FiveStage.Proofs.Checkpoint.Faithful
