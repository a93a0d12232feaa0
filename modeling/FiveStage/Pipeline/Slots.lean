import FiveStage.Isa.Instruction
import FiveStage.Pipeline.Latch

/-!
# What the five pipeline registers hold

* `FetchSlot`, `DecodeSlot`, `ExecuteSlot`, `MemorySlot`, `WriteSlot` : what each stage consumes;
  the default of each is its bubble;
* `Pipeline` : the five registers; `Pipeline.start`, `Pipeline.tick`.
-/

namespace FiveStage

/-- What fetch consumes. -/
structure FetchSlot where
  /-- Where the next instruction is expected. -/
  predicted : Word := 0
  status : Status := .bubble
  deriving DecidableEq, Repr

/-- What decode consumes. -/
structure DecodeSlot where
  word : InstrWord := nopWord
  opcode : Opcode := .nop
  /-- The address after the instruction. -/
  following : Word := 0
  /-- The page of the instruction. -/
  page : Word := 0
  status : Status := .bubble
  deriving DecidableEq, Repr

/-- What execute consumes. -/
structure ExecuteSlot where
  opcode : Opcode := .nop
  alu : AluOp := .pass
  cond : Cond := .eq
  executeSignals : ExecuteSignals := {}
  memorySignals : MemorySignals := {}
  writeSignals : WriteSignals := {}
  valA : Word := 0
  valB : Word := 0
  imm : Word := 0
  halfwordShift : Nat := 0
  dst : Nat := Reg.zero
  following : Word := 0
  status : Status := .bubble
  deriving DecidableEq, Repr

/-- What memory consumes. -/
structure MemorySlot where
  opcode : Opcode := .nop
  /-- Whether the condition of a conditional branch held. -/
  condHolds : Bool := false
  memorySignals : MemorySignals := {}
  writeSignals : WriteSignals := {}
  /-- What execute computed; the address of a load or store. -/
  result : Word := 0
  /-- What a store writes. -/
  valB : Word := 0
  dst : Nat := Reg.zero
  following : Word := 0
  status : Status := .bubble
  deriving DecidableEq, Repr

/-- What writeback consumes. -/
structure WriteSlot where
  opcode : Opcode := .nop
  writeSignals : WriteSignals := {}
  result : Word := 0
  /-- What a load brought. -/
  loaded : Word := 0
  dst : Nat := Reg.zero
  status : Status := .bubble
  deriving DecidableEq, Repr

instance : Slot FetchSlot := ⟨{}, (·.status), fun a s => { a with status := s }⟩

instance : Slot DecodeSlot := ⟨{}, (·.status), fun a s => { a with status := s }⟩

instance : Slot ExecuteSlot := ⟨{}, (·.status), fun a s => { a with status := s }⟩

instance : Slot MemorySlot := ⟨{}, (·.status), fun a s => { a with status := s }⟩

instance : Slot WriteSlot := ⟨{}, (·.status), fun a s => { a with status := s }⟩

/-- The five pipeline registers, each named for the stage that reads it. -/
structure Pipeline where
  fetch : Latch FetchSlot
  decode : Latch DecodeSlot
  execute : Latch ExecuteSlot
  memory : Latch MemorySlot
  write : Latch WriteSlot
  deriving DecidableEq, Repr

namespace Pipeline

/-- Bubbles everywhere but in fetch, which is pointed at `entry`. -/
def start (entry : Word) : Pipeline where
  fetch := .holding { predicted := entry, status := .ok }
  decode := .holding {}
  execute := .holding {}
  memory := .holding {}
  write := .holding {}

/-- The end of a cycle. -/
def tick (p : Pipeline) : Pipeline where
  fetch := p.fetch.tick
  decode := p.decode.tick
  execute := p.execute.tick
  memory := p.memory.tick
  write := p.write.tick

/-- Whether some register is in error. -/
def inError (p : Pipeline) : Bool :=
  [p.fetch.verdict, p.decode.verdict, p.execute.verdict, p.memory.verdict, p.write.verdict].contains
    .error

end Pipeline

end FiveStage
