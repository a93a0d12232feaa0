import FiveStage.Log
import FiveStage.Pipeline.Slots

/-!
# The hazard unit

* `HazardInputs` : what the unit looks at, `HazardInputs.collect` : read off the registers;
* `HazardInputs.detect` : the hazards of a cycle, with priorities applied;
* `HazardInputs.control` : what each pipeline register is asked to do;
* `Pipeline.handleHazards` : hands every register its verdict.
-/

namespace FiveStage

/-- One value for each stage, fetch first. -/
structure PerStage (α : Type) where
  fetch : α
  decode : α
  execute : α
  memory : α
  write : α
  deriving DecidableEq, Repr

/-- Everything the hazard unit looks at in one cycle. -/
structure HazardInputs where
  decodeOp : Opcode
  /-- The registers that the instruction in decode reads. -/
  decodeSources : Nat × Nat
  executeOp : Opcode
  executeDst : Nat
  /-- Whether execute found the condition to hold. -/
  condHolds : Bool
  /-- The status that each stage produced this cycle. -/
  statuses : PerStage Status
  missInFlight : Bool
  deriving DecidableEq, Repr

/-- The hazards of a cycle. -/
structure Hazards where
  /-- A return whose target is not known yet. -/
  ret : Bool
  /-- A conditional branch that was predicted wrongly. -/
  mispredict : Bool
  /-- A load whose value is needed one cycle too early. -/
  loadUse : Bool
  /-- A miss that is being waited for. -/
  missInFlight : Bool
  deriving DecidableEq, Repr, Inhabited

/-- What one pipeline register is asked to do. -/
structure Request where
  bubble : Bool
  stall : Bool
  deriving DecidableEq, Repr, Inhabited

namespace HazardInputs

/-- The inputs of a cycle in which every stage has produced its output. -/
def collect (p : Pipeline) (missInFlight : Bool) : HazardInputs where
  decodeOp := p.decode.output.opcode
  decodeSources :=
    (Instruction.decode p.decode.output.word p.decode.output.opcode).operands.sources
  executeOp := p.execute.output.opcode
  executeDst := p.execute.output.dst
  condHolds := p.memory.input.condHolds
  statuses :=
    { fetch := p.decode.input.status
      decode := p.execute.input.status
      execute := p.memory.input.status
      memory := p.write.input.status
      write := p.write.output.status }
  missInFlight := missInFlight

/-- The hazards of a cycle. A misprediction hides the two others, and a load hides a return. -/
def detect (i : HazardInputs) : Hazards :=
  let mispredict := i.executeOp = .bCond && !i.condHolds
  let loadUse :=
    i.executeOp = .ldur && i.executeDst != Reg.zero &&
      (i.decodeSources.1 == i.executeDst || i.decodeSources.2 == i.executeDst) && !mispredict
  { ret := i.decodeOp = .ret && !mispredict && !loadUse
    mispredict := mispredict
    loadUse := loadUse
    missInFlight := i.missInFlight }

/-- Which stages have an instruction that ends the run in them or after them. What fetch and decode
produced behind a mispredicted branch is about to be thrown away and does not count. -/
def faulted (i : HazardInputs) : PerStage Bool :=
  let own (s : Status) := s.isTerminal
  let squashed := i.detect.mispredict
  let write := own i.statuses.write
  let memory := own i.statuses.memory || write
  let execute := own i.statuses.execute || memory
  let decode := (!squashed && own i.statuses.decode) || execute
  let fetch := (!squashed && own i.statuses.fetch) || decode
  ⟨fetch, decode, execute, memory, write⟩

/-- What each pipeline register is asked to do. -/
def control (i : HazardInputs) : PerStage Request :=
  let h := i.detect
  let bad := i.faulted
  let flight := h.missInFlight
  { fetch := ⟨false, h.ret || h.loadUse || bad.fetch || flight⟩
    decode :=
      ⟨(h.ret || h.mispredict) && !bad.decode && !flight, h.loadUse || bad.decode || flight⟩
    execute := ⟨(h.mispredict || h.loadUse) && !bad.execute && !flight, bad.execute || flight⟩
    memory := ⟨false, bad.memory || flight⟩
    write := ⟨flight, bad.write⟩ }

end HazardInputs

namespace Pipeline

/-- Hands every register its verdict. -/
def judge (p : Pipeline) (r : PerStage Request) : Pipeline where
  fetch := p.fetch.judge r.fetch.bubble r.fetch.stall
  decode := p.decode.judge r.decode.bubble r.decode.stall
  execute := p.execute.judge r.execute.bubble r.execute.stall
  memory := p.memory.judge r.memory.bubble r.memory.stall
  write := p.write.judge r.write.bubble r.write.stall

/-- Runs the hazard unit on registers whose inputs are this cycle's. -/
def handleHazards (p : Pipeline) (missInFlight : Bool) : Hazards × Pipeline :=
  let i := HazardInputs.collect p missInFlight
  (i.detect, p.judge i.control)

end Pipeline

/-! ## The log -/

namespace Hazards

private def flag (b : Bool) : String := if b then "true" else "false"

/-- Whether there is any hazard. -/
def any (h : Hazards) : Bool := h.ret || h.mispredict || h.loadUse || h.missInFlight

/-- All four, by name. -/
def text (h : Hazards) : String :=
  "Hazards \x7b ret: " ++ flag h.ret ++ ", mispredict: " ++ flag h.mispredict ++ ", load_use: " ++
    flag h.loadUse ++ ", in_flight: " ++ flag h.missInFlight ++ " \x7d"

end Hazards

namespace HazardInputs

/-- The hazards found. -/
def foundLog (i : HazardInputs) : Log :=
  if i.detect.any then [⟨.debug, .hazard, "hazards: " ++ i.detect.text⟩] else []

/-- Every register asked for two things. -/
def conflictLog (i : HazardInputs) : Log :=
  let contradicted (name : String) (r : Request) : Log :=
    if r.bubble && r.stall then
      [⟨.warn, .hazard,
        "pipeline register " ++ name ++ " asked to bubble and stall; entering ERROR"⟩]
    else []
  let c := i.control
  contradicted "F" c.fetch ++ contradicted "D" c.decode ++ contradicted "X" c.execute ++
    contradicted "M" c.memory ++ contradicted "W" c.write

/-- What the hazard unit says. -/
def log (i : HazardInputs) : Log := i.foundLog ++ i.conflictLog

end HazardInputs

end FiveStage
