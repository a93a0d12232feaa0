import FiveStage.Memory.Bus
import FiveStage.Pipeline.Forwarding

/-!
# The five stages

Each stage reads what its pipeline register shows and yields what goes into the next one. Decode
also sees, through the producers, what execute and memory yield in the same cycle.

* `selectPc`, `fetchStage` : fetch, with return targets and mispredicted branches first;
* `decodeStage`, `executeStage`, `memoryStage`, `writeStage` : the other four;
* `fetchLog`, `memoryLog` : what fetch and memory say.
-/

namespace FiveStage

/-- The address to fetch. Zero means that the program returned from its entry function; else the
successor of a branch that was not taken after all comes before the target of a return, and both
before the prediction. -/
def selectPc (f : FetchSlot) (x : ExecuteSlot) (m : MemorySlot) : Word :=
  if x.opcode = .ret ∧ x.valA = returnFromEntry then 0
  else if m.opcode = .bCond ∧ m.condHolds = false then m.following
  else if x.opcode = .ret then x.valA
  else f.predicted

/-- What fetch yields when there is nothing more to fetch. -/
def haltedFetch (pc : Word) : FetchSlot × DecodeSlot :=
  ({ predicted := pc, status := .halt },
    { word := haltWord, opcode := .hlt, following := pc, page := 0, status := .halt })

/-- The word at an address with its opcode; an address that cannot be fetched counts as a word that
is no instruction. -/
def fetchedWord (b : Bus) (pc : Word) : InstrWord × Opcode :=
  match b.fetch pc with
  | .ok w => (w, Opcode.ofWord w)
  | .error _ => (0, .undefined)

/-- The status an opcode starts with. -/
def Opcode.initialStatus : Opcode → Status
  | undefined => .badInstruction
  | hlt => .halt
  | _ => .ok

/-- Fetch: its own next slot and the one for decode. -/
def fetchStage (f : FetchSlot) (x : ExecuteSlot) (m : MemorySlot) (b : Bus) :
    FetchSlot × DecodeSlot :=
  let pc := selectPc f x m
  if f.status = .halt ∨ pc = 0 then haltedFetch pc
  else
    let (word, op) := fetchedWord b pc
    ({ predicted := nextPredicted pc word op, status := .ok },
      { word := word
        opcode := op
        following := pc.sum 4
        page := pc &&& highMask 12
        status := op.initialStatus })

/-- The first operand of an opcode, given what its first source register holds: a wide move keeps
every halfword but the one it replaces, and a page address starts from the page of its own
instruction. -/
def firstOperand (d : DecodeSlot) (o : Operands) (held : Word) : Word :=
  match d.opcode with
  | .movk => held &&& ~~~ (0xFFFF#64 <<< o.halfwordShift)
  | .adrp => d.page
  | _ => held

/-- Decode: operands and signals. -/
def decodeStage (d : DecodeSlot) (rf : RegisterFile) (p : Producers) : ExecuteSlot :=
  let i := Instruction.decode d.word d.opcode
  let o := i.operands
  { opcode := d.opcode
    alu := i.signals.alu
    cond := o.cond
    executeSignals := i.signals.execute
    memorySignals := i.signals.memory
    writeSignals := i.signals.write
    valA := firstOperand d o (p.forward o.src1 (rf.read o.src1))
    valB := p.forward o.src2 (rf.read o.src2)
    imm := o.imm
    halfwordShift := o.halfwordShift
    dst := if i.signals.write.toLink then Reg.link else o.dst
    following := d.following
    status := d.status }

/-- Execute: the result and the flags. Instructions without an effect leave both alone. -/
def executeStage (x : ExecuteSlot) (flags : Flags) : MemorySlot × Flags :=
  let passed : MemorySlot :=
    { opcode := x.opcode
      condHolds := true
      memorySignals := x.memorySignals
      writeSignals := x.writeSignals
      result := 0
      valB := x.valB
      dst := x.dst
      following := x.following
      status := x.status }
  if x.opcode = .nop ∨ x.opcode = .hlt then (passed, flags)
  else
    let second := if x.executeSignals.useRegister then x.valB else x.imm
    let out := x.alu.run x.valA second x.halfwordShift x.executeSignals.setFlags x.cond flags
    ({ passed with
        condHolds := if x.opcode = .bCond then out.holds else true
        result := if x.opcode = .bl then x.following else out.value },
      out.flags)

/-- The kind of access an instruction in memory makes. -/
def MemorySlot.accessKind? (m : MemorySlot) : Option AccessKind :=
  if m.status = .ok then
    if m.memorySignals.load then some .read
    else if m.memorySignals.store then some .write
    else none
  else none

/-- Memory: the loaded word. A refused access turns the status bad; while a miss is being waited
for, the hazard unit keeps what is yielded here out of writeback. -/
def memoryStage (m : MemorySlot) (b : Bus) : WriteSlot × Bus :=
  let passed : WriteSlot :=
    { opcode := m.opcode
      writeSignals := m.writeSignals
      result := m.result
      loaded := 0
      dst := m.dst
      status := m.status }
  match m.accessKind? with
  | none => (passed, b)
  | some kind =>
    let (reply, b) := b.access m.result kind m.valB
    match reply with
    | .ok (.ready value) => ({ passed with loaded := value }, b)
    | .ok .waiting => (passed, b)
    | .error _ => ({ passed with status := .badAddress }, b)

/-- Writeback: only an instruction that is well writes. -/
def writeStage (w : WriteSlot) (rf : RegisterFile) : RegisterFile :=
  if w.status = .ok then
    if w.writeSignals.toLink then rf.write Reg.link w.result
    else if w.writeSignals.enable then
      rf.write w.dst (if w.writeSignals.fromMemory then w.loaded else w.result)
    else rf
  else rf

/-! ## The log -/

/-- What fetch says: why an address cannot be fetched. -/
def fetchLog (f : FetchSlot) (x : ExecuteSlot) (m : MemorySlot) (b : Bus) : Log :=
  let pc := selectPc f x m
  if f.status = .halt ∨ pc = 0 then []
  else
    match b.segments.checkFetch pc with
    | .ok () => []
    | .error e => [⟨.debug, .stage, "instruction fetch failed: " ++ e.message⟩]

/-- What memory says: what the bus says, then why an access is refused. -/
def memoryLog (m : MemorySlot) (b : Bus) : Log :=
  match m.accessKind? with
  | none => []
  | some kind =>
    b.accessLog m.result kind ++
      match b.segments.checkData m.result kind with
      | .ok () => []
      | .error e => [⟨.debug, .stage, "data access failed: " ++ e.message⟩]

end FiveStage
