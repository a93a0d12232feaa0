import FiveStage.Isa.Opcode
import FiveStage.Machine.Registers

/-!
# Decoded instructions

* `Operands` : register numbers and immediates of a word, `Operands.ofWord` : how each format lays
  them out;
* `ExecuteSignals`, `MemorySignals`, `WriteSignals` : what an opcode asks of the stages after
  decode;
* `Instruction.decode`, `Instruction.ofWord` : a word with everything decode needs;
* `nextPredicted` : where fetch goes on, with every branch predicted taken.
-/

namespace FiveStage

/-- The word of the instruction that does nothing. -/
def nopWord : InstrWord := 0xD503201F

/-- The word of the instruction that halts the machine. -/
def haltWord : InstrWord := 0xD4400000

/-- Register numbers and immediates of an instruction. A slot that is not used names the zero
register. -/
structure Operands where
  src1 : Nat := Reg.zero
  src2 : Nat := Reg.zero
  dst : Nat := Reg.zero
  imm : Word := 0
  /-- By how many bits a wide move shifts its halfword. -/
  halfwordShift : Nat := 0
  cond : Cond := .eq
  deriving DecidableEq, Repr

/-- What execute has to know. -/
structure ExecuteSignals where
  /-- The second operand is a register and not the immediate. -/
  useRegister : Bool := false
  setFlags : Bool := false
  deriving DecidableEq, Repr

/-- What memory has to know. -/
structure MemorySignals where
  load : Bool := false
  store : Bool := false
  deriving DecidableEq, Repr

/-- What writeback has to know. -/
structure WriteSignals where
  /-- The destination is the link register. -/
  toLink : Bool := false
  /-- The value written is the loaded one. -/
  fromMemory : Bool := false
  enable : Bool := false
  deriving DecidableEq, Repr

/-- The signals of an opcode. -/
structure Signals where
  alu : AluOp
  execute : ExecuteSignals
  memory : MemorySignals
  write : WriteSignals
  deriving DecidableEq, Repr

namespace Opcode

/-- The operation an opcode asks of the arithmetic unit. -/
def aluOp : Opcode → AluOp
  | adds | addImm | cmn | stur | ldur | adrp => .add
  | subs | subImm | cmp => .sub
  | ands | tst => .and
  | orr => .or
  | eor => .xor
  | mvn => .orNot
  | movz | movk => .insert
  | lsl => .shiftLeft
  | lsr => .shiftRight
  | asr => .shiftRightSigned
  | b | bl | bCond | ret | nop | hlt | ubfm | undefined => .pass

/-- The opcodes that set the condition flags. -/
def setsFlags : Opcode → Bool
  | adds | subs | ands | cmn | cmp | tst => true
  | _ => false

/-- The opcodes that write a register. -/
def writesRegister : Opcode → Bool
  | adds | subs | ands | addImm | subImm | orr | eor | mvn | movz | movk | adrp | lsl | lsr | asr
  | ldur | bl => true
  | _ => false

/-- The signals of an opcode. -/
def signals (op : Opcode) : Signals where
  alu := op.aluOp
  execute := { useRegister := op.format = .registers, setFlags := op.setsFlags }
  memory := { load := op = ldur, store := op = stur }
  write := { toLink := op = bl, fromMemory := op = ldur, enable := op.writesRegister }

end Opcode

/-! ## Operand fields -/

namespace InstrWord

/-- A register field in which 31 names the zero register. -/
def regOrZero (w : InstrWord) (start : Nat) : Nat :=
  let r := (w.field start 5).toNat
  if r = 31 then Reg.zero else r

/-- A register field in which 31 names the stack pointer. -/
def regOrSp (w : InstrWord) (start : Nat) : Nat := (w.field start 5).toNat

/-- The distance a branch goes, and zero for anything else. -/
def branchOffset (w : InstrWord) (op : Opcode) : Word :=
  match op with
  | .b | .bl => w.signedField 0 26 * 4
  | .bCond => w.signedField 5 19 * 4
  | _ => 0

/-- The distance to the page that a page address names, a multiple of 4096. -/
def pageOffset (w : InstrWord) : Word :=
  ((w.signedField 5 19 <<< 2) ||| w.field 29 2) * 4096

end InstrWord

namespace Operands

/-- The operands that a word holds under an opcode's format. -/
def ofWord (w : InstrWord) (op : Opcode) : Operands :=
  match op.format with
  | .registers =>
    { src1 := if op = .mvn then Reg.zero else w.regOrZero 5
      src2 := w.regOrZero 16
      dst := w.regOrZero 0 }
  | .immediate =>
    let imm12 := w.field 10 12
    { src1 := w.regOrSp 5
      dst := w.regOrSp 0
      imm := if w.field 22 1 = 1 then imm12 <<< 12 else imm12 }
  | .shift =>
    let rotation := w.field 16 6
    { src1 := w.regOrZero 5
      dst := w.regOrZero 0
      imm := if op = .lsl then (64 - rotation) % 64 else rotation }
  | .wideMove =>
    { src1 := if op = .movk then w.regOrZero 0 else Reg.zero
      dst := w.regOrZero 0
      imm := w.field 5 16
      halfwordShift := (w.field 21 2).toNat * 16 }
  | .loadStore =>
    { src1 := w.regOrSp 5
      src2 := if op = .stur then w.regOrZero 0 else Reg.zero
      dst := if op = .stur then Reg.zero else w.regOrZero 0
      imm := w.signedField 12 9 }
  | .pageAddress => { dst := w.regOrZero 0, imm := w.pageOffset }
  | .branch =>
    { dst := if op = .bl then Reg.link else Reg.zero, imm := w.branchOffset op }
  | .condBranch => { cond := Cond.ofBits (w.field 0 4).toNat, imm := w.branchOffset op }
  | .ret => { src1 := w.regOrSp 5 }
  | .system => {}

/-- The registers an instruction reads. -/
def sources (o : Operands) : Nat × Nat := (o.src1, o.src2)

end Operands

/-! ## Instructions -/

/-- A decoded instruction. -/
structure Instruction where
  word : InstrWord
  opcode : Opcode
  operands : Operands
  signals : Signals
  deriving DecidableEq, Repr

namespace Instruction

/-- A word whose opcode is known already. -/
def decode (w : InstrWord) (op : Opcode) : Instruction where
  word := w
  opcode := op
  operands := Operands.ofWord w op
  signals := op.signals

/-- A word decoded under its own opcode. -/
def ofWord (w : InstrWord) : Instruction := decode w (Opcode.ofWord w)

end Instruction

/-- The address after an instruction at `pc`: a branch is predicted taken, and all else is followed
by the next word. -/
def nextPredicted (pc : Word) (w : InstrWord) (op : Opcode) : Word :=
  pc.sum (if op.isBranch then w.branchOffset op else 4)

end FiveStage
