import FiveStage.Isa.Alu

/-!
# Opcodes

* `Opcode` : the instructions the machine knows, `Opcode.undefined` for every other word;
* `Opcode.table` : the class field (bits 31 to 21) of each encoding;
* `Opcode.ofWord` : the opcode of a word, after `resolve` has told the aliases apart;
* `Format`, `Opcode.format` : how the operands are laid out.
-/

namespace FiveStage

/-- The instructions the machine knows. `ubfm` stands for a bit-field move before its alias is
resolved, `undefined` for every word that is none of them. -/
inductive Opcode where
  | ldur | stur | movk | movz | addImm | subImm | adds | subs | cmn | cmp | ands | tst | orr | eor
  | mvn | ubfm | lsl | lsr | asr | b | bl | bCond | ret | nop | hlt | adrp | undefined
  deriving DecidableEq, Repr, Inhabited

/-- How an instruction's operands are laid out in its word. -/
inductive Format where
  /-- Three registers. -/
  | registers
  /-- Two registers and a twelve-bit immediate. -/
  | immediate
  /-- Two registers and a shift amount. -/
  | shift
  /-- A register and a halfword. -/
  | wideMove
  /-- A base register, a data register and an unscaled offset. -/
  | loadStore
  | pageAddress
  /-- An offset from the instruction's own address. -/
  | branch
  | condBranch
  | ret
  /-- No operands. -/
  | system
  deriving DecidableEq, Repr, Inhabited

namespace Opcode

/-- All opcodes, in order of declaration. -/
def all : List Opcode :=
  [ldur, stur, movk, movz, addImm, subImm, adds, subs, cmn, cmp, ands, tst, orr, eor, mvn, ubfm,
    lsl, lsr, asr, b, bl, bCond, ret, nop, hlt, adrp, undefined]

/-- The name a log shows. -/
def mnemonic : Opcode → String
  | ldur => "LDUR"
  | stur => "STUR"
  | movk => "MOVK"
  | movz => "MOVZ"
  | addImm => "ADD_RI"
  | subImm => "SUB_RI"
  | adds => "ADDS_RR"
  | subs => "SUBS_RR"
  | cmn => "CMN_RR"
  | cmp => "CMP_RR"
  | ands => "ANDS_RR"
  | tst => "TST_RR"
  | orr => "ORR_RR"
  | eor => "EOR_RR"
  | mvn => "MVN"
  | ubfm => "UBFM"
  | lsl => "LSL"
  | lsr => "LSR"
  | asr => "ASR"
  | b => "B"
  | bl => "BL"
  | bCond => "B_COND"
  | ret => "RET"
  | nop => "NOP"
  | hlt => "HLT"
  | adrp => "ADRP"
  | undefined => "ERROR"

/-- The first and last class field of each encoding. The ranges do not overlap. -/
def table : List (Nat × Nat × Opcode) :=
  [(0x7C2, 0x7C2, ldur), (0x7C0, 0x7C0, stur), (0x794, 0x797, movk), (0x694, 0x697, movz),
    (0x488, 0x48B, addImm), (0x688, 0x68B, subImm), (0x558, 0x558, adds), (0x758, 0x758, subs),
    (0x750, 0x750, ands), (0x550, 0x550, orr), (0x650, 0x650, eor), (0x551, 0x551, mvn),
    (0x69A, 0x69B, ubfm), (0x49A, 0x49B, asr), (0x0A0, 0x0BF, b), (0x4A0, 0x4BF, bl),
    (0x2A0, 0x2A7, bCond), (0x6B2, 0x6B2, ret), (0x6A8, 0x6A8, nop), (0x6A2, 0x6A2, hlt),
    (0x480, 0x487, adrp), (0x580, 0x587, adrp), (0x680, 0x687, adrp), (0x780, 0x787, adrp)]

/-- The opcode of a class field, before aliases are resolved. -/
def ofClass (c : Nat) : Opcode :=
  match table.find? fun (first, last, _) => first ≤ c && c ≤ last with
  | some (_, _, op) => op
  | none => undefined

/-- The opcode that the class field of a word selects. -/
def unresolved (w : InstrWord) : Opcode := ofClass (w.field 21 11).toNat

/-- Tells apart the encodings that share a class. A bit-field move is a right shift when its field
ends at bit 63, a left shift when its field ends just below the rotation, and otherwise unknown;
a flag-setting operation on the zero register is a comparison. -/
def resolve (w : InstrWord) (op : Opcode) : Opcode :=
  let discards := w.field 0 5 == 31
  match op with
  | ubfm =>
    let rotation := (w.field 16 6).toNat
    let last := (w.field 10 6).toNat
    if last = 63 then lsr else if last + 1 = rotation then lsl else undefined
  | subs => if discards then cmp else subs
  | adds => if discards then cmn else adds
  | ands => if discards then tst else ands
  | op => op

/-- The opcode of a word. -/
def ofWord (w : InstrWord) : Opcode := resolve w (unresolved w)

/-- The layout of an opcode's operands. -/
def format : Opcode → Format
  | adds | subs | cmn | cmp | ands | tst | orr | eor | mvn => .registers
  | addImm | subImm => .immediate
  | lsl | lsr | asr => .shift
  | movk | movz => .wideMove
  | ldur | stur => .loadStore
  | adrp => .pageAddress
  | b | bl => .branch
  | bCond => .condBranch
  | ret => .ret
  | ubfm | nop | hlt | undefined => .system

/-- The opcodes whose target fetch computes from the word alone. -/
def isBranch : Opcode → Bool
  | b | bl | bCond => true
  | _ => false

end Opcode

end FiveStage
