import FiveStage.Proofs.Bits.Field
import FiveStage.Proofs.Pipeline.Forwarded

/-!
# What every instruction computes

* `InstrWord.part`, `InstrWord.reg` : the fields of an instruction, as the manual names them;
  `InstrWord.field_eq`, `InstrWord.signedField_eq` : they are what decode reads;
* `InstrWord.Computes`, `InstrWord.destination`, `InstrWord.next` : the result of an instruction,
  the register it goes to, and the address that is fetched next;
* `result_executeStage` : execute in one equation;
* `InstrWord.computes_registers` and its siblings, one for each format, and
  `InstrWord.computes_result` : decode and execute yield the result of the instruction;
* `datapath_documented` : all that a fetched instruction does up to memory.
-/

namespace FiveStage

/-! ## Fields -/

namespace InstrWord

/-- The `width` bits of an instruction from bit `start` on. -/
def part (w : InstrWord) (start width : Nat) : BitVec width := w.extractLsb' start width

/-- The register number at a place of an instruction. -/
def reg (w : InstrWord) (start : Nat) : Nat := (w.part start 5).toNat

variable (w : InstrWord) (start : Nat)

theorem extractLsb'_setWidth (width : Nat) :
    (w.setWidth 64).extractLsb' start width = w.part start width := by
  apply BitVec.eq_of_toNat_eq
  have hlt : w.toNat < 2 ^ 64 := Nat.lt_of_lt_of_le w.isLt (by decide)
  rw [part, BitVec.extractLsb'_toNat, BitVec.extractLsb'_toNat, BitVec.toNat_setWidth,
    Nat.mod_eq_of_lt hlt]

theorem field_eq {width : Nat} (h : width ≤ 64) :
    w.field start width = (w.part start width).setWidth 64 := by
  rw [field, Word.field_eq _ _ h, extractLsb'_setWidth]

theorem toNat_field_eq {width : Nat} (h : width ≤ 64) :
    (w.field start width).toNat = (w.part start width).toNat := by
  have hle : 2 ^ width ≤ 2 ^ 64 := Nat.pow_le_pow_right (by decide) h
  have hlt := (w.part start width).isLt
  rw [field_eq w start h, BitVec.toNat_setWidth, Nat.mod_eq_of_lt (by omega)]

theorem signedField_eq {width : Nat} (h0 : 0 < width) (h : width ≤ 64) :
    w.signedField start width = (w.part start width).signExtend 64 := by
  rw [signedField, Word.signedField_eq _ _ h0 h, extractLsb'_setWidth]

theorem regOrSp_eq : w.regOrSp start = w.reg start := w.toNat_field_eq start (by decide)

theorem regOrZero_eq : w.regOrZero start = if w.reg start = 31 then Reg.zero else w.reg start := by
  rw [regOrZero, w.toNat_field_eq start (by decide)]
  rfl

/-- A sign-extended number, cut in two. -/
theorem signExtend_append {n k : Nat} (hi : BitVec n) (lo : BitVec k) (hn : 0 < n)
    (h : n + k ≤ 64) :
    (hi.signExtend 64 <<< k) ||| lo.setWidth 64 = (hi ++ lo).signExtend 64 := by
  apply BitVec.eq_of_getLsbD_eq
  intro i hlt
  have hmsb : (hi ++ lo).msb = hi.msb := by
    rw [BitVec.msb_append, if_neg (by omega)]
  rw [BitVec.getLsbD_or, BitVec.getLsbD_shiftLeft, BitVec.getLsbD_setWidth,
    BitVec.getLsbD_signExtend, BitVec.getLsbD_signExtend, hmsb, BitVec.getLsbD_append]
  by_cases hk : i < k
  · rw [if_pos (show i < n + k by omega), if_pos hk]
    simp [hlt, hk]
  · have hlo : lo.getLsbD i = false := BitVec.getLsbD_of_ge _ _ (by omega)
    rw [hlo, if_neg hk]
    by_cases hin : i < n + k
    · rw [if_pos hin, if_pos (by omega)]
      simp [hlt, hk, show i - k < 64 by omega]
    · rw [if_neg hin, if_neg (by omega)]
      simp [hlt, hk, show i - k < 64 by omega]

theorem pageOffset_eq :
    w.pageOffset = 4096 * (w.part 5 19 ++ w.part 29 2).signExtend 64 := by
  rw [pageOffset, w.signedField_eq 5 (by decide) (by decide), w.field_eq 29 (by decide),
    signExtend_append _ _ (by decide) (by decide), BitVec.mul_comm]

/-- The twelve-bit immediate, moved up by twelve bits if bit 22 is set. -/
theorem immediate_eq :
    (if w.field 22 1 = 1 then w.field 10 12 <<< 12 else w.field 10 12) =
      (w.part 10 12).setWidth 64 <<< (12 * (w.part 22 1).toNat) := by
  have hbit : w.field 22 1 = 1 ↔ (w.part 22 1).toNat = 1 := by
    rw [← w.toNat_field_eq 22 (by decide)]
    exact ⟨fun h => by rw [h]; rfl, fun h => BitVec.eq_of_toNat_eq h⟩
  have hlt := (w.part 22 1).isLt
  rw [w.field_eq 10 (by decide)]
  by_cases h : w.field 22 1 = 1
  · rw [if_pos h, hbit.1 h]
  · rw [if_neg h, show (w.part 22 1).toNat = 0 by have := mt hbit.2 h; omega, Nat.mul_zero,
      BitVec.shiftLeft_zero]

theorem toNat_leftAmount :
    ((64 - w.field 16 6) % 64).toNat % 64 = (64 - (w.part 16 6).toNat) % 64 := by
  have hlt := (w.part 16 6).isLt
  rw [BitVec.toNat_umod, BitVec.toNat_sub, w.toNat_field_eq 16 (by decide)]
  change (2 ^ 64 - (w.part 16 6).toNat + 64) % 2 ^ 64 % 64 % 64 = _
  omega

end InstrWord

/-! ## The manual -/

/-- What a register number stands for where 31 is the zero register. -/
def RegisterFile.readOrZero (rf : RegisterFile) (r : Nat) : Word := if r = 31 then 0 else rf.read r

theorem RegisterFile.read_regOrZero (rf : RegisterFile) (w : InstrWord) (start : Nat) :
    rf.read (w.regOrZero start) = rf.readOrZero (w.reg start) := by
  rw [w.regOrZero_eq, readOrZero]
  split <;> rfl

namespace InstrWord

/-- The result of an instruction at an address, with the registers it reads. Branches, returns and
instructions without an effect have none. -/
def Computes (w : InstrWord) (pc : Word) (rf : RegisterFile) (op : Opcode) (v : Word) : Prop :=
  let n := rf.readOrZero (w.reg 5)
  let m := rf.readOrZero (w.reg 16)
  let base := rf.read (w.reg 5)
  let immediate := (w.part 10 12).setWidth 64 <<< (12 * (w.part 22 1).toNat)
  let rotation := (w.part 16 6).toNat
  let halfword := w.part 5 16
  let place := (w.part 21 2).toNat
  match op with
  | .addImm => v = base + immediate
  | .subImm => v = base - immediate
  | .adds | .cmn => v = n + m
  | .subs | .cmp => v = n - m
  | .ands | .tst => v = n &&& m
  | .orr => v = n ||| m
  | .eor => v = n ^^^ m
  | .mvn => v = ~~~m
  | .lsl => v = n <<< ((64 - rotation) % 64)
  | .lsr => v = n >>> rotation
  | .asr => v = n.sshiftRight rotation
  | .movz => v = halfword.setWidth 64 <<< (16 * place)
  | .movk => ∀ k < 4, v.extractLsb' (16 * k) 16 =
      if k = place then halfword else (rf.readOrZero (w.reg 0)).extractLsb' (16 * k) 16
  | .adrp => v = (pc &&& ~~~0xFFF#64) + 4096 * (w.part 5 19 ++ w.part 29 2).signExtend 64
  | .ldur | .stur => v = base + (w.part 12 9).signExtend 64
  | .bl => v = pc + 4
  | .b | .bCond | .ret | .nop | .hlt | .ubfm | .undefined => True

/-- The register an instruction writes; the zero register if it writes none. -/
def destination (w : InstrWord) : Opcode → Nat
  | .addImm | .subImm => w.reg 0
  | .adds | .subs | .ands | .orr | .eor | .mvn | .lsl | .lsr | .asr | .movz | .movk | .adrp
  | .ldur => if w.reg 0 = 31 then Reg.zero else w.reg 0
  | .bl => Reg.link
  | _ => Reg.zero

/-- The address that is expected after an instruction, with every branch taken. -/
def next (w : InstrWord) (pc : Word) : Opcode → Word
  | .b | .bl => pc + 4 * (w.part 0 26).signExtend 64
  | .bCond => pc + 4 * (w.part 5 19).signExtend 64
  | _ => pc + 4

end InstrWord

/-! ## Decode and execute in one equation -/

theorem AluOp.value_run (op : AluOp) (a b : Word) (shift : Nat) (set : Bool) (cond : Cond)
    (old : Flags) : (op.run a b shift set cond old).value = op.apply a b shift := by
  unfold run
  split <;> rfl

theorem result_executeStage {x : ExecuteSlot} (hnop : x.opcode ≠ .nop) (hhlt : x.opcode ≠ .hlt)
    (flags : Flags) : (executeStage x flags).1.result =
      if x.opcode = .bl then x.following
      else x.alu.apply x.valA (if x.executeSignals.useRegister then x.valB else x.imm)
        x.halfwordShift := by
  unfold executeStage
  simp only [hnop, hhlt, or_false, if_false, AluOp.value_run]

/-- What fetch hands to decode: an instruction at an address. -/
def DecodeSlot.fetched (pc : Word) (w : InstrWord) (op : Opcode) : DecodeSlot :=
  ⟨w, op, pc + 4, pc &&& highMask 12, .ok⟩

theorem result_fetched (pc : Word) (w : InstrWord) (rf : RegisterFile) (flags : Flags) {op : Opcode}
    (hnop : op ≠ .nop) (hhlt : op ≠ .hlt) :
    (executeStage (decodeStage (.fetched pc w op) rf {}) flags).1.result =
      if op = .bl then pc + 4
      else op.aluOp.apply
        (firstOperand (.fetched pc w op) (Operands.ofWord w op)
          (rf.read (Operands.ofWord w op).src1))
        (if op.format = .registers then rf.read (Operands.ofWord w op).src2
          else (Operands.ofWord w op).imm)
        (Operands.ofWord w op).halfwordShift := by
  rw [result_executeStage hnop hhlt]
  simp only [decodeStage, Producers.forward_none, Instruction.decode, Opcode.signals,
    DecodeSlot.fetched]
  congr 3
  exact propext decide_eq_true_iff

/-- Instructions on three registers hand both sources to the arithmetic unit. -/
theorem result_registers (pc : Word) (w : InstrWord) (rf : RegisterFile) (flags : Flags)
    {op : Opcode} (hformat : op.format = .registers) (hmvn : op ≠ .mvn) :
    (executeStage (decodeStage (.fetched pc w op) rf {}) flags).1.result =
      op.aluOp.apply (rf.readOrZero (w.reg 5)) (rf.readOrZero (w.reg 16)) 0 := by
  have hops : Operands.ofWord w op = ⟨w.regOrZero 5, w.regOrZero 16, w.regOrZero 0, 0, 0, .eq⟩ := by
    unfold Operands.ofWord
    rw [hformat]
    simp only [if_neg hmvn]
  have hfirst : firstOperand (.fetched pc w op) ⟨w.regOrZero 5, w.regOrZero 16, w.regOrZero 0, 0, 0,
      .eq⟩ (rf.read (w.regOrZero 5)) = rf.read (w.regOrZero 5) := by
    unfold firstOperand DecodeSlot.fetched
    cases op <;> first | rfl | cases hformat
  rw [result_fetched, if_neg, hops, hfirst, if_pos hformat, rf.read_regOrZero, rf.read_regOrZero]
  all_goals
    rintro rfl
    cases hformat

/-- A wide move that keeps the rest replaces one halfword. -/
theorem halfword_insert (a : Word) (v : BitVec 16) {place k : Nat} (hplace : place < 4)
    (hk : k < 4) :
    ((a &&& ~~~(0xFFFF#64 <<< (place * 16))) ||| v.setWidth 64 <<< (place * 16)).extractLsb'
      (16 * k) 16 = if k = place then v else a.extractLsb' (16 * k) 16 := by
  apply BitVec.eq_of_getLsbD_eq
  intro i hi
  have hones : ∀ j, (0xFFFF#64).getLsbD j = decide (j < 16) := by
    intro j
    rw [show 0xFFFF#64 = BitVec.ofNat 64 (2 ^ 16 - 1) from rfl, BitVec.getLsbD_ofNat,
      Nat.testBit_two_pow_sub_one, Bool.eq_iff_iff]
    simp
    omega
  rw [BitVec.getLsbD_extractLsb']
  simp only [BitVec.getLsbD_or, BitVec.getLsbD_and, BitVec.getLsbD_not, BitVec.getLsbD_shiftLeft,
    BitVec.getLsbD_setWidth, hones]
  have hlt : 16 * k + i < 64 := by omega
  by_cases h : k = place
  · subst h
    rw [if_pos rfl]
    simp [hi, hlt, show ¬ 16 * k + i < k * 16 by omega, show 16 * k + i - k * 16 = i by omega,
      show i < 64 by omega]
  · rw [if_neg h, BitVec.getLsbD_extractLsb']
    by_cases hbelow : 16 * k + i < place * 16
    · simp [hi, hlt, hbelow]
    · have hfar : ¬ 16 * k + i - place * 16 < 16 := by omega
      simp [hi, hlt, hbelow, hfar, BitVec.getLsbD_of_ge v _ (Nat.le_of_not_lt hfar)]

/-! ## One format after the other -/

namespace InstrWord

variable (w : InstrWord) (pc : Word) (rf : RegisterFile) (flags : Flags)

theorem computes_registers {op : Opcode} (h : op.format = .registers) : w.Computes pc rf op
    (executeStage (decodeStage (.fetched pc w op) rf {}) flags).1.result := by
  unfold Computes
  cases op with
  | adds | subs | cmn | cmp | ands | tst | orr | eor =>
    rw [result_registers pc w rf flags rfl (by decide)]
    simp only [Opcode.aluOp, AluOp.apply, Word.sum_eq, Word.difference_eq]
  | mvn =>
    rw [result_fetched pc w rf flags (by decide) (by decide)]
    show rf.read Reg.zero ||| ~~~rf.read (w.regOrZero 16) = _
    rw [rf.read_regOrZero]
    exact BitVec.zero_or
  | _ => cases h

theorem computes_immediate {op : Opcode} (h : op.format = .immediate) : w.Computes pc rf op
    (executeStage (decodeStage (.fetched pc w op) rf {}) flags).1.result := by
  unfold Computes
  cases op with
  | addImm =>
    rw [result_fetched pc w rf flags (by decide) (by decide)]
    show rf.read (w.regOrSp 5) + (if w.field 22 1 = 1 then _ else _) = _
    rw [w.immediate_eq, w.regOrSp_eq]
  | subImm =>
    rw [result_fetched pc w rf flags (by decide) (by decide)]
    show Word.difference (rf.read (w.regOrSp 5)) (if w.field 22 1 = 1 then _ else _) = _
    rw [w.immediate_eq, w.regOrSp_eq, Word.difference_eq]
  | _ => cases h

theorem computes_shift {op : Opcode} (h : op.format = .shift) : w.Computes pc rf op
    (executeStage (decodeStage (.fetched pc w op) rf {}) flags).1.result := by
  unfold Computes
  have hlt := (w.part 16 6).isLt
  have hrotation : (w.field 16 6).toNat % 64 = (w.part 16 6).toNat := by
    rw [w.toNat_field_eq 16 (by decide), Nat.mod_eq_of_lt hlt]
  cases op with
  | lsl =>
    rw [result_fetched pc w rf flags (by decide) (by decide)]
    show rf.read (w.regOrZero 5) <<< (((64 - w.field 16 6) % 64).toNat % 64) = _
    rw [rf.read_regOrZero, w.toNat_leftAmount]
  | lsr =>
    rw [result_fetched pc w rf flags (by decide) (by decide)]
    show rf.read (w.regOrZero 5) >>> ((w.field 16 6).toNat % 64) = _
    rw [rf.read_regOrZero, hrotation]
  | asr =>
    rw [result_fetched pc w rf flags (by decide) (by decide)]
    show (rf.read (w.regOrZero 5)).sshiftRight ((w.field 16 6).toNat % 64) = _
    rw [rf.read_regOrZero, hrotation]
  | _ => cases h

theorem computes_wideMove {op : Opcode} (h : op.format = .wideMove) : w.Computes pc rf op
    (executeStage (decodeStage (.fetched pc w op) rf {}) flags).1.result := by
  unfold Computes
  have hplace : (w.part 21 2).toNat < 4 := (w.part 21 2).isLt
  cases op with
  | movz =>
    rw [result_fetched pc w rf flags (by decide) (by decide)]
    show rf.read Reg.zero ||| (if (w.field 21 2).toNat * 16 < 64
      then w.field 5 16 <<< ((w.field 21 2).toNat * 16) else 0) = _
    rw [w.toNat_field_eq 21 (by decide), if_pos (by omega), w.field_eq 5 (by decide), Nat.mul_comm]
    exact BitVec.zero_or
  | movk =>
    intro _ _ _ _ _ _ _ k hk
    rw [result_fetched pc w rf flags (by decide) (by decide)]
    show ((rf.read (w.regOrZero 0) &&& ~~~(0xFFFF#64 <<< ((w.field 21 2).toNat * 16))) |||
      (if (w.field 21 2).toNat * 16 < 64 then w.field 5 16 <<< ((w.field 21 2).toNat * 16)
        else 0)).extractLsb' (16 * k) 16 = _
    rw [w.toNat_field_eq 21 (by decide), if_pos (by omega), w.field_eq 5 (by decide),
      rf.read_regOrZero]
    exact halfword_insert _ _ hplace hk
  | _ => cases h

theorem computes_loadStore {op : Opcode} (h : op.format = .loadStore) : w.Computes pc rf op
    (executeStage (decodeStage (.fetched pc w op) rf {}) flags).1.result := by
  unfold Computes
  cases op with
  | ldur | stur =>
    rw [result_fetched pc w rf flags (by decide) (by decide)]
    show rf.read (w.regOrSp 5) + w.signedField 12 9 = _
    rw [w.regOrSp_eq, w.signedField_eq 12 (by decide) (by decide)]
  | _ => cases h

/-- Execute computes what the manual says of an instruction. -/
theorem computes_result (op : Opcode) : w.Computes pc rf op
    (executeStage (decodeStage (.fetched pc w op) rf {}) flags).1.result := by
  cases hformat : op.format with
  | registers => exact w.computes_registers pc rf flags hformat
  | immediate => exact w.computes_immediate pc rf flags hformat
  | shift => exact w.computes_shift pc rf flags hformat
  | wideMove => exact w.computes_wideMove pc rf flags hformat
  | loadStore => exact w.computes_loadStore pc rf flags hformat
  | pageAddress =>
    cases op with
    | adrp =>
      unfold Computes
      rw [result_fetched pc w rf flags (by decide) (by decide)]
      show (pc &&& highMask 12) + w.pageOffset = _
      rw [w.pageOffset_eq, highMask_eq, lowMask_eq]
      rfl
    | _ => cases hformat
  | branch =>
    cases op with
    | bl =>
      unfold Computes
      rw [result_fetched pc w rf flags (by decide) (by decide), if_pos rfl]
    | b => trivial
    | _ => cases hformat
  | condBranch | ret | system =>
    cases op <;> trivial

end InstrWord

/-! ## Destinations and targets -/

namespace Opcode

/-- The opcodes of comparisons. -/
def compares : Opcode → Bool
  | cmp | cmn | tst => true
  | _ => false

theorem setsFlags_iff (op : Opcode) : op.setsFlags = true ↔
    op = adds ∨ op = subs ∨ op = ands ∨ op = cmp ∨ op = cmn ∨ op = tst := by
  cases op <;> decide

/-- No class field selects a comparison. -/
theorem compares_ofClass (c : Nat) : (ofClass c).compares = false := by
  have htable : ∀ e ∈ table, e.2.2.compares = false := by decide
  unfold ofClass
  split
  · rename_i first last op hfind
    exact htable _ (List.mem_of_find?_eq_some hfind)
  · rfl

/-- A comparison discards its result. -/
theorem reg_of_compares {w : InstrWord} (h : (ofWord w).compares = true) : w.reg 0 = 31 := by
  have hclass : (unresolved w).compares = false := compares_ofClass _
  have hdiscards : (w.field 0 5 == 31) = true := by
    cases hz : w.field 0 5 == 31 with
    | true => rfl
    | false =>
      have hsame : ∀ op, op.compares = false → (resolve w op).compares = false := by
        intro op hop
        unfold resolve
        rw [hz]
        cases op with
        | ubfm =>
          simp only
          split
          · rfl
          · split <;> rfl
        | _ => exact hop
      rw [ofWord, hsame _ hclass] at h
      cases h
  rw [← w.regOrSp_eq, InstrWord.regOrSp, beq_iff_eq.1 hdiscards]
  rfl

end Opcode

theorem destination_eq (w : InstrWord) : (if (Opcode.ofWord w).signals.write.toLink then Reg.link
    else (Operands.ofWord w (Opcode.ofWord w)).dst) = w.destination (Opcode.ofWord w) := by
  generalize hop : Opcode.ofWord w = op
  cases op with
  | cmp | cmn | tst =>
    have hdiscards : w.reg 0 = 31 := Opcode.reg_of_compares (by rw [hop]; rfl)
    change w.regOrZero 0 = Reg.zero
    rw [w.regOrZero_eq, if_pos hdiscards]
  | addImm | subImm => exact w.regOrSp_eq 0
  | adds | subs | ands | orr | eor | mvn | lsl | lsr | asr | movz | movk | adrp | ldur =>
    exact w.regOrZero_eq 0
  | b | bl | bCond | ret | nop | hlt | stur | ubfm | undefined => rfl

theorem nextPredicted_eq (pc : Word) (w : InstrWord) (op : Opcode) :
    nextPredicted pc w op = w.next pc op := by
  unfold nextPredicted
  rw [Word.sum_eq]
  cases op with
  | b | bl =>
    change pc + w.signedField 0 26 * 4 = _
    rw [w.signedField_eq 0 (by decide) (by decide), BitVec.mul_comm]
    rfl
  | bCond =>
    change pc + w.signedField 5 19 * 4 = _
    rw [w.signedField_eq 5 (by decide) (by decide), BitVec.mul_comm]
    rfl
  | _ => rfl

/-- Fetch hands the instruction at an address to decode, and goes on where it is expected to. -/
theorem fetchStage_fetched {f : FetchSlot} {x : ExecuteSlot} {m : MemorySlot} {b : Bus} {pc : Word}
    {w : InstrWord} (hf : f.status ≠ .halt) (hsel : selectPc f x m = pc) (hpc : pc ≠ 0)
    (hw : b.fetch pc = .ok w) (hdef : Opcode.ofWord w ≠ .undefined)
    (hhlt : Opcode.ofWord w ≠ .hlt) :
    fetchStage f x m b =
      (⟨nextPredicted pc w (Opcode.ofWord w), .ok⟩, .fetched pc w (Opcode.ofWord w)) := by
  have hstatus : (Opcode.ofWord w).initialStatus = .ok := by
    cases hop : Opcode.ofWord w <;> first | rfl | exact absurd hop hdef | exact absurd hop hhlt
  simp only [fetchStage, hsel, hf, hpc, or_false, if_false, fetchedWord, hw, hstatus, Word.sum_eq,
    DecodeSlot.fetched]

/-- Up to memory, an instruction does what the manual says: fetch hands it on and expects the right
successor, the result, the destination, the stored word and the kind of access are its own, a return
goes where its register says, and only flag-setting instructions touch the flags. -/
theorem datapath_documented {w : InstrWord} (hdef : Opcode.ofWord w ≠ .undefined)
    (hhlt : Opcode.ofWord w ≠ .hlt) (pc : Word) (rf : RegisterFile) (flags : Flags) :
    let op := Opcode.ofWord w
    let x := decodeStage (.fetched pc w op) rf {}
    let m := (executeStage x flags).1
    (∀ f x' m' b, f.status ≠ .halt → selectPc f x' m' = pc → pc ≠ 0 → b.fetch pc = .ok w →
      fetchStage f x' m' b = (⟨nextPredicted pc w op, .ok⟩, .fetched pc w op)) ∧
    nextPredicted pc w op = w.next pc op ∧
    w.Computes pc rf op m.result ∧
    m.dst = w.destination op ∧
    (op = .stur → m.valB = rf.readOrZero (w.reg 0)) ∧
    m.accessKind? = (if op = .ldur then some .read else if op = .stur then some .write else none) ∧
    (op = .ret → w.reg 5 ≤ 30 → ∀ f m', selectPc f x m' =
      if rf.read (w.reg 5) = returnFromEntry then 0
      else if m'.opcode = .bCond ∧ m'.condHolds = false then m'.following
      else rf.read (w.reg 5)) ∧
    ((executeStage x flags).2 ≠ flags →
      op = .adds ∨ op = .subs ∨ op = .ands ∨ op = .cmp ∨ op = .cmn ∨ op = .tst) := by
  intro op x m
  have hm := executeStage_passes x flags
  refine ⟨fun f x' m' b hf hsel hpc hw => fetchStage_fetched hf hsel hpc hw hdef hhlt,
    nextPredicted_eq pc w op, w.computes_result pc rf flags op, ?_, fun hop => ?_, ?_,
    fun hop _ f m' => ?_, fun hne => ?_⟩
  · rw [hm.dst]
    exact destination_eq w
  · rw [hm.valB]
    have hvalB : x.valB = rf.read (Operands.ofWord w op).src2 := by
      simp only [x, decodeStage, Producers.forward_none, Instruction.decode, DecodeSlot.fetched]
    rw [hvalB, hop]
    exact rf.read_regOrZero w 0
  · have hkind : m.accessKind? = if op = .ldur then some .read
        else if op = .stur then some .write else none := by
      unfold MemorySlot.accessKind?
      rw [hm.status, hm.memorySignals]
      simp [x, decodeStage, Instruction.decode, Opcode.signals, DecodeSlot.fetched]
    exact hkind
  · have hvalA : x.valA = rf.read (w.reg 5) := by
      simp only [x, decodeStage, Producers.forward_none, Instruction.decode, DecodeSlot.fetched,
        hop]
      exact congrArg rf.read (w.regOrSp_eq 5)
    have hret : x.opcode = .ret := hop
    simp only [selectPc, hret, hvalA, true_and, if_true]
  · rw [← Opcode.setsFlags_iff]
    cases hset : op.setsFlags with
    | true => rfl
    | false => exact absurd (flags_executeStage (x := x) hset flags) hne

/-- A load from below the stack pointer. -/
theorem datapath_documented_ldur :
    let w : InstrWord := 0xF85F83E1
    let x := decodeStage (.fetched textStart w .ldur) (Core.start textStart stackTop).registers {}
    let m := (executeStage x .initial).1
    Opcode.ofWord w ≠ .undefined ∧ Opcode.ofWord w ≠ .hlt ∧ m.result = stackTop - 16 ∧
      m.dst = 1 ∧ m.accessKind? = some .read ∧ (executeStage x .initial).2 = .initial := by
  intro w x m
  have hop : Opcode.ofWord w = .ldur := by decide +kernel
  have hdef : Opcode.ofWord w ≠ .undefined := by
    rw [hop]
    decide
  have hhlt : Opcode.ofWord w ≠ .hlt := by
    rw [hop]
    decide
  obtain ⟨-, -, hresult, hdst, -, hkind, -, hflags⟩ := datapath_documented hdef hhlt textStart
    (Core.start textStart stackTop).registers .initial
  rw [hop] at hresult hdst hkind hflags
  have hsp : (Core.start textStart stackTop).registers.read (w.reg 5) +
      (w.part 12 9).signExtend 64 = stackTop - 16 := by decide +kernel
  refine ⟨hdef, hhlt, ?_, ?_, ?_, ?_⟩
  · exact hresult.trans hsp
  · have hreg : w.destination .ldur = 1 := by decide +kernel
    exact hdst.trans hreg
  · exact hkind
  · exact Decidable.byContradiction fun hne => by simpa using hflags hne

end FiveStage
