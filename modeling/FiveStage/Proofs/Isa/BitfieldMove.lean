import FiveStage.Proofs.Isa.Datapath

/-!
# Bit-field moves

Two classes of instructions move a field of bits: the unsigned ones and the signed ones. Decode
knows three of them under names of their own, the shifts by a constant.

* `InstrWord.MovesField` : the words of the two classes; `movedField` : what the manual asks of
  them;
* `movedField_right`, `movedField_left`, `movedField_right_signed` : the fields that shifts move;
* `InstrWord.Delivers` : decode and execute put a value on its way to the destination register;
* `Opcode.ofWord_of_movesField` : what becomes of either class;
* `movesFaithfully_iff` : the words that are moved as the manual asks, and those that are refused.
-/

namespace FiveStage

/-! ## The manual -/

/-- A field as a number, unsigned or signed. -/
def extend (signed : Bool) {n : Nat} (x : BitVec n) : Word :=
  if signed then x.signExtend 64 else x.setWidth 64

/-- The bits of the source from `rotation` up to `last`, at the low end of the result; if `last`
lies below `rotation`, the bits up to `last`, moved up by the rest of the rotation. -/
def movedField (signed : Bool) (rotation last : Nat) (source : Word) : Word :=
  if rotation ≤ last then extend signed (source.extractLsb' rotation (last + 1 - rotation))
  else extend signed (source.extractLsb' 0 (last + 1)) <<< (64 - rotation)

namespace InstrWord

/-- The words of the unsigned and of the signed bit-field moves. -/
def MovesField (w : InstrWord) (signed : Bool) : Prop :=
  let first := if signed then 0x49A else 0x69A
  (w.part 21 11).toNat = first ∨ (w.part 21 11).toNat = first + 1

instance (w : InstrWord) (signed : Bool) : Decidable (w.MovesField signed) :=
  inferInstanceAs (Decidable (_ ∨ _))

/-- By how much a bit-field move rotates its source. -/
def rotation (w : InstrWord) : Nat := (w.part 16 6).toNat

/-- The last bit of the field that is moved. -/
def lastBit (w : InstrWord) : Nat := (w.part 10 6).toNat

theorem rotation_lt (w : InstrWord) : w.rotation < 64 := (w.part 16 6).isLt

theorem lastBit_lt (w : InstrWord) : w.lastBit < 64 := (w.part 10 6).isLt

end InstrWord

/-! ## Fields that end at the top of the source -/

theorem getLsbD_extend (signed : Bool) {n : Nat} (x : BitVec n) {i : Nat} (hi : i < 64) :
    (extend signed x).getLsbD i = if i < n then x.getLsbD i else signed && x.msb := by
  cases signed with
  | true =>
    show (x.signExtend 64).getLsbD i = _
    rw [BitVec.getLsbD_signExtend]
    simp [hi]
  | false =>
    show (x.setWidth 64).getLsbD i = _
    rw [BitVec.getLsbD_setWidth]
    by_cases h : i < n
    · simp [hi, h]
    · simp [h, BitVec.getLsbD_of_ge x i (by omega)]

theorem movedField_right {r : Nat} (hr : r < 64) (x : Word) :
    movedField false r 63 x = x >>> r := by
  apply BitVec.eq_of_getLsbD_eq
  intro i hi
  rw [movedField, if_pos (by omega), getLsbD_extend _ _ hi, BitVec.getLsbD_ushiftRight]
  by_cases h : i < 63 + 1 - r
  · simp [h]
  · simp [h, BitVec.getLsbD_of_ge x (r + i) (by omega)]

theorem movedField_right_signed {r : Nat} (hr : r < 64) (x : Word) :
    movedField true r 63 x = x.sshiftRight r := by
  apply BitVec.eq_of_getLsbD_eq
  intro i hi
  have hmsb : (x.extractLsb' r (63 + 1 - r)).msb = x.msb := by
    rw [BitVec.msb_eq_getLsbD_last, BitVec.msb_eq_getLsbD_last, BitVec.getLsbD_extractLsb']
    simp [show 63 + 1 - r - 1 < 63 + 1 - r by omega, show r + (63 + 1 - r - 1) = 63 by omega]
  rw [movedField, if_pos (by omega), getLsbD_extend _ _ hi, hmsb, BitVec.getLsbD_sshiftRight]
  by_cases h : i < 63 + 1 - r
  · simp [h, show r + i < 64 by omega, hi]
  · simp [h, show ¬ r + i < 64 by omega, hi]

theorem movedField_left {r last : Nat} (h : last + 1 = r) (hr : r < 64) (x : Word) :
    movedField false r last x = x <<< (64 - r) := by
  apply BitVec.eq_of_getLsbD_eq
  intro i hi
  rw [movedField, if_neg (by omega), BitVec.getLsbD_shiftLeft, BitVec.getLsbD_shiftLeft]
  by_cases hlow : i < 64 - r
  · simp only [hlow, decide_true, Bool.not_true, Bool.and_false, Bool.false_and]
  · rw [getLsbD_extend _ _ (by omega), if_pos (by omega), BitVec.getLsbD_extractLsb', Nat.zero_add,
      decide_eq_true (show i - (64 - r) < last + 1 by omega), Bool.true_and]

theorem extend_zero (signed : Bool) (n : Nat) : extend signed (0 : BitVec n) = 0 := by
  apply BitVec.eq_of_getLsbD_eq
  intro i hi
  rw [getLsbD_extend _ _ hi]
  simp

/-- A field that ends below the top bit is zero if only the top bit is set. A signed shift is
not. -/
theorem movedField_intMin {last : Nat} (hlast : last < 63) (signed : Bool) (r : Nat) :
    movedField signed r last (BitVec.intMin 64) = 0 := by
  have hfield : ∀ start n, start + n ≤ 63 → (BitVec.intMin 64).extractLsb' start n = 0 := by
    intro start n hn
    apply BitVec.eq_of_getLsbD_eq
    intro i hi
    rw [BitVec.getLsbD_extractLsb', BitVec.getLsbD_intMin]
    simp [hi]
    omega
  unfold movedField
  split
  · rw [hfield _ _ (by omega), extend_zero]
  · rw [hfield _ _ (by omega), extend_zero]
    simp

theorem sshiftRight_intMin (r : Nat) : (BitVec.intMin 64).sshiftRight r ≠ 0 := by
  intro h
  have hmsb := congrArg BitVec.msb h
  rw [BitVec.msb_sshiftRight] at hmsb
  exact absurd hmsb (by decide)

theorem movedField_zero (signed : Bool) (r last : Nat) : movedField signed r last 0 = 0 := by
  have hfield : ∀ start n, (0 : Word).extractLsb' start n = 0 := fun _ _ => by simp
  unfold movedField
  split
  · rw [hfield, extend_zero]
  · rw [hfield, extend_zero]
    simp

/-! ## The two classes -/

namespace Opcode

variable {w : InstrWord}

/-- Every signed move is taken for a signed shift. An unsigned one is a shift to the right if its
field ends at the top, and a shift to the left if the field ends just below the rotation. -/
theorem ofWord_of_movesField {signed : Bool} (h : w.MovesField signed) :
    ofWord w =
      if signed then asr
      else if w.lastBit = 63 then lsr
      else if w.lastBit + 1 = w.rotation then lsl
      else undefined := by
  unfold InstrWord.MovesField at h
  rw [← w.toNat_field_eq 21 (by decide)] at h
  have hrotation : (w.field 16 6).toNat = w.rotation := w.toNat_field_eq 16 (by decide)
  have hlast : (w.field 10 6).toNat = w.lastBit := w.toNat_field_eq 10 (by decide)
  cases signed with
  | true =>
    have hclass : unresolved w = asr := by
      rcases h with h | h <;> rw [unresolved, h] <;> rfl
    rw [ofWord, hclass]
    rfl
  | false =>
    have hclass : unresolved w = ubfm := by
      rcases h with h | h <;> rw [unresolved, h] <;> rfl
    rw [ofWord, hclass, resolve, hrotation, hlast]
    rfl

end Opcode

namespace InstrWord

/-- A value, and nothing else, is on its way to the register that an instruction names as its
destination. -/
structure Delivers (w : InstrWord) (v : Word) (flags : Flags) (out : MemorySlot × Flags) :
    Prop where
  result : out.1.result = v
  dst : out.1.dst = if w.reg 0 = 31 then Reg.zero else w.reg 0
  writes : out.1.writeSignals = { enable := true }
  idle : out.1.accessKind? = none
  status : out.1.status = .ok
  flags : out.2 = flags

/-- What decode and execute yield for a word that has been fetched at an address. -/
def executed (w : InstrWord) (pc : Word) (rf : RegisterFile) (flags : Flags) : MemorySlot × Flags :=
  executeStage (decodeStage (.fetched pc w (Opcode.ofWord w)) rf {}) flags

/-- Whatever the registers hold, decode and execute yield the field that the manual asks for. -/
def MovesFaithfully (w : InstrWord) (signed : Bool) : Prop :=
  ∀ pc rf flags, w.Delivers (movedField signed w.rotation w.lastBit (rf.readOrZero (w.reg 5))) flags
    (w.executed pc rf flags)

variable {w : InstrWord}

/-- A shift delivers what the manual says of it. -/
theorem delivers_of_shift {op : Opcode} (hop : Opcode.ofWord w = op) (h : op.format = .shift)
    {pc : Word} {rf : RegisterFile} {v : Word} (hv : ∀ u, w.Computes pc rf op u → u = v)
    (flags : Flags) : w.Delivers v flags (w.executed pc rf flags) := by
  unfold executed
  rw [hop]
  have hresult := w.computes_result pc rf flags op
  have hm := executeStage_passes (decodeStage (.fetched pc w op) rf {}) flags
  have hdst : (Operands.ofWord w op).dst = w.regOrZero 0 := by
    unfold Operands.ofWord
    rw [h]
  cases op with
  | lsl | lsr | asr =>
    refine ⟨hv _ hresult, ?_, ?_, ?_, ?_, flags_executeStage (by rfl) flags⟩
    · rw [hm.dst, ← w.regOrZero_eq, ← hdst]
      rfl
    · rw [hm.writeSignals]
      rfl
    · unfold MemorySlot.accessKind?
      rw [hm.status, hm.memorySignals]
      rfl
    · rw [hm.status]
      rfl
  | _ => cases h

/-- A signed move is executed as a shift of its source, whatever the last bit of its field is. -/
theorem delivers_of_signed (h : w.MovesField true) (pc : Word) (rf : RegisterFile) (flags : Flags) :
    w.Delivers (movedField true w.rotation 63 (rf.readOrZero (w.reg 5))) flags
      (w.executed pc rf flags) :=
  delivers_of_shift (Opcode.ofWord_of_movesField h) rfl
    (fun _ hu => hu.trans (movedField_right_signed w.rotation_lt _).symm) flags

/-- An unsigned move is executed faithfully unless it is refused. -/
theorem movesFaithfully_of_unsigned (h : w.MovesField false) (hop : Opcode.ofWord w ≠ .undefined) :
    w.MovesFaithfully false := by
  intro pc rf flags
  have hlt := w.rotation_lt
  have hof := Opcode.ofWord_of_movesField h
  rw [if_neg (by decide)] at hof
  by_cases hright : w.lastBit = 63
  · rw [if_pos hright] at hof
    rw [hright]
    exact delivers_of_shift hof rfl (fun _ hu => hu.trans (movedField_right hlt _).symm) flags
  · rw [if_neg hright] at hof
    by_cases hleft : w.lastBit + 1 = w.rotation
    · rw [if_pos hleft] at hof
      refine delivers_of_shift hof rfl (fun u hu => ?_) flags
      have hamount : (64 - w.rotation) % 64 = 64 - w.rotation := Nat.mod_eq_of_lt (by omega)
      have hshift : u = rf.readOrZero (w.reg 5) <<< ((64 - w.rotation) % 64) := hu
      rw [hshift, hamount, movedField_left hleft hlt]
    · rw [if_neg hleft] at hof
      exact absurd hof hop

/-- A signed move is executed faithfully if its field ends at the top bit, or if its source is the
zero register. -/
theorem movesFaithfully_signed_iff (h : w.MovesField true) :
    w.MovesFaithfully true ↔ w.lastBit = 63 ∨ w.reg 5 = 31 := by
  constructor
  · intro hfaithful
    false_or_by_contra
    rename_i hneither
    have hlast := w.lastBit_lt
    have hreg : w.reg 5 < 32 := (w.part 5 5).isLt
    -- only the top bit of the source is set
    have hread : (RegisterFile.blank.write (w.reg 5) (BitVec.intMin 64)).readOrZero (w.reg 5) =
        BitVec.intMin 64 := by
      rw [RegisterFile.readOrZero, if_neg (by omega), RegisterFile.read_write, if_pos ⟨rfl, hreg⟩]
    have hmanual := (hfaithful 0
      (RegisterFile.blank.write (w.reg 5) (BitVec.intMin 64)) .clear).result
    have hshift := (delivers_of_signed h 0
      (RegisterFile.blank.write (w.reg 5) (BitVec.intMin 64)) .clear).result
    rw [hread, movedField_intMin (by omega)] at hmanual
    rw [hread, movedField_right_signed w.rotation_lt] at hshift
    exact sshiftRight_intMin w.rotation (hshift.symm.trans hmanual)
  · intro hor pc rf flags
    have hdelivers := delivers_of_signed h pc rf flags
    rcases hor with hlast | hsource
    · rwa [hlast]
    · have hzero : rf.readOrZero (w.reg 5) = 0 := if_pos hsource
      rw [hzero, movedField_zero] at hdelivers ⊢
      exact hdelivers

end InstrWord

/-- A bit-field move is executed as the manual asks or refused unless it is a signed one whose field
ends below the top bit of a register that can hold something. The unsigned ones that are no shifts
are refused, and the signed ones are all executed as if their fields ended at the top bit. -/
theorem movesFaithfully_iff {w : InstrWord} {signed : Bool} (h : w.MovesField signed) :
    (Opcode.ofWord w = .undefined ∨ w.MovesFaithfully signed ↔
      signed = false ∨ w.lastBit = 63 ∨ w.reg 5 = 31) ∧
    (Opcode.ofWord w = .undefined ↔
      signed = false ∧ w.lastBit ≠ 63 ∧ w.lastBit + 1 ≠ w.rotation) ∧
    ((Opcode.ofWord w).initialStatus = .badInstruction ↔ Opcode.ofWord w = .undefined) ∧
    (signed = true → ∀ pc rf flags,
      w.Delivers (movedField true w.rotation 63 (rf.readOrZero (w.reg 5))) flags
        (w.executed pc rf flags)) := by
  have hof := Opcode.ofWord_of_movesField h
  have hundefined : Opcode.ofWord w = .undefined ↔
      signed = false ∧ w.lastBit ≠ 63 ∧ w.lastBit + 1 ≠ w.rotation := by
    rw [hof]
    cases signed with
    | true => simp
    | false =>
      by_cases hright : w.lastBit = 63
      · simp [hright]
      · by_cases hleft : w.lastBit + 1 = w.rotation <;> simp [hright, hleft]
  refine ⟨?_, hundefined, ?_, ?_⟩
  · cases signed with
    | true =>
      rw [InstrWord.movesFaithfully_signed_iff h, hundefined]
      simp
    | false =>
      simp only [true_or, iff_true]
      by_cases hop : Opcode.ofWord w = .undefined
      · exact .inl hop
      · exact .inr (InstrWord.movesFaithfully_of_unsigned h hop)
  · cases hop : Opcode.ofWord w <;> simp [Opcode.initialStatus]
  · rintro rfl
    exact InstrWord.delivers_of_signed h

/-- A signed shift to the right by three, `ASR X0, X1, #3`, is executed faithfully. -/
theorem movesFaithfully_iff_asr : let w : InstrWord := 0x9343FC20
    w.MovesField true ∧ w.lastBit = 63 ∧ Opcode.ofWord w ≠ .undefined ∧ w.MovesFaithfully true := by
  intro w
  have hmoves : w.MovesField true := by decide +kernel
  have hlast : w.lastBit = 63 := by decide +kernel
  obtain ⟨hiff, hundefined, -, -⟩ := movesFaithfully_iff hmoves
  have hdefined : Opcode.ofWord w ≠ .undefined := by
    rw [ne_eq, hundefined]
    simp
  exact ⟨hmoves, hlast, hdefined, (hiff.2 (.inr (.inl hlast))).resolve_left hdefined⟩

/-- The extension of a byte with its sign, `SXTB X0, W1`, is neither refused nor executed
faithfully: of `0x180` it leaves `0x180`. -/
theorem unfaithful_signExtendByte : let w : InstrWord := 0x93401C20
    let rf := RegisterFile.blank.write 1 0x180
    w.MovesField true ∧ ¬ (Opcode.ofWord w = .undefined ∨ w.MovesFaithfully true) ∧
      (w.executed textStart rf .clear).1.result = 0x180 ∧
      movedField true w.rotation w.lastBit (rf.readOrZero (w.reg 5)) = 0xFFFFFFFFFFFFFF80 := by
  intro w rf
  have hop : Opcode.ofWord w = .asr := by decide +kernel
  have hresult : (w.executed textStart rf .clear).1.result = 0x180 := by decide +kernel
  have hmanual : movedField true w.rotation w.lastBit (rf.readOrZero (w.reg 5)) =
      0xFFFFFFFFFFFFFF80 := by decide +kernel
  refine ⟨by decide +kernel, ?_, hresult, hmanual⟩
  rintro (hundefined | hfaithful)
  · rw [hop] at hundefined
    cases hundefined
  · have hvalue := (hfaithful textStart rf .clear).result
    rw [hresult, hmanual] at hvalue
    exact absurd hvalue (by decide)

end FiveStage
