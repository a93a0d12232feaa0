import FiveStage.Bits.Field

/-!
# Fields are arithmetic

* `Word.field_eq`, `Word.signedField_eq` : a field is a run of bits, extended with zeros or with its
  sign;
* `ReadsSigned` : the integer that some bits stand for in two's complement;
* `Word.toInt_signedField_iff` : a signed field is that integer;
* `fields_arithmetic` : fields of words and of instructions, on natural numbers and integers.
-/

namespace FiveStage

/-! ## Fields as runs of bits -/

namespace Word

variable (w : Word) (start : Nat) {width : Nat}

theorem field_eq (h : width ≤ 64) :
    w.field start width = (w.extractLsb' start width).setWidth 64 := by
  apply BitVec.eq_of_toNat_eq
  have hle : 2 ^ width ≤ 2 ^ 64 := Nat.pow_le_pow_right (by decide) h
  have hlt := (w.extractLsb' start width).isLt
  rw [toNat_field, Nat.min_eq_left h, BitVec.toNat_setWidth,
    Nat.mod_eq_of_lt (Nat.lt_of_lt_of_le hlt hle), BitVec.extractLsb'_toNat,
    Nat.shiftRight_eq_div_pow]

/-- The bits above a field, as a mask. -/
theorem getLsbD_highMask (h : width ≤ 64) {i : Nat} (hi : i < 64) :
    (highMask width).getLsbD i = decide (width ≤ i) := by
  rw [highMask_eq, lowMask_eq, Nat.min_eq_left h, BitVec.getLsbD_not, BitVec.getLsbD_ofNat,
    Nat.testBit_two_pow_sub_one, Bool.eq_iff_iff]
  simp [hi]

theorem signedField_eq (h0 : 0 < width) (h : width ≤ 64) :
    w.signedField start width = (w.extractLsb' start width).signExtend 64 := by
  generalize hx : w.extractLsb' start width = x
  have hlow : w.field start width = x.setWidth 64 := by rw [field_eq w start h, hx]
  have hsign : (x.setWidth 64).getLsbD (width - 1) = x.msb := by
    rw [BitVec.getLsbD_setWidth, BitVec.msb_eq_getLsbD_last]
    simp [show width - 1 < 64 by omega]
  apply BitVec.eq_of_getLsbD_eq
  intro i hi
  rw [signedField, hlow, Nat.min_eq_left h, hsign, BitVec.getLsbD_signExtend]
  by_cases hin : i < width
  · rw [if_pos hin]
    split
    · rw [BitVec.getLsbD_or, getLsbD_highMask h hi, BitVec.getLsbD_setWidth]
      simp [hi, show ¬ width ≤ i by omega]
    · rw [BitVec.getLsbD_setWidth]
  · -- above the field stand copies of its sign
    have hout : (x.setWidth 64).getLsbD i = false := by
      rw [BitVec.getLsbD_setWidth, BitVec.getLsbD_of_ge _ _ (by omega), Bool.and_false]
    rw [if_neg hin]
    cases x.msb with
    | true =>
      rw [if_pos rfl, BitVec.getLsbD_or, getLsbD_highMask h hi, hout]
      simp [hi, show width ≤ i by omega]
    | false => rw [if_neg (by decide), hout, Bool.and_false]

end Word

/-! ## Two's complement -/

/-- `i` is the integer that `width` bits of the value `n` stand for in two's complement: of all that
leave the remainder of `n`, the one in the middle of the range. -/
structure ReadsSigned (width n : Nat) (i : Int) : Prop where
  lower : -((2 ^ (width - 1) : Nat) : Int) ≤ i
  upper : i < ((2 ^ (width - 1) : Nat) : Int)
  congruent : ((2 ^ width : Nat) : Int) ∣ i - n

theorem toInt_eq_iff_readsSigned {width : Nat} (h0 : 0 < width) (x : BitVec width) (i : Int) :
    x.toInt = i ↔ ReadsSigned width x.toNat i := by
  have hpow : 2 ^ width = 2 ^ (width - 1) * 2 := by
    rw [← Nat.pow_succ, Nat.succ_eq_add_one, Nat.sub_add_cancel h0]
  rw [BitVec.toInt_eq_toNat_bmod, Int.bmod_eq_iff (Nat.two_pow_pos width)]
  constructor
  · rintro ⟨hlow, hhigh, hdvd⟩
    exact ⟨by omega, by omega, hdvd⟩
  · rintro ⟨hlow, hhigh, hdvd⟩
    exact ⟨by omega, by omega, hdvd⟩

theorem Word.toInt_signedField_iff (w : Word) (start : Nat) {width : Nat} (h0 : 0 < width)
    (h : width ≤ 64) (i : Int) : (w.signedField start width).toInt = i ↔
      ReadsSigned width (w.field start width).toNat i := by
  have hle : 2 ^ width ≤ 2 ^ 64 := Nat.pow_le_pow_right (by decide) h
  have hlt := (w.extractLsb' start width).isLt
  rw [signedField_eq w start h0 h, field_eq w start h, BitVec.toInt_signExtend_of_le h,
    BitVec.toNat_setWidth, Nat.mod_eq_of_lt (Nat.lt_of_lt_of_le hlt hle),
    toInt_eq_iff_readsSigned h0]

/-- A field of a word or of an instruction is what division by a power of two leaves as remainder by
another one, and read with a sign it is the one integer of its range with that remainder. The field
may start anywhere and run past the last bit. -/
theorem fields_arithmetic (start : Nat) {width : Nat} (h : width ≤ 64) :
    (∀ w : Word,
      (w.field start width).toNat = w.toNat / 2 ^ start % 2 ^ width ∧
      (1 ≤ width → ∀ i, (w.signedField start width).toInt = i ↔
        ReadsSigned width (w.field start width).toNat i)) ∧
    ∀ w : InstrWord,
      (w.field start width).toNat = w.toNat / 2 ^ start % 2 ^ width ∧
      (1 ≤ width → ∀ i, (w.signedField start width).toInt = i ↔
        ReadsSigned width (w.field start width).toNat i) := by
  refine ⟨fun w => ⟨?_, fun h0 i => w.toInt_signedField_iff start h0 h i⟩,
    fun w => ⟨?_, fun h0 i => Word.toInt_signedField_iff _ start h0 h i⟩⟩
  · rw [Word.toNat_field, Nat.min_eq_left h]
  · rw [InstrWord.toNat_field, Nat.min_eq_left h]

/-- Nine bits that stand for -8, and eight bits of which a word has four: what is missing is zero,
the sign too. -/
theorem fields_arithmetic_pastEnd :
    (9 ≤ 64 ∧ (Word.signedField 0x1F8000 12 9).toInt = -8) ∧
    8 ≤ 64 ∧ (Word.field 0xF000000000000000 60 8).toNat = 15 ∧
      (Word.signedField 0xF000000000000000 60 8).toInt = 15 := by
  refine ⟨⟨by decide, ?_⟩, by decide, ?_, ?_⟩
  · refine (((fields_arithmetic 12 (by decide)).1 0x1F8000).2 (by decide) (-8)).2
      ⟨by decide, by decide, ?_⟩
    rw [((fields_arithmetic 12 (by decide)).1 0x1F8000).1]
    decide
  · rw [((fields_arithmetic 60 (by decide)).1 0xF000000000000000).1]
    decide
  · refine (((fields_arithmetic 60 (by decide)).1 0xF000000000000000).2 (by decide) 15).2
      ⟨by decide, by decide, ?_⟩
    rw [((fields_arithmetic 60 (by decide)).1 0xF000000000000000).1]
    decide

end FiveStage
