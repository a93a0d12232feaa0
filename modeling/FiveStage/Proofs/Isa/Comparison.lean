import FiveStage.Isa.Alu

/-!
# What the flags say of two operands

* `FitsSigned` : the integers that a word can hold as a signed number;
* `Word.sign_cases` : a word as a signed number, by its top bit;
* `AluOp.carry_add`, `AluOp.overflow_sub` and their siblings : the flags against exact arithmetic;
* `Cond.Relates` : what a condition says of two operands once they have been subtracted;
* `flags_decide` : the flags of subtractions, additions and logical operations.
-/

namespace FiveStage

/-- A word can hold the integer as a signed number. -/
def FitsSigned (i : Int) : Prop := -(2 ^ 63 : Nat) ≤ i ∧ i < (2 ^ 63 : Nat)

instance (i : Int) : Decidable (FitsSigned i) := inferInstanceAs (Decidable (_ ∧ _))

theorem Word.sign_cases (a : Word) :
    (a.msb = false ∧ a.toInt = a.toNat ∧ a.toNat < 2 ^ 63) ∨
      (a.msb = true ∧ a.toInt = a.toNat - (2 ^ 64 : Nat) ∧ 2 ^ 63 ≤ a.toNat) := by
  have hlt := a.isLt
  rw [BitVec.msb_eq_decide, BitVec.toInt_eq_toNat_cond]
  by_cases h : 2 ^ 63 ≤ a.toNat
  · refine .inr ⟨by simpa using h, ?_, h⟩
    rw [if_neg (by omega)]
  · refine .inl ⟨by simpa using h, ?_, by omega⟩
    rw [if_pos (by omega)]

theorem Word.fitsSigned_toInt (a : Word) : FitsSigned a.toInt := by
  rw [FitsSigned]
  have hlt := a.isLt
  rcases a.sign_cases with ⟨-, hi, h⟩ | ⟨-, hi, h⟩ <;> omega

theorem Word.toInt_neg_iff (a : Word) : a.toInt < 0 ↔ a.msb = true := by
  have hlt := a.isLt
  rcases a.sign_cases with ⟨hm, hi, h⟩ | ⟨hm, hi, h⟩
  · simp only [hm, Bool.false_eq_true, iff_false]
    omega
  · simp only [hm, iff_true]
    omega

/-! ## Flags against exact arithmetic -/

namespace AluOp

variable (op : AluOp) (a b r : Word)

theorem negative_flags : (op.flags a b r).negative = true ↔ r.toInt < 0 :=
  r.toInt_neg_iff.symm

theorem zero_flags : (op.flags a b r).zero = true ↔ r = 0 := beq_iff_eq

theorem carry_add : (add.flags a b (a + b)).carry = true ↔ 2 ^ 64 ≤ a.toNat + b.toNat := by
  have ha := a.isLt
  have hb := b.isLt
  show (a + b).ult a = true ↔ _
  rw [BitVec.ult_iff_lt, BitVec.lt_def, BitVec.toNat_add]
  omega

theorem carry_sub : (sub.flags a b r).carry = true ↔ b.toNat ≤ a.toNat := by
  show b.ule a = true ↔ _
  rw [BitVec.ule_iff_le, BitVec.le_def]

theorem overflow_add :
    (add.flags a b (a + b)).overflow = true ↔ ¬ FitsSigned (a.toInt + b.toInt) := by
  have ha := a.isLt
  have hb := b.isLt
  have hsum := BitVec.toNat_add a b
  show ((a ^^^ (a + b)) &&& (b ^^^ (a + b))).msb = true ↔ _
  rw [BitVec.msb_and, BitVec.msb_xor, BitVec.msb_xor, FitsSigned]
  -- the sum lacks a sign that both addends have
  rcases a.sign_cases with ⟨hm, hi, h⟩ | ⟨hm, hi, h⟩ <;>
    rcases b.sign_cases with ⟨hm', hi', h'⟩ | ⟨hm', hi', h'⟩ <;>
    rcases (a + b).sign_cases with ⟨hm'', -, h''⟩ | ⟨hm'', -, h''⟩ <;>
    simp [hm, hm', hm''] <;> omega

theorem overflow_sub :
    (sub.flags a b (a - b)).overflow = true ↔ ¬ FitsSigned (a.toInt - b.toInt) := by
  have ha := a.isLt
  have hb := b.isLt
  have hdifference := BitVec.toNat_sub a b
  show ((a ^^^ b) &&& (a ^^^ (a - b))).msb = true ↔ _
  rw [BitVec.msb_and, BitVec.msb_xor, BitVec.msb_xor, FitsSigned]
  rcases a.sign_cases with ⟨hm, hi, h⟩ | ⟨hm, hi, h⟩ <;>
    rcases b.sign_cases with ⟨hm', hi', h'⟩ | ⟨hm', hi', h'⟩ <;>
    rcases (a - b).sign_cases with ⟨hm'', -, h''⟩ | ⟨hm'', -, h''⟩ <;>
    simp [hm, hm', hm''] <;> omega

/-- The sign of a wrapped difference is wrong exactly on overflow, so that both together order the
operands. -/
theorem signs_sub : (sub.flags a b (a - b)).negative = (sub.flags a b (a - b)).overflow ↔
    b.toInt ≤ a.toInt := by
  obtain ⟨hage, halt⟩ := a.fitsSigned_toInt
  obtain ⟨hbge, hblt⟩ := b.fitsSigned_toInt
  have hwrap : (a - b).toInt = (a.toInt - b.toInt).bmod (2 ^ 64) := BitVec.toInt_sub
  rw [Int.bmod_def] at hwrap
  rw [Bool.eq_iff_iff, negative_flags, overflow_sub, FitsSigned]
  split at hwrap <;> omega

end AluOp

/-! ## Conditions after a subtraction -/

namespace Cond

/-- What a condition says of two operands once the second has been subtracted from the first. -/
def Relates (a b : Word) : Cond → Prop
  | eq => a = b
  | ne => a ≠ b
  | cs => b.toNat ≤ a.toNat
  | cc => a.toNat < b.toNat
  | mi => (a - b).toInt < 0
  | pl => 0 ≤ (a - b).toInt
  | vs => ¬ FitsSigned (a.toInt - b.toInt)
  | vc => FitsSigned (a.toInt - b.toInt)
  | hi => b.toNat < a.toNat
  | ls => a.toNat ≤ b.toNat
  | ge => b.toInt ≤ a.toInt
  | lt => a.toInt < b.toInt
  | gt => b.toInt < a.toInt
  | le => a.toInt ≤ b.toInt
  | al => True
  | nv => True

theorem holds_sub (a b : Word) (c : Cond) :
    c.holds (AluOp.sub.flags a b (a - b)) = true ↔ c.Relates a b := by
  have hzero : (AluOp.sub.flags a b (a - b)).zero = true ↔ a = b := by
    rw [AluOp.zero_flags, BitVec.sub_eq_iff_eq_add]
    simp
  have hcarry := AluOp.carry_sub a b (a - b)
  have hover := AluOp.overflow_sub a b
  have hneg := AluOp.negative_flags .sub a b (a - b)
  have hsigns := AluOp.signs_sub a b
  generalize AluOp.sub.flags a b (a - b) = f at hzero hcarry hover hneg hsigns ⊢
  have hnat : f.zero = true ↔ a.toNat = b.toNat := hzero.trans BitVec.toNat_inj.symm
  have hint : f.zero = true ↔ a.toInt = b.toInt := hzero.trans BitVec.toInt_inj.symm
  cases c with
  | eq => exact hzero
  | cs => exact hcarry
  | mi => exact hneg
  | vs => exact hover
  | ne | cc | pl | vc => simp [holds, Relates, ← Bool.not_eq_true, hzero, hcarry, hneg, hover]
  | ge | lt => simp [holds, Relates, hsigns]
  | hi | ls =>
    simp only [holds, Relates, Bool.not_eq_true', ← Bool.not_eq_true, Bool.and_eq_true, hcarry,
      hnat]
    omega
  | gt | le =>
    simp only [holds, Relates, Bool.not_eq_true', ← Bool.not_eq_true, Bool.and_eq_true, beq_iff_eq,
      hsigns, hint]
    omega
  | al | nv => simp [holds, Relates]

end Cond

/-! ## Operations that set the flags -/

/-- The operations that work bit by bit. -/
def AluOp.isLogical : AluOp → Bool
  | and | or | xor | orNot => true
  | _ => false

/-- After a subtraction every condition tells how the operands compare, as exact numbers. After an
addition carry and overflow tell whether the exact sum is out of range, unsigned and signed, and the
other two flags describe the wrapped sum. Logical operations clear carry and overflow. -/
theorem flags_decide (a b : Word) (shift : Nat) (cond : Cond) (old : Flags) :
    let run := fun op : AluOp => op.run a b shift true cond old
    (∀ c : Cond, c.holds (run .sub).flags = true ↔ c.Relates a b) ∧
    ((run .sub).holds = true ↔ cond.Relates a b) ∧
    (run .add).value = a + b ∧
    ((run .add).flags.carry = true ↔ 2 ^ 64 ≤ a.toNat + b.toNat) ∧
    ((run .add).flags.overflow = true ↔ ¬ FitsSigned (a.toInt + b.toInt)) ∧
    ((run .add).flags.negative = true ↔ (a + b).toInt < 0) ∧
    ((run .add).flags.zero = true ↔ a + b = 0) ∧
    ∀ op : AluOp, op.isLogical = true →
      (run op).flags.carry = false ∧ (run op).flags.overflow = false := by
  intro run
  have hsub : (run .sub).flags = AluOp.sub.flags a b (a - b) := by
    simp only [run, AluOp.run, if_true, AluOp.apply, Word.difference_eq]
  have hadd : (run .add).flags = AluOp.add.flags a b (a + b) := by
    simp only [run, AluOp.run, if_true, AluOp.apply, Word.sum_eq]
  refine ⟨fun c => ?_, ?_, ?_, ?_, ?_, ?_, ?_, fun op hop => ?_⟩
  · rw [hsub]
    exact c.holds_sub a b
  · show cond.holds (run .sub).flags = true ↔ _
    rw [hsub]
    exact cond.holds_sub a b
  · simp only [run, AluOp.run, if_true, AluOp.apply, Word.sum_eq]
  · rw [hadd]
    exact AluOp.carry_add a b
  · rw [hadd]
    exact AluOp.overflow_add a b
  · rw [hadd]
    exact AluOp.negative_flags .add a b (a + b)
  · rw [hadd]
    exact AluOp.zero_flags .add a b (a + b)
  · cases op with
    | and | or | xor | orNot => exact ⟨rfl, rfl⟩
    | _ => cases hop

end FiveStage
