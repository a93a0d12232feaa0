/-!
# Words and bit fields

* `Byte`, `Word`, `InstrWord` : the three widths the machine knows;
* `Byte.ofNat`, `Word.ofNat`, `Word.sum`, `Word.difference` : arithmetic over moduli that are worked
  out once, for whatever happens in every cycle;
* `lowMask k`, `highMask k` : the `k` low bits set, and all others;
* `Word.field w start width` : an unsigned field; `Word.signedField` : the same field read as a
  two's-complement number; `InstrWord.field`, `InstrWord.signedField` : fields of an instruction;
* `Word.isPowerOfTwo`, `Word.floorLog2` : the tests a cache geometry is built on;
* `Word.mul?`, `Word.div?` : arithmetic that says when it has no answer.
-/

namespace FiveStage

/-- A power of natural numbers is the one of the core library, whatever else a module imports. -/
@[default_instance high]
instance (priority := 1100) powNat : Pow Nat Nat := instPowNat

/-- One byte of memory. -/
abbrev Byte := BitVec 8

/-- A register, an address, or a doubleword of memory. -/
abbrev Word := BitVec 64

/-- An encoded instruction. -/
abbrev InstrWord := BitVec 32

/-- The byte that a number stands for. -/
def Byte.ofNat (n : Nat) : Byte := BitVec.ofNatLT (n % 256) (Nat.mod_lt _ (by decide))

@[simp] theorem Byte.ofNat_eq (n : Nat) : Byte.ofNat n = BitVec.ofNat 8 n := rfl

namespace Word

/-- The word that a number stands for. -/
def ofNat (n : Nat) : Word :=
  BitVec.ofNatLT (n % 18446744073709551616) (Nat.mod_lt _ (by decide))

@[simp] theorem ofNat_eq (n : Nat) : ofNat n = BitVec.ofNat 64 n := rfl

/-- The sum of two words. -/
def sum (a b : Word) : Word := ofNat (a.toNat + b.toNat)

@[simp] theorem sum_eq (a b : Word) : sum a b = a + b := rfl

/-- The difference of two words. -/
def difference (a b : Word) : Word :=
  if b.toNat ≤ a.toNat then ofNat (a.toNat - b.toNat)
  else ofNat (18446744073709551616 - (b.toNat - a.toNat))

@[simp] theorem difference_eq (a b : Word) : difference a b = a - b := by
  apply BitVec.eq_of_toNat_eq
  have ha := a.isLt
  have hb := b.isLt
  rw [BitVec.toNat_sub, difference]
  split <;> rw [ofNat_eq, BitVec.toNat_ofNat] <;> omega

end Word

/-- The masks of up to 64 bits. -/
private def masks : Vector Word 65 := Vector.ofFn fun k => BitVec.ofNat 64 (2 ^ k.val - 1)

/-- The word whose `k` low bits are set, all of them from 64 on. -/
def lowMask (k : Nat) : Word := masks[min k 64]

/-- The words whose `k` low bits are clear. -/
private def highMasks : Vector Word 65 := Vector.ofFn fun k => ~~~ lowMask k

/-- The word whose `k` low bits are clear, all of them from 64 on. -/
def highMask (k : Nat) : Word := highMasks[min k 64]

theorem lowMask_eq (k : Nat) : lowMask k = BitVec.ofNat 64 (2 ^ min k 64 - 1) := by
  simp [lowMask, masks]

@[simp] theorem highMask_eq (k : Nat) : highMask k = ~~~ lowMask k := by
  simp [highMask, highMasks, lowMask_eq]

namespace Word

/-- The `width` bits of `w` from bit `start` on, as an unsigned number. -/
def field (w : Word) (start width : Nat) : Word := (w >>> start) &&& lowMask width

/-- The same field with its top bit as sign. A field of no bits is zero. -/
def signedField (w : Word) (start width : Nat) : Word :=
  let low := w.field start width
  if low.getLsbD (min width 64 - 1) then low ||| highMask width else low

/-- Exactly one bit is set. -/
def isPowerOfTwo (w : Word) : Bool := w != 0 && (w &&& (w - 1)) == 0

/-- The position of the highest set bit, and zero for zero. -/
def floorLog2 (w : Word) : Nat := w.toNat.log2

/-- The product, if a word can hold it. -/
def mul? (a b : Word) : Option Word :=
  if a.toNat * b.toNat < 2 ^ 64 then some (a * b) else none

/-- The quotient, if the divisor is not zero. -/
def div? (a b : Word) : Option Word :=
  if b = 0 then none else some (a / b)

end Word

namespace InstrWord

/-- An unsigned field of an instruction. -/
def field (w : InstrWord) (start width : Nat) : Word := Word.field (w.setWidth 64) start width

/-- A signed field of an instruction, sign-extended to a word. -/
def signedField (w : InstrWord) (start width : Nat) : Word :=
  Word.signedField (w.setWidth 64) start width

end InstrWord

/-! ## Fields as arithmetic -/

theorem toNat_lowMask (k : Nat) : (lowMask k).toNat = 2 ^ min k 64 - 1 := by
  have : 2 ^ min k 64 ≤ 2 ^ 64 := Nat.pow_le_pow_right (by decide) (Nat.min_le_right ..)
  rw [lowMask_eq, BitVec.toNat_ofNat, Nat.mod_eq_of_lt (by omega)]

theorem Word.toNat_field (w : Word) (start width : Nat) :
    (w.field start width).toNat = w.toNat / 2 ^ start % 2 ^ min width 64 := by
  rw [field, BitVec.toNat_and, toNat_lowMask, Nat.and_two_pow_sub_one_eq_mod,
    BitVec.toNat_ushiftRight, Nat.shiftRight_eq_div_pow]

theorem InstrWord.toNat_field (w : InstrWord) (start width : Nat) :
    (w.field start width).toNat = w.toNat / 2 ^ start % 2 ^ min width 64 := by
  have : w.toNat < 2 ^ 64 := Nat.lt_of_lt_of_le w.isLt (by decide)
  rw [InstrWord.field, Word.toNat_field, BitVec.toNat_setWidth, Nat.mod_eq_of_lt this]

/-! ## Powers of two -/

theorem Word.toNat_eq_of_isPowerOfTwo {w : Word} (h : w.isPowerOfTwo = true) :
    w.toNat = 2 ^ w.floorLog2 := by
  simp only [isPowerOfTwo, Bool.and_eq_true, bne_iff_ne, beq_iff_eq] at h
  obtain ⟨h0, hand⟩ := h
  have hne : w.toNat ≠ 0 := fun e => h0 (BitVec.eq_of_toNat_eq (by simpa using e))
  have hlo : 2 ^ w.toNat.log2 ≤ w.toNat := Nat.log2_self_le hne
  have hhi : w.toNat < 2 ^ (w.toNat.log2 + 1) := Nat.lt_log2_self
  have hpred : (w - 1).toNat = w.toNat - 1 := by
    rw [BitVec.toNat_sub]
    have := w.isLt
    have h1 : (1 : Word).toNat = 1 := rfl
    omega
  rw [floorLog2]
  false_or_by_contra
  rename_i hgt
  have hlog : (w.toNat - 1).log2 = w.toNat.log2 := by
    rw [Nat.log2_eq_iff (by have := Nat.two_pow_pos w.toNat.log2; omega)]
    omega
  have hbit : (w &&& (w - 1)).toNat.testBit w.toNat.log2 = true := by
    rw [BitVec.toNat_and, hpred, Nat.testBit_and, Nat.testBit_log2 hne, Bool.true_and, ← hlog]
    exact Nat.testBit_log2 (by have := Nat.two_pow_pos w.toNat.log2; omega)
  rw [hand] at hbit
  simp at hbit

end FiveStage
