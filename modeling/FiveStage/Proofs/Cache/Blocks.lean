import FiveStage.Memory.Cache.Geometry
import FiveStage.Proofs.Memory.Bytes

/-!
# Blocks of the address space

* `Geometry.blockNumber` : which block an address lies in;
* `Geometry.sameLine_iff` : two addresses agree in tag and set exactly when they lie in one block;
* `Geometry.within_blockBase_iff`, `Geometry.offset_eq` : a block is a run of bytes from its base
  on, in which an address lies at its offset;
* `Geometry.within_eight_iff` : an aligned doubleword lies in one block.
-/

namespace FiveStage

namespace Geometry

variable (g : Geometry)

/-- The number of the block that holds an address. -/
def blockNumber (a : Word) : Nat := a.toNat / g.blockSize

theorem blockSize_pos : 0 < g.blockSize := Nat.two_pow_pos _

/-- A whole number of blocks fills the address space. -/
theorem blockSize_dvd : g.blockSize ∣ 2 ^ 64 :=
  Nat.pow_dvd_pow 2 (by have := g.bits_le; omega)

theorem eight_dvd_blockSize : 8 ∣ g.blockSize :=
  Nat.pow_dvd_pow 2 g.three_le_blockBits

theorem offset_eq_mod (a : Word) : g.offset a = a.toNat % g.blockSize := by
  have := g.bits_le
  rw [offset, toNat_and_lowMask _ (by omega), blockSize]

theorem offset_lt (a : Word) : g.offset a < g.blockSize := by
  rw [offset_eq_mod]
  exact Nat.mod_lt _ g.blockSize_pos

theorem setIndex_eq (a : Word) : g.setIndex a = g.blockNumber a % g.setCount := by
  have := g.bits_le
  rw [setIndex, toNat_and_lowMask _ (by omega), BitVec.toNat_ushiftRight, Nat.shiftRight_eq_div_pow]
  rfl

theorem toNat_tag (a : Word) : (g.tag a).toNat = g.blockNumber a / g.setCount := by
  rw [tag, BitVec.toNat_ushiftRight, Nat.shiftRight_eq_div_pow, Nat.pow_add,
    ← Nat.div_div_eq_div_mul]
  rfl

/-- Tag and set tell blocks apart. -/
theorem sameLine_iff (x y : Word) :
    g.index x = g.index y ∧ g.tag x = g.tag y ↔ g.blockNumber x = g.blockNumber y := by
  constructor
  · rintro ⟨hi, ht⟩
    have hi : g.setIndex x = g.setIndex y := Fin.mk.inj hi
    have ht := congrArg BitVec.toNat ht
    rw [setIndex_eq, setIndex_eq] at hi
    rw [toNat_tag, toNat_tag] at ht
    rw [← Nat.div_add_mod (g.blockNumber x) g.setCount, hi, ht, Nat.div_add_mod]
  · intro h
    refine ⟨Fin.ext ?_, BitVec.eq_of_toNat_eq ?_⟩
    · change g.setIndex x = g.setIndex y
      rw [setIndex_eq, setIndex_eq, h]
    · rw [toNat_tag, toNat_tag, h]

/-! ## Where a block starts -/

theorem blockBase_eq_shift (a : Word) :
    g.blockBase a = (a >>> g.blockBits) <<< g.blockBits := by
  have := g.bits_le
  apply BitVec.eq_of_getLsbD_eq
  intro i hi
  rw [blockBase, highMask_eq, lowMask_eq, Nat.min_eq_left (by omega)]
  simp only [BitVec.getLsbD_and, BitVec.getLsbD_not, BitVec.getLsbD_ofNat, BitVec.getLsbD_shiftLeft,
    BitVec.getLsbD_ushiftRight, Nat.testBit_two_pow_sub_one, hi, decide_true, Bool.true_and]
  by_cases h : i < g.blockBits
  · simp [h]
  · rw [Nat.add_sub_cancel' (Nat.le_of_not_lt h)]
    simp [h]

theorem toNat_blockBase (a : Word) : (g.blockBase a).toNat = g.blockNumber a * g.blockSize := by
  have hle : a.toNat / 2 ^ g.blockBits * 2 ^ g.blockBits ≤ a.toNat := Nat.div_mul_le_self _ _
  rw [blockBase_eq_shift, BitVec.toNat_shiftLeft, BitVec.toNat_ushiftRight, Nat.shiftLeft_eq,
    Nat.shiftRight_eq_div_pow, Nat.mod_eq_of_lt (Nat.lt_of_le_of_lt hle a.isLt)]
  rfl

theorem toNat_eq (a : Word) : a.toNat = (g.blockBase a).toNat + g.offset a := by
  rw [toNat_blockBase, offset_eq_mod, blockNumber, Nat.mul_comm, Nat.div_add_mod]

theorem blockBase_add_le (a : Word) : (g.blockBase a).toNat + g.blockSize ≤ 2 ^ 64 := by
  obtain ⟨n, hn⟩ := g.blockSize_dvd
  have ha := a.isLt
  rw [hn, Nat.mul_comm] at ha
  have hlt : g.blockNumber a < n := (Nat.div_lt_iff_lt_mul g.blockSize_pos).2 ha
  rw [toNat_blockBase, hn, ← Nat.succ_mul, Nat.mul_comm g.blockSize]
  exact Nat.mul_le_mul_right _ hlt

theorem blockBase_eq_iff (x y : Word) :
    g.blockBase x = g.blockBase y ↔ g.blockNumber x = g.blockNumber y := by
  constructor
  · intro h
    have h := congrArg BitVec.toNat h
    rw [toNat_blockBase, toNat_blockBase] at h
    exact Nat.eq_of_mul_eq_mul_right g.blockSize_pos h
  · intro h
    apply BitVec.eq_of_toNat_eq
    rw [toNat_blockBase, toNat_blockBase, h]

/-- A block is the run of bytes from its base on. -/
theorem within_blockBase_iff (a x : Word) :
    Word.Within (g.blockBase a) g.blockSize x ↔ g.blockNumber x = g.blockNumber a := by
  rw [Word.within_iff (g.blockBase_add_le a), toNat_blockBase]
  constructor
  · rintro ⟨h1, h2⟩
    exact Nat.div_eq_of_lt_le h1 (by rw [Nat.succ_mul]; exact h2)
  · intro h
    have := g.toNat_eq x
    have hlt := g.offset_lt x
    rw [toNat_blockBase, h] at this
    omega

/-- An address lies in its block at its offset. -/
theorem offset_eq (a x : Word) (h : g.blockNumber x = g.blockNumber a) :
    (x - g.blockBase a).toNat = g.offset x := by
  have hx := g.toNat_eq x
  rw [Word.toNat_sub_of_within (g.blockBase_add_le a) ((g.within_blockBase_iff a x).2 h),
    (g.blockBase_eq_iff a x).2 h.symm]
  omega

/-- Tag and set stand side by side in the address of a block, if they leave room for its bytes. -/
theorem toNat_blockAddress {tag : Word} {i : Nat} (hi : i < g.setCount)
    (hfit : (tag.toNat * g.setCount + i) * g.blockSize < 2 ^ 64) :
    (g.blockAddress tag i).toNat = (tag.toNat * g.setCount + i) * g.blockSize := by
  have hset : i < 2 ^ g.indexBits := hi
  have hi64 : i < 2 ^ 64 :=
    Nat.lt_of_lt_of_le hset (Nat.pow_le_pow_right (by decide) (by have := g.bits_le; omega))
  -- neither part of the address loses bits at the top
  have hlow : i <<< g.blockBits < 2 ^ 64 := by
    rw [Nat.shiftLeft_eq]
    exact Nat.lt_of_le_of_lt (Nat.mul_le_mul_right _ (Nat.le_add_left _ _)) hfit
  have hhigh : tag.toNat <<< (g.blockBits + g.indexBits) < 2 ^ 64 := by
    rw [Nat.shiftLeft_eq, Nat.add_comm, Nat.pow_add, ← Nat.mul_assoc]
    exact Nat.lt_of_le_of_lt (Nat.mul_le_mul_right _ (Nat.le_add_right _ _)) hfit
  rw [blockAddress, BitVec.toNat_or, BitVec.toNat_shiftLeft, BitVec.toNat_shiftLeft,
    BitVec.toNat_ofNat, Nat.mod_eq_of_lt hhigh, Nat.mod_eq_of_lt hi64, Nat.mod_eq_of_lt hlow,
    Nat.add_comm g.blockBits, Nat.shiftLeft_add, ← Nat.shiftLeft_or_distrib,
    ← Nat.shiftLeft_add_eq_or_of_lt hset, Nat.shiftLeft_eq, Nat.shiftLeft_eq]
  rfl

/-- The address of a block is built from its tag and its set. -/
theorem blockAddress_eq (a : Word) : g.blockAddress (g.tag a) (g.index a) = g.blockBase a := by
  have hnum : (g.tag a).toNat * g.setCount + g.setIndex a = g.blockNumber a := by
    rw [toNat_tag, setIndex_eq, Nat.mul_comm, Nat.div_add_mod]
  have hfit : g.blockNumber a * g.blockSize < 2 ^ 64 :=
    Nat.lt_of_le_of_lt (Nat.div_mul_le_self a.toNat g.blockSize) a.isLt
  apply BitVec.eq_of_toNat_eq
  rw [index, toNat_blockAddress g (g.setIndex_lt a) (hnum ▸ hfit), hnum, toNat_blockBase]

/-! ## Aligned doublewords -/

theorem offset_mod_eight {a : Word} (ha : a.toNat % 8 = 0) : g.offset a % 8 = 0 := by
  rw [offset_eq_mod, Nat.mod_mod_of_dvd _ g.eight_dvd_blockSize, ha]

theorem wordOffset_eq {a : Word} (ha : a.toNat % 8 = 0) : g.wordOffset a = g.offset a := by
  have h8 := g.offset_mod_eight ha
  have hlt := g.offset_lt a
  obtain ⟨n, hn⟩ := g.eight_dvd_blockSize
  rw [wordOffset]
  omega

/-- An aligned doubleword is eight consecutive places of one block. -/
theorem within_eight_iff {a : Word} (ha : a.toNat % 8 = 0) (x : Word) :
    Word.Within a 8 x ↔ g.blockNumber x = g.blockNumber a ∧
      g.offset a ≤ g.offset x ∧ g.offset x < g.offset a + 8 := by
  have hfit : a.toNat + 8 ≤ 2 ^ 64 := by have := a.isLt; omega
  have hx := g.toNat_eq x
  have hax := g.toNat_eq a
  have h8 := g.offset_mod_eight ha
  have hlt := g.offset_lt a
  have hltx := g.offset_lt x
  obtain ⟨n, hn⟩ := g.eight_dvd_blockSize
  rw [Word.within_iff hfit, ← g.within_blockBase_iff, Word.within_iff (g.blockBase_add_le a)]
  constructor
  · rintro ⟨h1, h2⟩
    have hin : g.blockNumber x = g.blockNumber a := by
      rw [← g.within_blockBase_iff, Word.within_iff (g.blockBase_add_le a)]
      omega
    rw [(g.blockBase_eq_iff x a).2 hin] at hx
    omega
  · rintro ⟨⟨h1, h2⟩, h3, h4⟩
    have hin : g.blockNumber x = g.blockNumber a := by
      rw [← g.within_blockBase_iff, Word.within_iff (g.blockBase_add_le a)]
      omega
    rw [(g.blockBase_eq_iff x a).2 hin] at hx
    omega

theorem sub_eq_of_within_eight {a x : Word} (ha : a.toNat % 8 = 0) (h : Word.Within a 8 x) :
    (x - a).toNat = g.offset x - g.offset a := by
  have hx := g.toNat_eq x
  have hax := g.toNat_eq a
  rw [Word.toNat_sub_of_within (by have := a.isLt; omega) h, hx, hax,
    (g.blockBase_eq_iff x a).2 ((g.within_eight_iff ha x).1 h).1]
  omega

end Geometry

end FiveStage
