import FiveStage.Proofs.Cache.Blocks
import FiveStage.Proofs.Cache.Validation

/-!
# How addresses split

* `Geometry.SplitsAddresses` : tag, set and offset of an address, and the address of a block, undo
  each other;
* `Geometry.blockNumber_blockAddress` : the block of an address that is built from a tag and a set;
* `GeometryRequest.addresses_split` : so it is in every cache that can be built.
-/

namespace FiveStage

namespace Geometry

/-- With blocks of `2 ^ n` bytes in `2 ^ k` sets, an address splits into tag, set and offset without
loss, and every tag and set that fit into an address are those of a block. -/
structure SplitsAddresses (g : Geometry) (n k : Nat) : Prop where
  /-- The address of a block is that of any of its bytes, with the low bits cleared. -/
  cleared : ∀ x i,
    (g.blockAddress (g.tag x) (g.setIndex x)).getLsbD i = (decide (n ≤ i) && x.getLsbD i)
  whole : ∀ x, (g.blockAddress (g.tag x) (g.setIndex x)).toNat + g.offset x = x.toNat
  sameBlock : ∀ x y,
    g.tag x = g.tag y ∧ g.setIndex x = g.setIndex y ↔ x.toNat / 2 ^ n = y.toNat / 2 ^ n
  back : ∀ (tag : Word) (i : Nat), tag.toNat < 2 ^ (64 - n - k) → i < 2 ^ k →
    g.tag (g.blockAddress tag i) = tag ∧ g.setIndex (g.blockAddress tag i) = i ∧
      g.offset (g.blockAddress tag i) = 0

variable (g : Geometry)

theorem getLsbD_blockBase (x : Word) (i : Nat) :
    (g.blockBase x).getLsbD i = (decide (g.blockBits ≤ i) && x.getLsbD i) := by
  rw [blockBase_eq_shift, BitVec.getLsbD_shiftLeft, BitVec.getLsbD_ushiftRight]
  by_cases hi : i < 64
  · by_cases hlow : i < g.blockBits
    · simp [hlow, Nat.not_le.2 hlow]
    · rw [Nat.add_sub_cancel' (Nat.le_of_not_lt hlow)]
      simp [hi, hlow, Nat.le_of_not_lt hlow]
  · rw [BitVec.getLsbD_of_ge x i (Nat.le_of_not_lt hi), Bool.and_false]
    simp [hi]

/-- A tag and a set that fit into an address are put side by side in it. -/
theorem toNat_blockAddress_of_lt {tag : Word} {i : Nat}
    (htag : tag.toNat < 2 ^ (64 - g.blockBits - g.indexBits)) (hi : i < g.setCount) :
    (g.blockAddress tag i).toNat = (tag.toNat * g.setCount + i) * g.blockSize := by
  refine g.toNat_blockAddress hi ?_
  have hbits : 64 - g.blockBits - g.indexBits + g.indexBits + g.blockBits = 64 := by
    have := g.bits_le
    omega
  have hnumber : tag.toNat * g.setCount + i < 2 ^ (64 - g.blockBits - g.indexBits) * g.setCount :=
    calc tag.toNat * g.setCount + i
      _ < (tag.toNat + 1) * g.setCount := by rw [Nat.succ_mul]; omega
      _ ≤ 2 ^ (64 - g.blockBits - g.indexBits) * g.setCount := Nat.mul_le_mul_right _ htag
  calc (tag.toNat * g.setCount + i) * g.blockSize
    _ < 2 ^ (64 - g.blockBits - g.indexBits) * g.setCount * g.blockSize :=
      Nat.mul_lt_mul_of_pos_right hnumber g.blockSize_pos
    _ = 2 ^ 64 := by rw [setCount, blockSize, ← Nat.pow_add, ← Nat.pow_add, hbits]

theorem blockNumber_blockAddress {tag : Word} {i : Nat}
    (htag : tag.toNat < 2 ^ (64 - g.blockBits - g.indexBits)) (hi : i < g.setCount) :
    g.blockNumber (g.blockAddress tag i) = tag.toNat * g.setCount + i := by
  rw [blockNumber, g.toNat_blockAddress_of_lt htag hi, Nat.mul_div_cancel _ g.blockSize_pos]

theorem splitsAddresses : g.SplitsAddresses g.blockBits g.indexBits where
  cleared x i := by
    have hbase : g.blockAddress (g.tag x) (g.setIndex x) = g.blockBase x := g.blockAddress_eq x
    rw [hbase, getLsbD_blockBase]
  whole x := by
    have hbase : g.blockAddress (g.tag x) (g.setIndex x) = g.blockBase x := g.blockAddress_eq x
    rw [hbase, ← g.toNat_eq x]
  sameBlock x y := by
    have hline := g.sameLine_iff x y
    rw [index, index, Fin.mk.injEq] at hline
    rw [and_comm, hline]
    rfl
  back tag i htag hi := by
    replace hi : i < g.setCount := hi
    have hnumber := g.blockNumber_blockAddress htag hi
    refine ⟨BitVec.eq_of_toNat_eq ?_, ?_, ?_⟩
    · rw [toNat_tag, hnumber, Nat.mul_comm, Nat.mul_add_div g.setCount_pos, Nat.div_eq_of_lt hi,
        Nat.add_zero]
    · rw [setIndex_eq, hnumber, Nat.mul_comm, Nat.mul_add_mod, Nat.mod_eq_of_lt hi]
    · rw [offset_eq_mod, g.toNat_blockAddress_of_lt htag hi, Nat.mul_mod_left]

end Geometry

namespace GeometryRequest

variable {r : GeometryRequest} {g : Geometry}

/-- In every cache that is built for a request, tag and set give back an address up to its place in
its block, which the offset adds; they are shared exactly by the addresses of one block; and every
tag and set that fit into an address are found in the address that is built from them. -/
theorem addresses_split (h : r.check = .ok g) :
    ∃ n k, r.blockSize.toNat = 2 ^ n ∧ r.SetsCover k ∧ g.SplitsAddresses n k := by
  have hnames := names_of_check h
  obtain ⟨⟨-, n, hn⟩, -, -, k, hk⟩ := check_ok_iff.1 ⟨g, h⟩
  have hblock : g.blockBits = n := (Nat.pow_right_inj (by decide)).1 (hnames.blockSize.trans hn)
  have hindex : g.indexBits = k := (Nat.pow_right_inj (by decide)).1 (hnames.setCount k hk)
  exact ⟨n, k, hn, hk, hblock ▸ hindex ▸ g.splitsAddresses⟩

/-- Blocks of 8 bytes in a single set: a set takes no bits, and all but three go to the tag. -/
theorem addresses_split_oneSet : ∃ g, (GeometryRequest.mk 1 8 8 0).check = .ok g ∧
    (∀ x i, (g.blockAddress (g.tag x) (g.setIndex x)).getLsbD i = (decide (3 ≤ i) && x.getLsbD i)) ∧
    g.tag (g.blockAddress 0x1FFFFFFFFFFFFFFF 0) = 0x1FFFFFFFFFFFFFFF := by
  obtain ⟨g, hg⟩ := (check_ok_iff (r := ⟨1, 8, 8, 0⟩)).2
    ⟨⟨by decide, 3, rfl⟩, by decide, by decide, 0, rfl⟩
  obtain ⟨n, k, hn, hk, hsplit⟩ := addresses_split hg
  obtain rfl : n = 3 := (Nat.pow_right_inj (by decide : 1 < 2)).1 (hn.symm.trans rfl)
  have hsets : 2 ^ k = 1 := by
    have h : 8 = 1 * 8 * 2 ^ k := hk
    omega
  obtain rfl : k = 0 := (Nat.pow_right_inj (by decide : 1 < 2)).1 (hsets.trans rfl)
  exact ⟨g, hg, hsplit.cleared, (hsplit.back 0x1FFFFFFFFFFFFFFF 0 (by decide) (by decide)).1⟩

end GeometryRequest

end FiveStage
