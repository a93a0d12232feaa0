import FiveStage.Text.Numeral

/-!
# Cache geometries

* `Geometry` : ways, block size and number of sets of a cache that can be built, and how long a
  miss takes;
* `GeometryRequest` : the four numbers a user gives, `GeometryRequest.check` : the geometry they
  describe, or the first of the `GeometryError`s that applies;
* `Geometry.offset`, `Geometry.index`, `Geometry.tag`, `Geometry.blockAddress` : how an address
  splits, and the address of a block.
-/

namespace FiveStage

/-- The largest capacity of a cache, in bytes. -/
def maxCapacity : Nat := 2 ^ 30

/-- A cache of `2 ^ indexBits` sets of `ways` blocks, each of `2 ^ blockBits` bytes. -/
structure Geometry where
  ways : Nat
  blockBits : Nat
  indexBits : Nat
  /-- Extra cycles a miss keeps the memory stage busy. -/
  latency : Nat
  ways_pos : 0 < ways
  three_le_blockBits : 3 ≤ blockBits
  capacity_le : ways * 2 ^ (blockBits + indexBits) ≤ maxCapacity
  deriving DecidableEq, Repr

/-- The numbers that describe a cache: ways, bytes in a block, bytes in all, cycles of a miss. -/
structure GeometryRequest where
  ways : Word
  blockSize : Word
  capacity : Word
  latency : Word
  deriving DecidableEq, Repr

/-- Why no cache can be built. -/
inductive GeometryError where
  | incomplete
  | badBlockSize (size : Word)
  | noWays
  | badSetCount (sets : Word)
  | tooLarge (capacity : Word)
  deriving DecidableEq, Repr

/-- The text of a refusal. -/
def GeometryError.message : GeometryError → String
  | incomplete => "cache parameters must be given all together or not at all"
  | badBlockSize b =>
    "block size " ++ decimal b.toNat ++ " must be at least 8 and a power of 2"
  | noWays => "associativity must be at least 1"
  | badSetCount s => "the number of sets (" ++ decimal s.toNat ++ ") must be a power of 2"
  | tooLarge c => "capacity " ++ decimal c.toNat ++ " exceeds the largest supported cache"

/-! ## Checking a request -/

namespace GeometryRequest

/-- The number of sets, zero when one set is larger than the whole cache or than a word can say. -/
def setCount (r : GeometryRequest) : Word :=
  ((r.ways.mul? r.blockSize).bind fun setBytes => r.capacity.div? setBytes).getD 0

/-- The bytes that whole sets cover, if a word can say it. -/
def covered (r : GeometryRequest) : Option Word :=
  (r.setCount.mul? r.ways).bind fun lines => lines.mul? r.blockSize

/-- Whole sets cover the capacity, and their number is a power of two. -/
def setsFit (r : GeometryRequest) : Bool :=
  r.covered == some r.capacity && r.setCount.isPowerOfTwo

theorem capacity_eq {r : GeometryRequest} (h : r.setsFit = true) :
    r.capacity.toNat = r.setCount.toNat * r.ways.toNat * r.blockSize.toNat := by
  simp only [setsFit, Bool.and_eq_true, beq_iff_eq] at h
  obtain ⟨h, -⟩ := h
  simp only [covered, Word.mul?] at h
  split at h
  · rename_i h1
    simp only [Option.bind_some] at h
    split at h
    · rename_i h2
      have := congrArg BitVec.toNat (Option.some.inj h)
      rw [BitVec.toNat_mul, BitVec.toNat_mul, Nat.mod_eq_of_lt h1] at this
      rw [BitVec.toNat_mul, Nat.mod_eq_of_lt h1] at h2
      rw [← this, Nat.mod_eq_of_lt h2]
    · cases h
  · cases h

theorem three_le_floorLog2 {r : GeometryRequest} (h : r.blockSize.isPowerOfTwo = true)
    (h8 : ¬ r.blockSize.toNat < 8) : 3 ≤ r.blockSize.floorLog2 := by
  rw [Word.toNat_eq_of_isPowerOfTwo h] at h8
  false_or_by_contra
  have : 2 ^ r.blockSize.floorLog2 < 2 ^ 3 := Nat.pow_lt_pow_right (by decide) (by omega)
  omega

theorem ways_mul_le {r : GeometryRequest} (hb : r.blockSize.isPowerOfTwo = true)
    (hc : ¬ maxCapacity < r.capacity.toNat) (hs : r.setsFit = true) :
    r.ways.toNat * 2 ^ (r.blockSize.floorLog2 + r.setCount.floorLog2) ≤ maxCapacity := by
  have hcap := capacity_eq hs
  simp only [setsFit, Bool.and_eq_true] at hs
  rw [Nat.pow_add, ← Word.toNat_eq_of_isPowerOfTwo hb, ← Word.toNat_eq_of_isPowerOfTwo hs.2]
  have : r.ways.toNat * (r.blockSize.toNat * r.setCount.toNat) = r.capacity.toNat := by
    rw [hcap, Nat.mul_comm r.setCount.toNat, Nat.mul_assoc, Nat.mul_comm r.setCount.toNat]
  omega

/-- The geometry that a request describes. Block size, associativity, capacity and the number of
sets are judged in this order. -/
def check (r : GeometryRequest) : Except GeometryError Geometry :=
  if hb : r.blockSize.toNat < 8 ∨ r.blockSize.isPowerOfTwo = false then
    .error (.badBlockSize r.blockSize)
  else if hw : r.ways.toNat = 0 then .error .noWays
  else if hc : maxCapacity < r.capacity.toNat then .error (.tooLarge r.capacity)
  else if hs : r.setsFit = true then
    have hp : r.blockSize.isPowerOfTwo = true := by simpa using fun h => hb (Or.inr h)
    .ok
      { ways := r.ways.toNat
        blockBits := r.blockSize.floorLog2
        indexBits := r.setCount.floorLog2
        latency := r.latency.toNat
        ways_pos := Nat.pos_of_ne_zero hw
        three_le_blockBits := three_le_floorLog2 hp fun h => hb (Or.inl h)
        capacity_le := ways_mul_le hp hc hs }
  else .error (.badSetCount r.setCount)

end GeometryRequest

/-- The cache that four optional numbers ask for: none of them means no cache. -/
def Geometry.ofParts (ways blockSize capacity latency : Option Word) :
    Except GeometryError (Option Geometry) :=
  match ways, blockSize, capacity, latency with
  | none, none, none, none => .ok none
  | some a, some b, some c, some d => (GeometryRequest.mk a b c d).check.map some
  | _, _, _, _ => .error .incomplete

/-! ## Addresses -/

namespace Geometry

/-- Bytes in a block. -/
def blockSize (g : Geometry) : Nat := 2 ^ g.blockBits

/-- The number of sets. -/
def setCount (g : Geometry) : Nat := 2 ^ g.indexBits

/-- Bytes in the whole cache. -/
def capacity (g : Geometry) : Nat := g.ways * 2 ^ (g.blockBits + g.indexBits)

theorem eight_le_blockSize (g : Geometry) : 8 ≤ g.blockSize :=
  Nat.pow_le_pow_right (n := 2) (by decide) g.three_le_blockBits

theorem setCount_pos (g : Geometry) : 0 < g.setCount := Nat.two_pow_pos _

theorem bits_le (g : Geometry) : g.blockBits + g.indexBits ≤ 30 := by
  have h : 2 ^ (g.blockBits + g.indexBits) ≤ 2 ^ 30 :=
    Nat.le_trans (Nat.le_mul_of_pos_left _ g.ways_pos) g.capacity_le
  exact (Nat.pow_le_pow_iff_right (by decide)).1 h

/-- The place of an address within its block: the low bits. -/
def offset (g : Geometry) (a : Word) : Nat := (a &&& lowMask g.blockBits).toNat

/-- The set an address belongs to: the bits above the offset. -/
def setIndex (g : Geometry) (a : Word) : Nat :=
  ((a >>> g.blockBits) &&& lowMask g.indexBits).toNat

/-- What tells the blocks of one set apart: the bits above the index. -/
def tag (g : Geometry) (a : Word) : Word := a >>> (g.blockBits + g.indexBits)

/-- The address of the block with a given tag in a given set. -/
def blockAddress (g : Geometry) (tag : Word) (index : Nat) : Word :=
  (tag <<< (g.blockBits + g.indexBits)) ||| (BitVec.ofNat 64 index <<< g.blockBits)

/-- The first address of the block that holds an address. -/
def blockBase (g : Geometry) (a : Word) : Word := a &&& highMask g.blockBits

/-- The place in its block of the aligned doubleword that holds an address. -/
def wordOffset (g : Geometry) (a : Word) : Nat := min (g.offset a / 8 * 8) (g.blockSize - 8)

theorem toNat_and_lowMask (a : Word) {k : Nat} (hk : k ≤ 64) :
    (a &&& lowMask k).toNat = a.toNat % 2 ^ k := by
  rw [BitVec.toNat_and, toNat_lowMask, Nat.min_eq_left hk, Nat.and_two_pow_sub_one_eq_mod]

theorem setIndex_lt (g : Geometry) (a : Word) : g.setIndex a < g.setCount := by
  have := g.bits_le
  rw [setIndex, toNat_and_lowMask _ (by omega)]
  exact Nat.mod_lt _ (Nat.two_pow_pos _)

theorem wordOffset_le (g : Geometry) (a : Word) : g.wordOffset a + 8 ≤ g.blockSize := by
  have := g.eight_le_blockSize
  rw [wordOffset]
  omega

/-- The set an address belongs to, as a position among the sets. -/
def index (g : Geometry) (a : Word) : Fin g.setCount := ⟨g.setIndex a, g.setIndex_lt a⟩

end Geometry

end FiveStage
