import FiveStage.Memory.Cache.Basic

/-!
# Which caches can be built

* `Word.isPowerOfTwo_iff`, `GeometryRequest.toNat_setCount` : the tests of a request, on natural
  numbers;
* `GeometryRequest.Fits` : what a request has to say; `GeometryRequest.Refused` : the first thing
  that is wrong with it;
* `GeometryRequest.Fits.check`, `GeometryRequest.Refused.check` : what becomes of either;
* `GeometryRequest.check_exact` : a request is accepted exactly if it fits, and the cache that is
  then built has the sizes that it names, so that every address stays within them.
-/

namespace FiveStage

theorem Word.isPowerOfTwo_iff (w : Word) : w.isPowerOfTwo = true ↔ ∃ k, w.toNat = 2 ^ k := by
  constructor
  · exact fun h => ⟨_, toNat_eq_of_isPowerOfTwo h⟩
  · rintro ⟨k, hk⟩
    have hpos := Nat.two_pow_pos k
    have hlt := w.isLt
    have hone : (1 : Word).toNat = 1 := rfl
    have hne : w ≠ 0 := by
      rintro rfl
      have hzero : (0 : Word).toNat = 0 := rfl
      omega
    have hpred : (w - 1).toNat = 2 ^ k - 1 := by
      rw [BitVec.toNat_sub, hone]
      omega
    -- the bits below the only one of a power of two are those of its predecessor
    have hand : w &&& (w - 1) = 0 := by
      apply BitVec.eq_of_toNat_eq
      rw [BitVec.toNat_and, hpred, Nat.and_two_pow_sub_one_eq_mod, hk, Nat.mod_self]
      rfl
    rw [isPowerOfTwo, hand, bne_iff_ne.2 hne]
    rfl

theorem Word.floorLog2_eq {w : Word} {k : Nat} (h : w.toNat = 2 ^ k) : w.floorLog2 = k := by
  rw [floorLog2, h, Nat.log2_two_pow]

namespace GeometryRequest

variable {r : GeometryRequest}

/-! ## The tests on natural numbers -/

/-- A set that is larger than any word counts as none, and so does it in natural numbers. -/
theorem toNat_setCount (r : GeometryRequest) :
    r.setCount.toNat = r.capacity.toNat / (r.ways.toNat * r.blockSize.toNat) := by
  have hc := r.capacity.isLt
  unfold setCount Word.mul?
  split
  · rename_i hfit
    have hmul : (r.ways * r.blockSize).toNat = r.ways.toNat * r.blockSize.toNat := by
      rw [BitVec.toNat_mul, Nat.mod_eq_of_lt hfit]
    rw [Option.bind_some, Word.div?]
    split
    · rename_i hzero
      rw [← hmul, hzero]
      exact (Nat.div_zero _).symm
    · rw [Option.getD_some, BitVec.toNat_udiv, hmul]
  · rename_i hbig
    rw [Nat.div_eq_of_lt (by omega)]
    rfl

/-- The sets of a request. -/
theorem setsFit_iff (hw : 0 < r.ways.toNat) (hb : 0 < r.blockSize.toNat) : r.setsFit = true ↔
    ∃ k, r.capacity.toNat = r.ways.toNat * r.blockSize.toNat * 2 ^ k := by
  constructor
  · intro h
    have hcap := capacity_eq h
    rw [setsFit, Bool.and_eq_true, Word.isPowerOfTwo_iff] at h
    obtain ⟨k, hk⟩ := h.2
    refine ⟨k, ?_⟩
    rw [hcap, hk, Nat.mul_assoc, Nat.mul_comm]
  · rintro ⟨k, hk⟩
    have hsets : r.setCount.toNat = 2 ^ k := by
      rw [toNat_setCount, hk, Nat.mul_div_cancel_left _ (Nat.mul_pos hw hb)]
    have hcap : r.setCount.toNat * r.ways.toNat * r.blockSize.toNat = r.capacity.toNat := by
      rw [hk, hsets, Nat.mul_assoc, Nat.mul_comm]
    have hfit : r.setCount.toNat * r.ways.toNat * r.blockSize.toNat < 2 ^ 64 := by
      rw [hcap]
      exact r.capacity.isLt
    have hlines : r.setCount.toNat * r.ways.toNat < 2 ^ 64 :=
      Nat.lt_of_le_of_lt (Nat.le_mul_of_pos_right _ hb) hfit
    have hmul : (r.setCount * r.ways).toNat = r.setCount.toNat * r.ways.toNat := by
      rw [BitVec.toNat_mul, Nat.mod_eq_of_lt hlines]
    have hcovered : r.covered = some r.capacity := by
      rw [covered, Word.mul?, if_pos hlines, Option.bind_some, Word.mul?, hmul, if_pos hfit]
      refine congrArg some (BitVec.eq_of_toNat_eq ?_)
      rw [BitVec.toNat_mul, hmul, hcap, Nat.mod_eq_of_lt r.capacity.isLt]
    rw [setsFit, hcovered, (Word.isPowerOfTwo_iff _).2 ⟨k, hsets⟩]
    simp

/-! ## What a request has to say -/

/-- Blocks have at least 8 bytes, and a power of two of them. -/
def BlocksFit (r : GeometryRequest) : Prop :=
  8 ≤ r.blockSize.toNat ∧ ∃ n, r.blockSize.toNat = 2 ^ n

/-- Sets of so many ways cover the capacity, and there is a power of two of them. -/
def SetsCover (r : GeometryRequest) (k : Nat) : Prop :=
  r.capacity.toNat = r.ways.toNat * r.blockSize.toNat * 2 ^ k

/-- A cache of these numbers can be built. -/
structure Fits (r : GeometryRequest) : Prop where
  blocks : r.BlocksFit
  ways : 1 ≤ r.ways.toNat
  capacity : r.capacity.toNat ≤ 2 ^ 30
  sets : ∃ k, r.SetsCover k

/-- The first thing that is wrong with a request. -/
inductive Refused (r : GeometryRequest) : GeometryError → Prop where
  | badBlockSize (h : ¬ r.BlocksFit) : Refused r (.badBlockSize r.blockSize)
  | noWays (hb : r.BlocksFit) (h : r.ways.toNat = 0) : Refused r .noWays
  | tooLarge (hb : r.BlocksFit) (hw : 1 ≤ r.ways.toNat) (h : 2 ^ 30 < r.capacity.toNat) :
    Refused r (.tooLarge r.capacity)
  | badSetCount (hb : r.BlocksFit) (hw : 1 ≤ r.ways.toNat) (hc : r.capacity.toNat ≤ 2 ^ 30)
      (h : ¬ ∃ k, r.SetsCover k) (sets : Word)
      (hsets : sets.toNat = r.capacity.toNat / (r.ways.toNat * r.blockSize.toNat)) :
    Refused r (.badSetCount sets)

theorem blocksFit_iff (r : GeometryRequest) :
    r.BlocksFit ↔ ¬ (r.blockSize.toNat < 8 ∨ r.blockSize.isPowerOfTwo = false) := by
  rw [BlocksFit, ← Word.isPowerOfTwo_iff, not_or, Bool.not_eq_false, Nat.not_lt]

theorem BlocksFit.setsFit_iff (hb : r.BlocksFit) (hw : 1 ≤ r.ways.toNat) :
    r.setsFit = true ↔ ∃ k, r.SetsCover k :=
  GeometryRequest.setsFit_iff hw (Nat.lt_of_lt_of_le (by decide) hb.1)

/-- Nothing is wrong with a request, or something is the first to be. -/
theorem fits_or_refused (r : GeometryRequest) : r.Fits ∨ ∃ e, r.Refused e := by
  by_cases hb : r.BlocksFit
  · by_cases hw : 1 ≤ r.ways.toNat
    · by_cases hc : r.capacity.toNat ≤ 2 ^ 30
      · by_cases hs : ∃ k, r.SetsCover k
        · exact .inl ⟨hb, hw, hc, hs⟩
        · exact .inr ⟨_, .badSetCount hb hw hc hs _ r.toNat_setCount⟩
      · exact .inr ⟨_, .tooLarge hb hw (Nat.lt_of_not_le hc)⟩
    · exact .inr ⟨_, .noWays hb (by omega)⟩
  · exact .inr ⟨_, .badBlockSize hb⟩

/-! ## What becomes of a request -/

/-- A geometry has the sizes that a request names, and as many sets as cover the capacity. -/
structure Names (r : GeometryRequest) (g : Geometry) : Prop where
  ways : g.ways = r.ways.toNat
  blockSize : g.blockSize = r.blockSize.toNat
  latency : g.latency = r.latency.toNat
  setCount : ∀ k, r.SetsCover k → g.setCount = 2 ^ k

theorem SetsCover.toNat_setCount {k : Nat} (h : r.SetsCover k) (hb : r.BlocksFit)
    (hw : 1 ≤ r.ways.toNat) : r.setCount.toNat = 2 ^ k := by
  have hpos : 0 < r.ways.toNat * r.blockSize.toNat :=
    Nat.mul_pos hw (Nat.lt_of_lt_of_le (by decide) hb.1)
  rw [GeometryRequest.toNat_setCount, h, Nat.mul_div_cancel_left _ hpos]

theorem Fits.check (h : r.Fits) : ∃ g, r.check = .ok g ∧ r.Names g := by
  have hb := r.blocksFit_iff.1 h.blocks
  have hw : ¬ r.ways.toNat = 0 := Nat.ne_of_gt h.ways
  have hc : ¬ maxCapacity < r.capacity.toNat := Nat.not_lt.2 h.capacity
  have hs : r.setsFit = true := (h.blocks.setsFit_iff h.ways).2 h.sets
  rw [GeometryRequest.check, dif_neg hb, dif_neg hw, dif_neg hc, dif_pos hs]
  refine ⟨_, rfl, rfl, ?_, rfl, fun k hk => ?_⟩
  · obtain ⟨n, hn⟩ := h.blocks.2
    exact (congrArg (2 ^ ·) (Word.floorLog2_eq hn)).trans hn.symm
  · exact congrArg (2 ^ ·) (Word.floorLog2_eq (hk.toNat_setCount h.blocks h.ways))

theorem Refused.check {e : GeometryError} (h : r.Refused e) : r.check = .error e := by
  cases h with
  | badBlockSize hb =>
    rw [GeometryRequest.check, dif_pos (Decidable.not_not.1 (mt r.blocksFit_iff.2 hb))]
  | noWays hb hw => rw [GeometryRequest.check, dif_neg (r.blocksFit_iff.1 hb), dif_pos hw]
  | tooLarge hb hw hc =>
    rw [GeometryRequest.check, dif_neg (r.blocksFit_iff.1 hb), dif_neg (Nat.ne_of_gt hw),
      dif_pos (show maxCapacity < r.capacity.toNat from hc)]
  | badSetCount hb hw hc hs sets hsets =>
    have hcount : sets = r.setCount := BitVec.eq_of_toNat_eq (hsets.trans r.toNat_setCount.symm)
    rw [GeometryRequest.check, dif_neg (r.blocksFit_iff.1 hb), dif_neg (Nat.ne_of_gt hw),
      dif_neg (show ¬ maxCapacity < r.capacity.toNat from Nat.not_lt.2 hc),
      dif_neg (mt (hb.setsFit_iff hw).1 hs), hcount]

theorem check_ok_iff : (∃ g, r.check = .ok g) ↔ r.Fits := by
  constructor
  · rintro ⟨g, hg⟩
    obtain h | ⟨e, he⟩ := r.fits_or_refused
    · exact h
    · rw [he.check] at hg
      cases hg
  · intro h
    obtain ⟨g, hg, -⟩ := h.check
    exact ⟨g, hg⟩

theorem check_error_iff {e : GeometryError} : r.check = .error e ↔ r.Refused e := by
  refine ⟨fun he => ?_, Refused.check⟩
  obtain h | ⟨e', he'⟩ := r.fits_or_refused
  · obtain ⟨g, hg, -⟩ := h.check
    rw [hg] at he
    cases he
  · rw [he'.check] at he
    obtain rfl := Except.error.inj he
    exact he'

theorem names_of_check {g : Geometry} (h : r.check = .ok g) : r.Names g := by
  obtain ⟨g', hg', hnames⟩ := (check_ok_iff.1 ⟨g, h⟩).check
  rw [h] at hg'
  obtain rfl := Except.ok.inj hg'
  exact hnames

/-- A cache has `2 ^ k` sets of the ways of a request, each with a block of its bytes, and every
address leads into them: to one of the sets, to a doubleword of the block, and by shifts that are
shorter than a word. -/
structure Holds (r : GeometryRequest) (k : Nat) {g : Geometry} (c : Cache g) : Prop where
  sets : c.sets.toArray.size = 2 ^ k
  ways : ∀ i : Fin g.setCount, c.sets[i].toArray.size = r.ways.toNat
  blocks : ∀ i w, (c.line i w).data.toArray.size = r.blockSize.toNat
  index : ∀ a, g.setIndex a < 2 ^ k
  word : ∀ a, g.wordOffset a + 8 ≤ r.blockSize.toNat
  shifts : g.blockBits + g.indexBits ≤ 30

theorem Names.holds {g : Geometry} (h : r.Names g) {k : Nat} (hk : r.SetsCover k) (c : Cache g) :
    r.Holds k c where
  sets := by rw [Vector.size_toArray, h.setCount k hk]
  ways i := by rw [Vector.size_toArray, h.ways]
  blocks i w := by rw [Vector.size_toArray, h.blockSize]
  index a := by
    rw [← h.setCount k hk]
    exact g.setIndex_lt a
  word a := by
    rw [← h.blockSize]
    exact g.wordOffset_le a
  shifts := g.bits_le

/-- A request is accepted exactly if its numbers, as natural numbers, describe a cache; else the
first thing that is wrong with it is said. Every cache that is built for it, from the empty one on,
has the sizes that it names. -/
theorem check_exact (r : GeometryRequest) :
    ((∃ g, r.check = .ok g) ↔
      (∃ n, r.blockSize.toNat = 2 ^ n) ∧ 8 ≤ r.blockSize.toNat ∧ 1 ≤ r.ways.toNat ∧
        r.capacity.toNat ≤ 2 ^ 30 ∧
        ∃ k, r.capacity.toNat = r.ways.toNat * r.blockSize.toNat * 2 ^ k) ∧
    (∀ e, r.check = .error e ↔ r.Refused e) ∧
    ∀ g, r.check = .ok g → ∃ k, r.SetsCover k ∧ ∀ c : Cache g, r.Holds k c := by
  refine ⟨?_, fun e => check_error_iff, fun g hg => ?_⟩
  · rw [check_ok_iff]
    constructor
    · rintro ⟨⟨h8, hpow⟩, hw, hc, hs⟩
      exact ⟨hpow, h8, hw, hc, hs⟩
    · rintro ⟨hpow, h8, hw, hc, hs⟩
      exact ⟨⟨h8, hpow⟩, hw, hc, hs⟩
  · obtain ⟨k, hk⟩ := (check_ok_iff.1 ⟨g, hg⟩).sets
    exact ⟨k, hk, (names_of_check hg).holds hk⟩

/-- 512 bytes in ways of 32 are four sets of four. Of a set that is larger than any word, and would
wrap to nothing, there is none. -/
theorem check_exact_wrapping :
    (∃ g, (GeometryRequest.mk 4 32 512 100).check = .ok g ∧
      ∀ c : Cache g, c.sets.toArray.size = 4) ∧
    (GeometryRequest.mk 0x2000000000000000 8 64 1).check = .error (.badSetCount 0) := by
  constructor
  · obtain ⟨haccepted, -, hholds⟩ := check_exact ⟨4, 32, 512, 100⟩
    obtain ⟨g, hg⟩ := haccepted.2 ⟨⟨5, rfl⟩, by decide, by decide, by decide, 2, rfl⟩
    obtain ⟨k, hk, hc⟩ := hholds g hg
    have hsets : 2 ^ k = 4 := by
      have h : 512 = 4 * 32 * 2 ^ k := hk
      omega
    exact ⟨g, hg, fun c => (hc c).sets.trans hsets⟩
  · refine ((check_exact _).2.1 _).2
      (.badSetCount ⟨by decide, 3, rfl⟩ (by decide) (by decide) ?_ 0 rfl)
    rintro ⟨k, hk⟩
    have h : 64 = 0x2000000000000000 * 8 * 2 ^ k := hk
    omega

end GeometryRequest

end FiveStage
