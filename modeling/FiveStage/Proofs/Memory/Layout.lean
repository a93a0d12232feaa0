import FiveStage.Memory.Segment
import FiveStage.Proofs.Cache.Blocks

/-!
# What a layout keeps apart

* `SegmentMap.Storable`, `SegmentMap.Fetchable` : the bytes that an admitted store changes, and
  those that an admitted fetch reads; `SegmentMap.ProtectsCode` : none is both;
* `SpecialReach` : the bytes that accesses to special addresses reach;
  `SegmentMap.Cacheable` : the addresses that go through a cache;
  `Geometry.AvoidsSpecial` : no block has both;
* `SegmentMap.protectsCode_default`, `SegmentMap.avoidsSpecial_default` : the default layout has
  both properties.
-/

namespace FiveStage

namespace SegmentMap

/-- Some store that the layout admits changes the byte at `x`. -/
def Storable (map : SegmentMap) (x : Word) : Prop :=
  ∃ a, map.checkData a .write = .ok () ∧ Word.Within a 8 x

/-- Some fetch that the layout admits reads the byte at `x`. -/
def Fetchable (map : SegmentMap) (x : Word) : Prop :=
  ∃ a, map.checkFetch a = .ok () ∧ Word.Within a 4 x

/-- No doubleword that may be stored overlaps an instruction that may be fetched. -/
def ProtectsCode (map : SegmentMap) : Prop := ∀ x, map.Storable x → ¬ map.Fetchable x

end SegmentMap

/-- The bytes that accesses to special addresses reach: these need not be aligned, so that seven
bytes behind the last special address are among them. -/
def SpecialReach (x : Word) : Prop :=
  specialStart.toNat ≤ x.toNat ∧ x.toNat < specialStart.toNat + specialSize.toNat + 7

/-- Some data access at `a` goes through the cache, if there is one. -/
def SegmentMap.Cacheable (map : SegmentMap) (a : Word) : Prop :=
  isSpecial a = false ∧ ∃ kind, map.checkData a kind = .ok ()

/-- No address that goes through a cache shares a block with a byte that special accesses reach. -/
def Geometry.AvoidsSpecial (g : Geometry) (map : SegmentMap) : Prop :=
  ∀ a x, map.Cacheable a → SpecialReach x → g.blockBase a ≠ g.blockBase x

/-! ## Special addresses -/

theorem isSpecial_iff (a : Word) : isSpecial a = true ↔
    specialStart.toNat ≤ a.toNat ∧ a.toNat < specialStart.toNat + specialSize.toNat := by
  simp only [isSpecial, Bool.and_eq_true, BitVec.ule_iff_le, BitVec.ult_iff_lt, BitVec.le_def,
    BitVec.lt_def]
  rfl

theorem specialReach_of_within {a x : Word} (ha : isSpecial a = true) (hx : Word.Within a 8 x) :
    SpecialReach x := by
  obtain ⟨h1, h2⟩ := (isSpecial_iff a).1 ha
  have hfit : specialStart.toNat + specialSize.toNat + 8 ≤ 2 ^ 64 := by decide
  rw [Word.within_iff (by omega)] at hx
  exact ⟨by omega, by omega⟩

theorem SegmentMap.of_checkData {map : SegmentMap} {a : Word} {kind : AccessKind}
    (hs : isSpecial a = false) (h : map.checkData a kind = .ok ()) :
    a.toNat % 8 = 0 ∧ (map.permissionsAt a).allows kind = true := by
  unfold checkData at h
  rw [hs, if_neg Bool.false_ne_true] at h
  by_cases hm : a % 8 = 0
  · rw [if_neg (by simpa using hm)] at h
    refine ⟨by simpa [BitVec.toNat_umod] using congrArg BitVec.toNat hm, ?_⟩
    false_or_by_contra
    rename_i ha
    rw [if_neg ha] at h
    cases kind <;> cases h
  · rw [if_pos (by simpa using hm)] at h
    cases h

theorem SegmentMap.of_checkFetch {map : SegmentMap} {a : Word} (h : map.checkFetch a = .ok ()) :
    a.toNat % 4 = 0 ∧ (map.permissionsAt a).execute = true := by
  rw [checkFetch] at h
  by_cases hm : a % 4 = 0
  · rw [if_neg (by simpa using hm)] at h
    refine ⟨by simpa [BitVec.toNat_umod] using congrArg BitVec.toNat hm, ?_⟩
    false_or_by_contra
    rename_i ha
    rw [if_neg ha] at h
    cases h
  · rw [if_pos (by simpa using hm)] at h
    cases h

theorem SegmentMap.checkData_ok_iff {map : SegmentMap} {a : Word} (hs : isSpecial a = false)
    (ha : a.toNat % 8 = 0) (kind : AccessKind) :
    map.checkData a kind = .ok () ↔ (map.permissionsAt a).allows kind = true := by
  refine ⟨fun h => (of_checkData hs h).2, fun h => ?_⟩
  have hmod : a % 8 = 0 := BitVec.eq_of_toNat_eq (by rw [BitVec.toNat_umod]; exact ha)
  unfold checkData
  rw [hs, if_neg Bool.false_ne_true, if_neg (by simpa using hmod), if_pos h]

theorem SegmentMap.checkFetch_ok_iff {map : SegmentMap} {a : Word} (ha : a.toNat % 4 = 0) :
    map.checkFetch a = .ok () ↔ (map.permissionsAt a).execute = true := by
  refine ⟨fun h => (of_checkFetch h).2, fun h => ?_⟩
  have hmod : a % 4 = 0 := BitVec.eq_of_toNat_eq (by rw [BitVec.toNat_umod]; exact ha)
  rw [checkFetch, if_neg (by simpa using hmod), if_pos h]

/-! ## The default layout -/

namespace SegmentMap

theorem permissionsAt_default (a : Word) : default.permissionsAt a =
    if textStart.toNat ≤ a.toNat ∧ a.toNat < dataStart.toNat then ⟨true, false, true⟩
    else if dataStart.toNat ≤ a.toNat ∧ a.toNat < stackTop.toNat then ⟨true, true, false⟩
    else ⟨false, false, false⟩ := by
  have h1 : textStart.toNat < dataStart.toNat := by decide
  have h2 : dataStart.toNat < heapStart.toNat := by decide
  have h3 : heapStart.toNat < stackStart.toNat := by decide
  have h4 : stackStart.toNat < stackTop.toNat := by decide
  simp only [permissionsAt, find, List.find?, get, default, Segment.contains]
  simp only [BitVec.ule_eq_decide, BitVec.ult_eq_decide, ← Bool.decide_and]
  by_cases ht : textStart.toNat ≤ a.toNat ∧ a.toNat < dataStart.toNat
  · simp only [ht, and_self, decide_true, if_true]
  · by_cases hd : dataStart.toNat ≤ a.toNat ∧ a.toNat < heapStart.toNat
    · rw [if_neg ht, if_pos ⟨hd.1, by omega⟩]
      simp only [ht, hd, and_self, decide_true, decide_false]
    · by_cases hh : heapStart.toNat ≤ a.toNat ∧ a.toNat < stackStart.toNat
      · rw [if_neg ht, if_pos ⟨by omega, by omega⟩]
        simp only [ht, hd, hh, and_self, decide_true, decide_false]
      · by_cases hs : stackStart.toNat ≤ a.toNat ∧ a.toNat < stackTop.toNat
        · rw [if_neg ht, if_pos ⟨by omega, by omega⟩]
          simp only [ht, hd, hh, hs, and_self, decide_true, decide_false]
        · rw [if_neg ht, if_neg (by omega)]
          simp only [ht, hd, hh, hs, decide_false]

theorem lt_of_checkData_default {a : Word} {kind : AccessKind} (hs : isSpecial a = false)
    (h : default.checkData a kind = .ok ()) : a.toNat < stackTop.toNat := by
  obtain ⟨-, ha⟩ := of_checkData hs h
  have h1 : dataStart.toNat < stackTop.toNat := by decide
  rw [permissionsAt_default] at ha
  split at ha
  · omega
  · split at ha
    · omega
    · cases kind <;> cases ha

theorem lt_of_checkFetch_default {p : Word} (h : default.checkFetch p = .ok ()) :
    p.toNat < dataStart.toNat := by
  obtain ⟨-, hexec⟩ := of_checkFetch h
  rw [permissionsAt_default] at hexec
  split at hexec
  · omega
  · split at hexec <;> cases hexec

theorem protectsCode_default : default.ProtectsCode := by
  rintro x ⟨a, ha, hx⟩ ⟨p, hp, hxp⟩
  obtain ⟨h4, -⟩ := of_checkFetch hp
  have htop : stackTop.toNat < specialStart.toNat := by decide
  have hdata : dataStart.toNat = 0x800000 := rfl
  -- an instruction lies in the text segment, and so do all of its bytes
  have htext := lt_of_checkFetch_default hp
  rw [Word.within_iff (by omega)] at hxp
  have hstack : dataStart.toNat < stackTop.toNat := by decide
  by_cases hs : isSpecial a = true
  · have := (specialReach_of_within hs hx).1
    omega
  · have hs := Bool.eq_false_iff.2 hs
    have hlt := lt_of_checkData_default hs ha
    obtain ⟨-, hallow⟩ := of_checkData hs ha
    have hge : dataStart.toNat ≤ a.toNat := by
      rw [permissionsAt_default] at hallow
      split at hallow
      · cases hallow
      · split at hallow
        · omega
        · cases hallow
    have hfit : stackTop.toNat + 8 ≤ 2 ^ 64 := by decide
    rw [Word.within_iff (by omega)] at hx
    omega

theorem avoidsSpecial_default (g : Geometry) : g.AvoidsSpecial default := by
  rintro a x ⟨hs, kind, ha⟩ hx heq
  have hlt := lt_of_checkData_default hs ha
  have htop : stackTop.toNat + 2 ^ 30 ≤ specialStart.toNat := by decide
  have hsize : g.blockSize ≤ 2 ^ 30 :=
    Nat.pow_le_pow_right (by decide) (by have := g.bits_le; omega)
  -- a block is too small to reach from the top of the stack to the special addresses
  have hbase := g.toNat_eq a
  have hx1 := hx.1
  rw [g.toNat_eq x, ← heq] at hx1
  have hoff := g.offset_lt x
  omega

end SegmentMap

end FiveStage
