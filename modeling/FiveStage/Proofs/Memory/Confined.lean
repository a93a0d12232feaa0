import FiveStage.Proofs.Memory.Order

/-!
# Where stores reach

A store is admitted by the address of its first byte alone, and changes eight.

* `SegmentMap.Permitted` : the bytes that a program may write; `Bus.Changes` : those that a store
  that is done has changed, as the program sees memory;
* `Bus.Changes.storable` : only what some admitted store reaches is changed;
* `SegmentMap.ConfinesStores` : no doubleword that may be stored hangs over into bytes that may not
  be written; `SegmentMap.confined_of_aligned` : segments of whole doublewords leave only the bytes
  behind the special addresses;
* `Bus.stores_confined_iff` : the layouts in which stores stay where they are permitted.
-/

namespace FiveStage

namespace SegmentMap

/-- A program may write the byte at `x`: it is special, or the segment that holds it may be
written. -/
def Permitted (map : SegmentMap) (x : Word) : Prop :=
  isSpecial x = true ∨ (map.permissionsAt x).write = true

instance (map : SegmentMap) (x : Word) : Decidable (map.Permitted x) :=
  inferInstanceAs (Decidable (_ ∨ _))

/-- Whatever a store to an admitted address reaches may be written. -/
structure ConfinesStores (map : SegmentMap) : Prop where
  special : ∀ x, SpecialReach x → map.Permitted x
  words : ∀ a x, a.toNat % 8 = 0 → (map.permissionsAt a).write = true → Word.Within a 8 x →
    map.Permitted x

/-- Every segment starts and ends at a multiple of 8. -/
def Aligned (map : SegmentMap) : Prop :=
  ∀ kind, (map.get kind).start.toNat % 8 = 0 ∧ (map.get kind).stop.toNat % 8 = 0

/-- One of the seven bytes behind the last special address. -/
def BehindSpecial (x : Word) : Prop := SpecialReach x ∧ isSpecial x = false

variable {map : SegmentMap}

theorem checkData_of_special (map : SegmentMap) {a : Word} (h : isSpecial a = true)
    (kind : AccessKind) : map.checkData a kind = .ok () := by
  unfold checkData
  rw [if_pos h]

theorem checkData_of_writable {a : Word} (ha : a.toNat % 8 = 0)
    (h : (map.permissionsAt a).write = true) : map.checkData a .write = .ok () := by
  by_cases hs : isSpecial a = true
  · exact map.checkData_of_special hs _
  · exact (checkData_ok_iff (Bool.eq_false_iff.2 hs) ha .write).2 h

/-- Every byte that special accesses reach is reached by one of them. -/
theorem exists_special_of_reach {x : Word} (hx : SpecialReach x) :
    ∃ a, isSpecial a = true ∧ Word.Within a 8 x := by
  by_cases hs : isSpecial x = true
  · exact ⟨x, hs, by simp [Word.Within]⟩
  · -- the last special address reaches all that lies behind
    refine ⟨specialStart + specialSize - 1, by decide, ?_⟩
    have hlast : (specialStart + specialSize - 1).toNat =
        specialStart.toNat + specialSize.toNat - 1 := rfl
    have hsize : specialSize.toNat = 0x1000 := rfl
    have hfit : specialStart.toNat + specialSize.toNat + 8 ≤ 2 ^ 64 := by decide
    rw [isSpecial_iff] at hs
    obtain ⟨hge, hlt⟩ := hx
    rw [Word.within_iff (by omega)]
    omega

theorem ConfinesStores.permitted (h : map.ConfinesStores) {x : Word} (hx : map.Storable x) :
    map.Permitted x := by
  obtain ⟨a, ha, hin⟩ := hx
  by_cases hs : isSpecial a = true
  · exact h.special x (specialReach_of_within hs hin)
  · obtain ⟨halign, hwrite⟩ := of_checkData (Bool.eq_false_iff.2 hs) ha
    exact h.words a x halign hwrite hin

/-- A segment of whole doublewords holds all of a doubleword or nothing of it. -/
theorem contains_of_within {s : Segment} (hstart : s.start.toNat % 8 = 0)
    (hstop : s.stop.toNat % 8 = 0) {a x : Word} (ha : a.toNat % 8 = 0) (hx : Word.Within a 8 x) :
    s.contains x = s.contains a := by
  have hlt := a.isLt
  rw [Word.within_iff (by omega)] at hx
  rw [Segment.contains, Segment.contains, Bool.eq_iff_iff]
  simp only [Bool.and_eq_true, BitVec.ule_iff_le, BitVec.ult_iff_lt, BitVec.le_def, BitVec.lt_def]
  omega

theorem permissionsAt_of_within (h : map.Aligned) {a x : Word} (ha : a.toNat % 8 = 0)
    (hx : Word.Within a 8 x) : map.permissionsAt x = map.permissionsAt a := by
  have hfind : map.find x = map.find a := by
    unfold find
    congr 1
    funext kind
    exact contains_of_within (h kind).1 (h kind).2 ha hx
  simp only [permissionsAt, hfind]

/-- In a layout of whole doublewords stores get no further than the seven bytes behind the special
addresses. -/
theorem confined_of_aligned (h : map.Aligned) {x : Word} (hx : map.Storable x) :
    map.Permitted x ∨ BehindSpecial x := by
  obtain ⟨a, ha, hin⟩ := hx
  by_cases hs : isSpecial a = true
  · by_cases hsx : isSpecial x = true
    · exact .inl (.inl hsx)
    · exact .inr ⟨specialReach_of_within hs hin, Bool.eq_false_iff.2 hsx⟩
  · obtain ⟨halign, hwrite⟩ := of_checkData (Bool.eq_false_iff.2 hs) ha
    rw [← permissionsAt_of_within h halign hin] at hwrite
    exact .inl (.inr hwrite)

theorem aligned_default : default.Aligned := by
  intro kind
  cases kind <;> decide

end SegmentMap

theorem Memory.word_empty (a : Word) : Memory.empty.word a = 0 := by
  simp only [word_eq, byte_empty]
  rfl

/-! ## What a store changes -/

namespace Bus

/-- A store of `v` to `a` is done, and has changed the byte at `x` in the coherent view. -/
def Changes (b : Bus) (a v x : Word) : Prop :=
  (∃ value, (b.access a .write v).1 = .ok (.ready value)) ∧
    (b.access a .write v).2.coherent.byte x ≠ b.coherent.byte x

/-- Whatever has gone through a bus before, a store changes only what admitted stores reach. -/
theorem Changes.storable {memory : Memory} {map : SegmentMap} {cache : Option Geometry}
    {calls : List DataCall} {a v x : Word}
    (h : (DataCall.busAfter (start memory map cache) calls).Changes a v x) : map.Storable x := by
  false_or_by_contra
  rename_i hx
  have hfixed := DataCall.fixedAt_busAfter (fixedAt_start hx memory cache) calls
  have hnext := hfixed.access a .write v
  have hbefore := byte_coherent hfixed.sound hfixed.shows
  have hafter := byte_coherent hnext.sound hnext.shows
  exact h.2 (hafter.trans hbefore.symm)

/-- Every byte that an admitted store reaches is changed if the complement of what is there is
stored. -/
theorem changes_start {map : SegmentMap} {a x : Word} (hc : map.checkData a .write = .ok ())
    (hx : Word.Within a 8 x) (m : Memory) : (start m map none).Changes a (~~~m.word a) x := by
  have haccess : (start m map none).access a .write (~~~m.word a) =
      (.ok (.ready 0), start (m.setWord a (~~~m.word a)) map none) := by
    unfold access
    simp only [start, hc, Option.map_none, ite_self]
    rfl
  refine ⟨⟨0, by rw [haccess]⟩, ?_⟩
  rw [haccess]
  change (m.setWord a (~~~m.word a)).byte x ≠ m.byte x
  rw [Memory.byte_setWord, if_pos hx, ← Memory.byte_word hx]
  exact Word.byte_not_ne _ hx

/-- The layouts in which every byte that a store changes may be written, whatever has gone through
the bus before, are those in which no admitted doubleword hangs over. If all segments consist of
whole doublewords, the only other bytes that stores change are the seven behind the special
addresses. -/
theorem stores_confined_iff (map : SegmentMap) :
    ((∀ (memory : Memory) (cache : Option Geometry) (calls : List DataCall) (a v x : Word),
      (DataCall.busAfter (start memory map cache) calls).Changes a v x → map.Permitted x) ↔
        map.ConfinesStores) ∧
    (map.Aligned → ∀ (memory : Memory) (cache : Option Geometry) (calls : List DataCall)
      (a v x : Word), (DataCall.busAfter (start memory map cache) calls).Changes a v x →
        map.Permitted x ∨ SegmentMap.BehindSpecial x) := by
  refine ⟨⟨fun h => ⟨fun x hx => ?_, fun a x ha hwrite hin => ?_⟩, fun h _ _ _ _ _ _ hx => ?_⟩,
    fun h _ _ _ _ _ _ hx => SegmentMap.confined_of_aligned h hx.storable⟩
  · obtain ⟨a, hs, hin⟩ := SegmentMap.exists_special_of_reach hx
    exact h .empty none [] _ _ x (changes_start (map.checkData_of_special hs _) hin _)
  · have hc := SegmentMap.checkData_of_writable ha hwrite
    exact h .empty none [] _ _ x (changes_start hc hin _)
  · exact h.permitted hx.storable

/-- The default layout consists of whole doublewords: a store into a block of the cache changes what
may be written, and one to the last special address a byte behind it. -/
theorem stores_confined_default :
    let g : Geometry := ⟨1, 3, 0, 1, by decide, by decide, by decide⟩
    let load : DataCall := ⟨heapStart, .read, 0⟩
    let filled := DataCall.busAfter (start .empty .default (some g)) [load, load]
    SegmentMap.default.Aligned ∧
    filled.Changes heapStart 5 heapStart ∧ SegmentMap.default.Permitted heapStart ∧
    (start .empty .default none).Changes 0x1000000000FFF 0x500 0x1000000001000 ∧
    SegmentMap.BehindSpecial 0x1000000001000 := by
  intro g load filled
  have hconfined := (stores_confined_iff .default).2 SegmentMap.aligned_default
  have hheap : filled.Changes heapStart 5 heapStart :=
    ⟨⟨0, DataCall.eq_ok_of_toOption (by decide +kernel)⟩, by decide +kernel⟩
  have hlast : (start .empty .default none).Changes 0x1000000000FFF 0x500 0x1000000001000 :=
    ⟨⟨0, DataCall.eq_ok_of_toOption (by decide +kernel)⟩, by decide +kernel⟩
  refine ⟨SegmentMap.aligned_default, hheap, ?_, hlast, ?_⟩
  · have hspecial : ¬ SegmentMap.BehindSpecial heapStart := fun h => absurd h.1.1 (by decide)
    exact (hconfined _ _ [load, load] _ _ _ hheap).resolve_right hspecial
  · exact (hconfined _ _ [] _ _ _ hlast).resolve_left (by decide)

/-- The layout of a program whose code starts in the middle of a doubleword that its data holds. -/
def overhangingLayout : SegmentMap :=
  { SegmentMap.default with
    text := ⟨0x400004, 0x400010, ⟨true, false, true⟩⟩
    data := ⟨0x3FF000, heapStart, ⟨true, true, false⟩⟩ }

/-- Stores change bytes that may not be written: those behind the special addresses in the default
layout, and an instruction where code starts in the middle of a doubleword. -/
theorem stores_unconfined :
    (start .empty .default none).Changes 0x1000000000FFF 0xFFFFFFFFFFFFFFFF 0x1000000001000 ∧
    ¬ SegmentMap.default.Permitted 0x1000000001000 ∧
    (start .empty overhangingLayout none).Changes 0x400000 0xFFFFFFFFFFFFFFFF 0x400004 ∧
    ¬ overhangingLayout.Permitted 0x400004 ∧
    overhangingLayout.find 0x400004 = some .text := by
  have hspecial : SegmentMap.default.checkData 0x1000000000FFF .write = .ok () := by rfl
  have hdata : overhangingLayout.checkData 0x400000 .write = .ok () := by rfl
  have hbehind := changes_start hspecial (x := 0x1000000001000) (by decide) .empty
  have hcode := changes_start hdata (x := 0x400004) (by decide) .empty
  rw [Memory.word_empty] at hbehind hcode
  exact ⟨hbehind, by decide, hcode, by decide, by decide⟩

end Bus

end FiveStage
