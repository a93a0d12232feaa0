import FiveStage.Memory.Bus
import FiveStage.Proofs.Cache.Lines

/-!
# What a cache shows of memory

* `Cache.Shows` : with a backing store behind it, a cache shows a byte at an address;
* `Cache.shows_writeIn`, `Cache.shows_fill` : what a store and an incoming block make of it;
* `CachedSide.Sound` : the lines are sound, and the block that is waited for is absent;
* `CachedSide.Serves` : an access that is done loads what was shown, and shows what was stored;
* `CachedSide.serves_use`, `CachedSide.serves_finish` : hits and misses do.
-/

namespace FiveStage

namespace Cache

variable {g : Geometry}

/-- With `m` as backing store, the cache shows `b` at `x`: every line that holds `x` has `b` there,
and `m` has it as long as no dirty line knows better. -/
structure Shows (c : Cache g) (m : Memory) (x : Word) (b : Byte) : Prop where
  resident : ∀ w, c.Covers x w → c.byteIn w x = b
  behind : (∀ w, c.Covers x w → (c.line (g.index x) w).dirty = false) → m.byte x = b

theorem shows_empty (m : Memory) (x : Word) : (Cache.empty g).Shows m x (m.byte x) :=
  ⟨fun w h => absurd h (not_covers_empty x w), fun _ => rfl⟩

theorem Shows.of_absent {c : Cache g} {m : Memory} {x : Word} {b : Byte} (h : c.Shows m x b)
    (hx : ∀ w, ¬ c.Covers x w) : m.byte x = b :=
  h.behind fun w hw => absurd hw (hx w)

theorem SameBlocks.shows {c d : Cache g} {m : Memory} {x : Word} {b : Byte} (h : c.SameBlocks d)
    (hc : c.Shows m x b) : d.Shows m x b := by
  refine ⟨fun w hw => ?_, fun hclean => hc.behind fun w hw => ?_⟩
  · rw [h.byteIn]
    exact hc.resident w ((h.covers x w).1 hw)
  · have := hclean w ((h.covers x w).2 hw)
    cases hd : (c.line (g.index x) w).dirty with
    | false => rfl
    | true => rw [h.dirty _ _ hd] at this; exact this

/-! ## Loads and stores -/

theorem readIn_eq {c : Cache g} {w : Fin g.ways} {a : Word} (ha : a.toNat % 8 = 0) {flat : Memory}
    (h : ∀ x, Word.Within a 8 x → c.byteIn w x = flat.byte x) :
    (c.readIn w a).1 = flat.word a := by
  change wordAt (c.line (g.index a) w).data (g.wordOffset a) (g.wordOffset_le a) = _
  rw [wordAt, Memory.word_eq]
  refine Word.ofBytes_congr fun i hi => ?_
  have hwithin := Word.within_add a hi (by decide)
  obtain ⟨hblock, hle, -⟩ := (g.within_eight_iff ha _).1 hwithin
  have hdist := g.sub_eq_of_within_eight ha hwithin
  have hi' : (a + BitVec.ofNat 64 i - a).toNat = i := by
    rw [BitVec.add_comm, BitVec.add_sub_cancel, BitVec.toNat_ofNat, Nat.mod_eq_of_lt (by omega)]
  have hlt : g.wordOffset a + i < g.blockSize := by have := g.wordOffset_le a; omega
  rw [dif_pos hi, ← h _ hwithin, byteIn_eq hblock ?_ hlt]
  · rfl
  · rw [g.wordOffset_eq ha]
    omega

/-- A store into the line of its address is shown. -/
theorem shows_writeIn {c : Cache g} {map : SegmentMap} (hc : c.Sound map) {w : Fin g.ways}
    {a : Word} (ha : a.toNat % 8 = 0) (hw : c.Covers a w) (v : Word) {m : Memory} {x : Word}
    {b : Byte} (h : c.Shows m x b) : (c.writeIn w a v).Shows m x
      (if Word.Within a 8 x then v.byte (x - a).toNat else b) := by
  have hcovers : Word.Within a 8 x → ∀ u, c.Covers x u ↔ w = u := by
    intro hx u
    have hblock := ((g.within_eight_iff ha x).1 hx).1
    have hxw := (covers_congr hblock).2 hw
    exact ⟨fun hu => hc.single x w u hxw hu, fun he => he ▸ hxw⟩
  refine ⟨fun u hu => ?_, fun hclean => ?_⟩
  · rw [covers_writeIn] at hu
    rw [byteIn_writeIn ha hw v hu]
    by_cases hx : Word.Within a 8 x
    · rw [if_pos hx, if_pos ⟨(hcovers hx u).1 hu, hx⟩]
    · rw [if_neg hx, if_neg fun he => hx he.2]
      exact h.resident u hu
  · by_cases hx : Word.Within a 8 x
    · -- the line that was stored into is dirty
      have hblock := ((g.within_eight_iff ha x).1 hx).1
      have hd := hclean w ((covers_writeIn c w a v x w).2 ((hcovers hx w).2 rfl))
      rw [((g.sameLine_iff x a).2 hblock).1, dirty_writeIn_self] at hd
      cases hd
    · rw [if_neg hx]
      refine h.behind fun u hu => ?_
      have hd := hclean u ((covers_writeIn c w a v x u).2 hu)
      cases hdu : (c.line (g.index x) u).dirty with
      | false => rfl
      | true => rw [dirty_writeIn c w a v _ u hdu] at hd; exact hd

/-! ## Blocks that come and go -/

/-- The bytes of a line, found from the address of its block. -/
theorem getElem?_lineBytes {c : Cache g} {map : SegmentMap} (hc : c.Sound map)
    {i : Fin g.setCount} {w : Fin g.ways} (hv : (c.line i w).valid = true) (x : Word) :
    (c.line i w).data.toList[(x - g.blockAddress (c.line i w).tag i).toNat]? =
      if i = g.index x ∧ (c.line i w).tag = g.tag x then some (c.byteIn w x) else none := by
  obtain ⟨a, -, rfl, ht⟩ := hc.placed i w hv
  rw [← ht, g.blockAddress_eq]
  by_cases hx : g.blockNumber a = g.blockNumber x
  · rw [if_pos ((g.sameLine_iff a x).2 hx), g.offset_eq a x hx.symm,
      byteIn_eq hx.symm rfl (g.offset_lt x), Vector.getElem?_toList, Vector.getElem?_eq_getElem]
  · rw [if_neg (mt (g.sameLine_iff a x).1 hx)]
    have hout := mt (g.within_blockBase_iff a x).1 (Ne.symm hx)
    refine List.getElem?_eq_none ?_
    rw [Vector.length_toList]
    exact Nat.le_of_not_lt hout

/-- A displaced line leaves its bytes in the backing store if it has to. -/
theorem byte_writtenBack {c : Cache g} {map : SegmentMap} (hc : c.Sound map) (a x : Word)
    (m : Memory) {w : Fin g.ways} (hw : c.victim (g.index a) = w) :
    (CachedSide.writtenBack m (c.displaced a)).byte x =
      if (c.line (g.index a) w).valid = true ∧ (c.line (g.index a) w).dirty = true ∧
          g.index a = g.index x ∧ (c.line (g.index a) w).tag = g.tag x then
        c.byteIn w x
      else m.byte x := by
  subst hw
  unfold CachedSide.writtenBack displaced evictedFrom
  generalize c.victim (g.index a) = w
  simp only [Bool.and_eq_true]
  by_cases hd : (c.line (g.index a) w).valid = true ∧ (c.line (g.index a) w).dirty = true
  · rw [if_pos hd, Memory.byte_writeBytes _ _ _ ?_, getElem?_lineBytes hc hd.1]
    · by_cases hx : g.index a = g.index x ∧ (c.line (g.index a) w).tag = g.tag x
      · rw [if_pos hx, if_pos ⟨hd.1, hd.2, hx⟩, Option.getD_some]
      · rw [if_neg hx, if_neg fun h => hx h.2.2, Option.getD_none]
    · rw [Vector.length_toList]
      exact Nat.pow_le_pow_right (by decide) (by have := g.bits_le; omega)
  · rw [if_neg hd, if_neg fun h => hd ⟨h.1, h.2.1⟩]

theorem byteIn_fill_self {c : Cache g} {a x : Word} {kind : AccessKind} {m : Memory}
    (hx : g.blockNumber x = g.blockNumber a) :
    (c.fill a kind (m.readBytes (g.blockBase a) g.blockSize)).2.byteIn
      (c.victim (g.index a)) x = m.byte x := by
  rw [byteIn_eq hx rfl (g.offset_lt x)]
  simp only [line_fill, and_self, if_true, getElem_blockOf]
  rw [Memory.readBytes_eq, List.getElem?_map, List.getElem?_range (g.offset_lt x), Option.map_some,
    Option.getD_some, ← g.offset_eq a x hx, Word.add_sub_toNat]

theorem byteIn_fill_other {c : Cache g} {a x : Word} {kind : AccessKind} {incoming : List Byte}
    {u : Fin g.ways} (h : ¬ (g.index a = g.index x ∧ c.victim (g.index a) = u)) :
    (c.fill a kind incoming).2.byteIn u x = c.byteIn u x := by
  simp only [byteIn, line_fill, if_neg h]

/-- What is shown survives that a block comes in and a dirty one goes out. -/
theorem shows_fill {c : Cache g} {map : SegmentMap} (hc : c.Sound map) {a : Word}
    (habsent : ∀ w, ¬ c.Covers a w) (kind : AccessKind) {m : Memory} {x : Word} {b : Byte}
    (h : c.Shows m x b) :
    (c.fill a kind (m.readBytes (g.blockBase a) g.blockSize)).2.Shows
      (CachedSide.writtenBack m (c.displaced a)) x b := by
  generalize hw : c.victim (g.index a) = w
  have hback := byte_writtenBack hc a x m hw
  by_cases hx : g.blockNumber x = g.blockNumber a
  · -- the block was nowhere, so the backing store has it
    obtain ⟨hi, -⟩ := (g.sameLine_iff x a).2 hx
    have hnone : ∀ u, ¬ c.Covers x u := fun u hu => habsent u ((covers_congr hx).1 hu)
    have hm := h.of_absent hnone
    refine ⟨fun u hu => ?_, fun _ => ?_⟩
    · rw [covers_fill] at hu
      split at hu
      · rename_i h'
        rw [← h'.2, byteIn_fill_self hx, hm]
      · exact absurd hu (hnone u)
    · rw [hback, if_neg, hm]
      rintro ⟨hv, -, hi, ht⟩
      exact hnone w ⟨hi ▸ hv, hi ▸ ht⟩
  · have hother : ∀ u, g.index a = g.index x ∧ c.victim (g.index a) = u →
        ¬ (c.fill a kind (m.readBytes (g.blockBase a) g.blockSize)).2.Covers x u := by
      intro u h' hu
      rw [covers_fill, if_pos h'] at hu
      exact hx hu.symm
    refine ⟨fun u hu => ?_, fun hclean => ?_⟩
    · have h' := fun h' => hother u h' hu
      rw [covers_fill, if_neg h'] at hu
      rw [byteIn_fill_other h', h.resident u hu]
    · rw [hback]
      split
      · rename_i hd
        obtain ⟨hv, -, hi, ht⟩ := hd
        exact h.resident w ⟨hi ▸ hv, hi ▸ ht⟩
      · rename_i hd
        refine h.behind fun u hu => ?_
        by_cases h' : g.index a = g.index x ∧ c.victim (g.index a) = u
        · -- the displaced line was clean
          obtain ⟨hi, rfl⟩ := h'
          obtain ⟨hv, ht⟩ := hu
          rw [← hi, hw] at hv ht ⊢
          exact Bool.eq_false_iff.2 fun hdirty => hd ⟨hv, hdirty, hi, ht⟩
        · have hline := hclean u (by rw [covers_fill, if_neg h']; exact hu)
          rw [line_fill, if_neg h'] at hline
          exact hline

/-- A byte that the backing store has stays there when a block goes out. -/
theorem byte_writtenBack_of_shows {c : Cache g} {map : SegmentMap} (hc : c.Sound map) (a : Word)
    {m : Memory} {x : Word} {b : Byte} (h : c.Shows m x b) (hm : m.byte x = b) :
    (CachedSide.writtenBack m (c.displaced a)).byte x = b := by
  rw [byte_writtenBack hc a x m rfl]
  split
  · rename_i hd
    obtain ⟨hv, -, hi, ht⟩ := hd
    exact h.resident _ ⟨hi ▸ hv, hi ▸ ht⟩
  · exact hm

end Cache

namespace CachedSide

/-- The lines are sound, and the block that is waited for is absent. -/
structure Sound (side : CachedSide) (map : SegmentMap) : Prop where
  lines : side.cache.Sound map
  absent : ∀ miss, side.pending = some miss → ∀ w, ¬ side.cache.Covers miss.address w

theorem sound_start (g : Geometry) (map : SegmentMap) : (start g).Sound map :=
  ⟨Cache.sound_empty map, fun _ h => by cases h⟩

theorem sound_probed {side : CachedSide} {map : SegmentMap} (h : side.Sound map) (a : Word)
    (kind : AccessKind) : (side.probed a kind).Sound map :=
  ⟨(side.cache.sameBlocks_probe a kind).sound h.lines, fun _ h => by cases h⟩

/-- The byte at `x` after an access has stored, where it was `b` before. -/
def storedByte (a : Word) (kind : AccessKind) (v x : Word) (b : Byte) : Byte :=
  if kind = .write ∧ Word.Within a 8 x then v.byte (x - a).toNat else b

/-- An access that is done, with the backing store and the cached side it leaves: nothing but what
it stores is shown differently, the backing store forgets nothing, and a load yields what was
shown. -/
structure Serves (side : CachedSide) (m : Memory) (map : SegmentMap) (a : Word)
    (kind : AccessKind) (v : Word) (out : Word × Memory × CachedSide) : Prop where
  sound : out.2.2.Sound map
  geometry : out.2.2.geometry = side.geometry
  shows : ∀ x b, side.cache.Shows m x b →
    out.2.2.cache.Shows out.2.1 x (storedByte a kind v x b)
  keeps : ∀ x b, side.cache.Shows m x b → m.byte x = b → out.2.1.byte x = b
  loads : kind = .read → ∀ flat : Memory,
    (∀ x, Word.Within a 8 x → side.cache.Shows m x (flat.byte x)) → out.1 = flat.word a

theorem serves_use {side : CachedSide} {map : SegmentMap} (h : side.Sound map)
    (hp : side.pending = none) {a : Word} (ha : a.toNat % 8 = 0) {w : Fin side.geometry.ways}
    (hw : side.cache.Covers a w) (m : Memory) (kind : AccessKind) (v : Word) :
    side.Serves m map a kind v ((side.use a kind v).1, m, (side.use a kind v).2) := by
  have hway := Cache.way?_eq_some h.lines hw
  cases kind with
  | read =>
    have huse : side.use a .read v =
        ((side.cache.readIn w a).1, { side with cache := (side.cache.readIn w a).2 }) := by
      rw [use, hway]
    have hsame := side.cache.sameBlocks_touch (side.geometry.index a) w
    rw [huse]
    refine ⟨⟨hsame.sound h.lines, ?_⟩, rfl, fun x b hx => ?_, fun _ _ _ hm => hm,
      fun _ flat hx => ?_⟩
    · intro miss hmiss
      rw [hp] at hmiss
      cases hmiss
    · rw [storedByte, if_neg (by simp)]
      exact hsame.shows hx
    · refine Cache.readIn_eq ha fun x hin => (hx x hin).resident w ?_
      exact (Cache.covers_congr ((side.geometry.within_eight_iff ha x).1 hin).1).2 hw
  | write =>
    have huse : side.use a .write v = (0, { side with cache := side.cache.writeIn w a v }) := by
      rw [use, hway]
    rw [huse]
    refine ⟨⟨Cache.sound_writeIn h.lines w a v, ?_⟩, rfl, fun x b hx => ?_, fun _ _ _ hm => hm,
      fun hk => by cases hk⟩
    · intro miss hmiss
      rw [hp] at hmiss
      cases hmiss
    · rw [storedByte]
      simp only [true_and]
      exact Cache.shows_writeIn h.lines ha hw v hx

/-- An access that brings its block in first. -/
theorem serves_finish {side : CachedSide} {map : SegmentMap} (h : side.Sound map) {a : Word}
    (hmap : map.Cacheable a) (ha : a.toNat % 8 = 0) (habsent : ∀ w, ¬ side.cache.Covers a w)
    (m : Memory) (kind : AccessKind) (v : Word) :
    side.Serves m map a kind v (side.finish m a kind v) := by
  have hfilled : (side.refill m a kind).2.Sound map :=
    ⟨Cache.sound_fill h.lines hmap habsent kind _, fun _ h => by cases h⟩
  have hserves := serves_use hfilled rfl ha (Cache.covers_fill_self side.cache a kind _)
    (writtenBack m (side.cache.displaced a)) kind v
  refine ⟨hserves.sound, hserves.geometry, fun x b hx => ?_, fun x b hx hm => ?_,
    fun hk flat hx => ?_⟩
  · exact hserves.shows x b (Cache.shows_fill h.lines habsent kind hx)
  · exact Cache.byte_writtenBack_of_shows h.lines a hx hm
  · exact hserves.loads hk flat fun x hin => Cache.shows_fill h.lines habsent kind (hx x hin)

/-! ## Routes -/

theorem absent_of_route {side : CachedSide} {map : SegmentMap} (h : side.Sound map) (a : Word)
    (kind : AccessKind) (hr : side.route a kind ≠ .hits) : ∀ w, ¬ side.cache.Covers a w := by
  have hfresh : side.freshRoute a ≠ .hits → ∀ w, ¬ side.cache.Covers a w := by
    intro hf
    rw [← Cache.way?_eq_none_iff]
    cases hw : side.cache.way? a with
    | none => rfl
    | some w => exact absurd (by rw [freshRoute, hw]; rfl) hf
  unfold route at hr
  split at hr
  · rename_i miss hmiss
    split at hr
    · rename_i heq
      rw [← heq.1]
      exact h.absent miss hmiss
    · exact hfresh hr
  · exact hfresh hr

theorem covers_of_route {side : CachedSide} {a : Word} {kind : AccessKind}
    (hr : side.route a kind = .hits) : ∃ w, side.cache.Covers a w := by
  have hfresh : side.freshRoute a = .hits := by
    unfold route at hr
    split at hr
    · split at hr
      · split at hr <;> cases hr
      · exact hr
    · exact hr
  unfold freshRoute at hfresh
  split at hfresh
  · rename_i hsome
    obtain ⟨w, hw⟩ := Option.isSome_iff_exists.1 hsome
    exact ⟨w, Cache.covers_of_way? hw⟩
  · split at hfresh <;> cases hfresh

end CachedSide

end FiveStage
