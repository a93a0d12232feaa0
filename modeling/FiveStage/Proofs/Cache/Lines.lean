import FiveStage.Memory.Cache.Basic
import FiveStage.Proofs.Memory.Layout

/-!
# Which lines hold what

* `Cache.Covers`, `Cache.byteIn` : a way holds the block of an address, and the byte it has there;
* `Cache.Sound` : every valid line is a block that goes through the cache, and no block is there
  twice;
* `Cache.SameBlocks` : what looking up, stamping and marking dirty leave alone;
* `Cache.covers_writeIn`, `Cache.byteIn_writeIn` : a store into a line;
* `Cache.covers_fill` : a block that comes in takes the place of the victim.
-/

namespace FiveStage

namespace Cache

variable {g : Geometry}

/-- A way of its set holds the block of an address. -/
def Covers (c : Cache g) (x : Word) (w : Fin g.ways) : Prop :=
  (c.line (g.index x) w).valid = true ∧ (c.line (g.index x) w).tag = g.tag x

/-- The byte that a way has at the place of an address. -/
def byteIn (c : Cache g) (w : Fin g.ways) (x : Word) : Byte :=
  have hx := g.offset_lt x
  (c.line (g.index x) w).data[g.offset x]

/-- Every valid line is the block of an address that goes through the cache, in the set where it
belongs, and no block is there twice. -/
structure Sound (c : Cache g) (map : SegmentMap) : Prop where
  placed : ∀ i w, (c.line i w).valid = true →
    ∃ a, map.Cacheable a ∧ g.index a = i ∧ g.tag a = (c.line i w).tag
  single : ∀ x w v, c.Covers x w → c.Covers x v → w = v

/-! ## Looking an address up -/

theorem covers_congr {c : Cache g} {x y : Word} {w : Fin g.ways}
    (h : g.blockNumber x = g.blockNumber y) : c.Covers x w ↔ c.Covers y w := by
  obtain ⟨hi, ht⟩ := (g.sameLine_iff x y).2 h
  rw [Covers, Covers, hi, ht]

theorem byteIn_eq {c : Cache g} {w : Fin g.ways} {x a : Word} {k : Nat}
    (hblock : g.blockNumber x = g.blockNumber a) (hk : g.offset x = k) (hlt : k < g.blockSize) :
    c.byteIn w x = (c.line (g.index a) w).data[k] := by
  subst hk
  simp only [byteIn, ((g.sameLine_iff x a).2 hblock).1]

/-- A way holds one block only. -/
theorem blockNumber_eq_of_covers {c : Cache g} {x y : Word} {w : Fin g.ways}
    (hi : g.index x = g.index y) (hx : c.Covers x w) (hy : c.Covers y w) :
    g.blockNumber x = g.blockNumber y := by
  obtain ⟨-, htx⟩ := hx
  obtain ⟨-, hty⟩ := hy
  refine (g.sameLine_iff x y).1 ⟨hi, ?_⟩
  rw [← htx, hi, hty]

theorem way?_eq_none_iff {c : Cache g} {a : Word} : c.way? a = none ↔ ∀ w, ¬ c.Covers a w := by
  rw [way?, wayOfTag?, Vector.findFinIdx?_eq_none_iff]
  constructor
  · rintro h w ⟨hv, ht⟩
    have := h (c.line (g.index a) w) (Vector.getElem_mem w.isLt)
    simp [hv, ht] at this
  · intro h l hl
    obtain ⟨w, hw, rfl⟩ := Vector.getElem_of_mem hl
    have := h ⟨w, hw⟩
    simp only [Covers, line, not_and, Bool.and_eq_true, beq_iff_eq] at this ⊢
    exact this

theorem covers_of_way? {c : Cache g} {a : Word} {w : Fin g.ways} (h : c.way? a = some w) :
    c.Covers a w := by
  rw [way?, wayOfTag?] at h
  have hfind : (c.sets[g.index a]).find? (fun l => l.valid && l.tag == g.tag a) = _ :=
    Vector.find?_eq_map_findFinIdx?_getElem
  rw [h, Option.map_some] at hfind
  have hp := Vector.find?_some hfind
  rw [Bool.and_eq_true, beq_iff_eq] at hp
  exact hp

theorem way?_eq_some {c : Cache g} {map : SegmentMap} (hc : c.Sound map) {a : Word}
    {w : Fin g.ways} (h : c.Covers a w) : c.way? a = some w := by
  cases hw : c.way? a with
  | none => exact absurd h (way?_eq_none_iff.1 hw w)
  | some v => rw [hc.single a v w (covers_of_way? hw) h]

theorem Sound.cacheable {c : Cache g} {map : SegmentMap} (hc : c.Sound map) {x : Word}
    {w : Fin g.ways} (h : c.Covers x w) :
    ∃ a, map.Cacheable a ∧ g.blockNumber a = g.blockNumber x := by
  obtain ⟨a, ha, hi, ht⟩ := hc.placed _ _ h.1
  exact ⟨a, ha, (g.sameLine_iff a x).1 ⟨hi, ht.trans h.2⟩⟩

theorem not_covers_empty (x : Word) (w : Fin g.ways) : ¬ (Cache.empty g).Covers x w := by
  intro h
  have := h.1
  simp [line, empty, CacheLine.empty] at this

theorem sound_empty (map : SegmentMap) : (Cache.empty g).Sound map := by
  refine ⟨fun i w h => ?_, fun x w v h => absurd h (not_covers_empty x w)⟩
  simp [line, empty, CacheLine.empty] at h

/-! ## What only changes stamps and marks -/

/-- The lines hold the same blocks with the same bytes, and none has become clean. -/
structure SameBlocks (c d : Cache g) : Prop where
  valid : ∀ i w, (d.line i w).valid = (c.line i w).valid
  tag : ∀ i w, (d.line i w).tag = (c.line i w).tag
  data : ∀ i w, (d.line i w).data = (c.line i w).data
  dirty : ∀ i w, (c.line i w).dirty = true → (d.line i w).dirty = true

namespace SameBlocks

theorem of_line {c d : Cache g} (h : ∀ i w, d.line i w = c.line i w) : c.SameBlocks d := by
  refine ⟨fun i w => ?_, fun i w => ?_, fun i w => ?_, fun i w hd => ?_⟩
  · rw [h]
  · rw [h]
  · rw [h]
  · rw [h]
    exact hd

theorem trans {c d e : Cache g} (h : c.SameBlocks d) (h' : d.SameBlocks e) : c.SameBlocks e where
  valid i w := (h'.valid i w).trans (h.valid i w)
  tag i w := (h'.tag i w).trans (h.tag i w)
  data i w := (h'.data i w).trans (h.data i w)
  dirty i w hd := h'.dirty i w (h.dirty i w hd)

theorem covers {c d : Cache g} (h : c.SameBlocks d) (x : Word) (w : Fin g.ways) :
    d.Covers x w ↔ c.Covers x w := by
  rw [Covers, Covers, h.valid, h.tag]

theorem byteIn {c d : Cache g} (h : c.SameBlocks d) (w : Fin g.ways) (x : Word) :
    d.byteIn w x = c.byteIn w x := by
  simp only [Cache.byteIn, h.data]

theorem sound {c d : Cache g} {map : SegmentMap} (h : c.SameBlocks d) (hc : c.Sound map) :
    d.Sound map where
  placed i w hv := by
    rw [h.valid] at hv
    rw [h.tag]
    exact hc.placed i w hv
  single x w v hw hv := hc.single x w v ((h.covers x w).1 hw) ((h.covers x v).1 hv)

end SameBlocks

theorem sameBlocks_modifyLine (c : Cache g) (i : Fin g.setCount) (w : Fin g.ways)
    (f : CacheLine g → CacheLine g) (hvalid : ∀ l, (f l).valid = l.valid)
    (htag : ∀ l, (f l).tag = l.tag) (hdata : ∀ l, (f l).data = l.data)
    (hdirty : ∀ l, l.dirty = true → (f l).dirty = true) : c.SameBlocks (c.modifyLine i w f) := by
  refine ⟨?_, ?_, ?_, ?_⟩
  all_goals
    intro j v
    rw [line_modifyLine]
    split
    · rename_i h
      obtain ⟨rfl, rfl⟩ := h
      first | exact hvalid _ | exact htag _ | exact hdata _ | exact hdirty _
    · first | rfl | exact id

theorem sameBlocks_touch (c : Cache g) (i : Fin g.setCount) (w : Fin g.ways) :
    c.SameBlocks (c.touch i w) := by
  have h := sameBlocks_modifyLine c i w (fun l => { l with stamp := c.clock + 1 }) (fun _ => rfl)
    (fun _ => rfl) (fun _ => rfl) (fun _ h => h)
  exact h.trans (SameBlocks.of_line fun _ _ => rfl)

theorem sameBlocks_probe (c : Cache g) (a : Word) (kind : AccessKind) :
    c.SameBlocks (c.probe a kind).2 := by
  unfold probe
  cases c.way? a with
  | none => exact SameBlocks.of_line fun _ _ => rfl
  | some w =>
    have hcount : c.SameBlocks { c with counters.hits := c.counters.hits + 1 } :=
      SameBlocks.of_line fun _ _ => rfl
    refine (hcount.trans (sameBlocks_touch _ (g.index a) w)).trans ?_
    refine sameBlocks_modifyLine _ _ _ _ (fun _ => rfl) (fun _ => rfl) (fun _ => rfl) ?_
    intro l h
    simp [h]

/-! ## A store into a line -/

theorem line_writeIn (c : Cache g) (w : Fin g.ways) (a v : Word) (j : Fin g.setCount)
    (u : Fin g.ways) : (c.writeIn w a v).line j u =
      if g.index a = j ∧ w = u then
        { (c.touch (g.index a) w).line j u with
          dirty := true
          data := setWordAt ((c.touch (g.index a) w).line j u).data (g.wordOffset a) v }
      else (c.touch (g.index a) w).line j u := by
  rw [writeIn, line_modifyLine]
  split
  · rename_i h
    obtain ⟨rfl, rfl⟩ := h
    rfl
  · rfl

theorem covers_writeIn (c : Cache g) (w : Fin g.ways) (a v x : Word) (u : Fin g.ways) :
    (c.writeIn w a v).Covers x u ↔ c.Covers x u := by
  rw [← (sameBlocks_touch c (g.index a) w).covers x u, Covers, Covers, line_writeIn]
  split <;> exact Iff.rfl

theorem dirty_writeIn (c : Cache g) (w : Fin g.ways) (a v : Word) (i : Fin g.setCount)
    (u : Fin g.ways) (h : (c.line i u).dirty = true) :
    ((c.writeIn w a v).line i u).dirty = true := by
  rw [line_writeIn]
  split
  · rfl
  · exact (sameBlocks_touch c (g.index a) w).dirty i u h

theorem dirty_writeIn_self (c : Cache g) (w : Fin g.ways) (a v : Word) :
    ((c.writeIn w a v).line (g.index a) w).dirty = true := by
  rw [line_writeIn, if_pos ⟨rfl, rfl⟩]

theorem byteIn_writeIn {c : Cache g} {w : Fin g.ways} {a : Word} (ha : a.toNat % 8 = 0)
    (hw : c.Covers a w) (v : Word) {x : Word} {u : Fin g.ways} (hu : c.Covers x u) :
    (c.writeIn w a v).byteIn u x =
      if w = u ∧ Word.Within a 8 x then v.byte (x - a).toNat else c.byteIn u x := by
  have htouch := (sameBlocks_touch c (g.index a) w).byteIn u x
  by_cases h : g.index a = g.index x ∧ w = u
  · obtain ⟨hi, rfl⟩ := h
    -- the way holds both addresses, so that they lie in one block
    have hblock := blockNumber_eq_of_covers hi hw hu
    have hline := line_writeIn c w a v (g.index x) w
    rw [if_pos ⟨hi, rfl⟩] at hline
    simp only [byteIn, hline, getElem_setWordAt, g.wordOffset_eq ha]
    by_cases hin : g.offset a ≤ g.offset x ∧ g.offset x < g.offset a + 8
    · have hwithin := (g.within_eight_iff ha x).2 ⟨hblock.symm, hin⟩
      rw [if_pos hin, if_pos ⟨trivial, hwithin⟩, g.sub_eq_of_within_eight ha hwithin]
    · rw [if_neg hin, if_neg fun h => hin ((g.within_eight_iff ha x).1 h.2).2]
      exact htouch
  · have hnot : ¬ (w = u ∧ Word.Within a 8 x) := by
      rintro ⟨rfl, hx⟩
      have hblock := ((g.within_eight_iff ha x).1 hx).1
      exact h ⟨((g.sameLine_iff a x).2 hblock.symm).1, rfl⟩
    have hline := line_writeIn c w a v (g.index x) u
    rw [if_neg h] at hline
    rw [if_neg hnot, ← htouch]
    simp only [byteIn, hline]

theorem sound_writeIn {c : Cache g} {map : SegmentMap} (hc : c.Sound map) (w : Fin g.ways)
    (a v : Word) : (c.writeIn w a v).Sound map where
  placed i u hv := by
    have ht := sameBlocks_touch c (g.index a) w
    rw [line_writeIn] at hv ⊢
    split at hv <;> rename_i h
    · rw [if_pos h]
      obtain ⟨b, hb⟩ := (ht.sound hc).placed i u hv
      exact ⟨b, hb⟩
    · rw [if_neg h]
      exact (ht.sound hc).placed i u hv
  single x u u' hu hu' :=
    hc.single x u u' ((covers_writeIn c w a v x u).1 hu) ((covers_writeIn c w a v x u').1 hu')

/-! ## A block comes in -/

theorem line_fill (c : Cache g) (a : Word) (kind : AccessKind) (incoming : List Byte)
    (j : Fin g.setCount) (u : Fin g.ways) : (c.fill a kind incoming).2.line j u =
      if g.index a = j ∧ c.victim (g.index a) = u then
        ⟨true, kind == .write, g.tag a, c.clock + 1, blockOf g incoming⟩
      else c.line j u := by
  have htouch : ∀ (d : Cache g) (i : Fin g.setCount) (w : Fin g.ways), (d.touch i w).line j u =
      if i = j ∧ w = u then { d.line i w with stamp := d.clock + 1 } else d.line j u :=
    fun d i w => line_modifyLine d i j w u _
  rw [fill, htouch, line_modifyLine, line_modifyLine]
  split
  · rw [if_pos ⟨rfl, rfl⟩]
    rfl
  · rfl

/-- After a block has come in, the victim's way holds it and nothing else. -/
theorem covers_fill (c : Cache g) (a : Word) (kind : AccessKind) (incoming : List Byte)
    (x : Word) (u : Fin g.ways) : (c.fill a kind incoming).2.Covers x u ↔
      if g.index a = g.index x ∧ c.victim (g.index a) = u then g.blockNumber a = g.blockNumber x
      else c.Covers x u := by
  rw [Covers, line_fill]
  split
  · rename_i h
    rw [← g.sameLine_iff]
    exact ⟨fun ht => ⟨h.1, ht.2⟩, fun ht => ⟨rfl, ht.2⟩⟩
  · exact Iff.rfl

theorem covers_fill_self (c : Cache g) (a : Word) (kind : AccessKind) (incoming : List Byte) :
    (c.fill a kind incoming).2.Covers a (c.victim (g.index a)) := by
  rw [covers_fill, if_pos ⟨rfl, rfl⟩]

/-- A block that is absent may come in. -/
theorem sound_fill {c : Cache g} {map : SegmentMap} (hc : c.Sound map) {a : Word}
    (ha : map.Cacheable a) (habsent : ∀ w, ¬ c.Covers a w) (kind : AccessKind)
    (incoming : List Byte) : (c.fill a kind incoming).2.Sound map where
  placed i u hv := by
    rw [line_fill] at hv ⊢
    split at hv <;> rename_i h
    · rw [if_pos h]
      exact ⟨a, ha, h.1, rfl⟩
    · rw [if_neg h]
      exact hc.placed i u hv
  single x u v hu hv := by
    rw [covers_fill] at hu hv
    split at hu <;> rename_i h
    · split at hv <;> rename_i h'
      · rw [← h.2, ← h'.2]
      · exact absurd ((covers_congr hu).2 hv) (habsent v)
    · split at hv <;> rename_i h'
      · exact absurd ((covers_congr hv).2 hu) (habsent u)
      · exact hc.single x u v hu hv

end Cache

end FiveStage
