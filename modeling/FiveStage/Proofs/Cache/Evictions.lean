import FiveStage.Proofs.Cache.Recency
import Mathlib.Data.Fintype.Prod

/-!
# What a replayed trace throws out

* `Geometry.SinceFill` : the part of a trace since a block was last brought in;
  `Geometry.WrittenSinceFill` : one of its accesses has written the block;
* `Cache.Marked` : the dirty lines are the blocks written since they were brought in;
  `Cache.Marked.step` : an access keeps it;
* `Cache.validLines`, `Cache.thrownOut` : what is there, and what a trace has thrown out;
* `Cache.Balanced` : the counters of a cache agree with both;
* `Cache.replay_accounts` : the counters, the victims and the dirty lines after any trace.
-/

namespace FiveStage

/-! ## The history of a block -/

namespace Geometry

variable {g : Geometry} {ops since : List Operation} {o : Operation} {b : Word}

/-- After a trace, an access does not find its block. -/
def Misses (g : Geometry) (ops : List Operation) (o : Operation) : Prop :=
  (((Cache.empty g).replay ops).probe o.address o.kind).1 = false

/-- The last part of a trace begins with the access that last brought a block in. -/
inductive SinceFill (g : Geometry) : List Operation → Word → List Operation → Prop where
  | fill {ops : List Operation} {o : Operation} {b : Word} (hb : g.blockBase o.address = b)
    (hmiss : g.Misses ops o) : SinceFill g (ops ++ [o]) b [o]
  | later {ops since : List Operation} {o : Operation} {b : Word} (h : SinceFill g ops b since)
    (hhit : g.blockBase o.address = b → ¬ g.Misses ops o) :
    SinceFill g (ops ++ [o]) b (since ++ [o])

/-- A block has been written since it was last brought in, if only by the access that did so. -/
def WrittenSinceFill (g : Geometry) (ops : List Operation) (b : Word) : Prop :=
  ∃ since, g.SinceFill ops b since ∧ ∃ o ∈ since, g.blockBase o.address = b ∧ o.kind = .write

/-- The last access has brought the block in, or comes after the one that did. -/
theorem sinceFill_snoc_iff : g.SinceFill (ops ++ [o]) b since ↔
    (g.blockBase o.address = b ∧ g.Misses ops o ∧ since = [o]) ∨
    ((g.blockBase o.address = b → ¬ g.Misses ops o) ∧
      ∃ before, g.SinceFill ops b before ∧ since = before ++ [o]) := by
  constructor
  · generalize hall : ops ++ [o] = all
    intro h
    cases h with
    | fill hb hmiss =>
      obtain ⟨rfl, hlast⟩ := List.append_inj' hall rfl
      obtain rfl := List.singleton_inj.1 hlast
      exact .inl ⟨hb, hmiss, rfl⟩
    | later h hhit =>
      obtain ⟨rfl, hlast⟩ := List.append_inj' hall rfl
      obtain rfl := List.singleton_inj.1 hlast
      exact .inr ⟨hhit, _, h, rfl⟩
  · rintro (⟨hb, hmiss, rfl⟩ | ⟨hhit, before, h, rfl⟩)
    · exact .fill hb hmiss
    · exact .later h hhit

theorem writtenSinceFill_of_other (hb : g.blockBase o.address ≠ b) :
    g.WrittenSinceFill (ops ++ [o]) b ↔ g.WrittenSinceFill ops b := by
  unfold WrittenSinceFill
  constructor
  · rintro ⟨since, h, p, hp, hpb, hwrite⟩
    rcases sinceFill_snoc_iff.1 h with ⟨hb', -⟩ | ⟨-, before, hbefore, rfl⟩
    · exact absurd hb' hb
    · rcases List.mem_append.1 hp with hp | hp
      · exact ⟨before, hbefore, p, hp, hpb, hwrite⟩
      · rw [List.mem_singleton.1 hp] at hpb
        exact absurd hpb hb
  · rintro ⟨since, h, p, hp, hpb, hwrite⟩
    exact ⟨_, .later h fun hb' => absurd hb' hb, p, List.mem_append_left _ hp, hpb, hwrite⟩

theorem writtenSinceFill_of_miss (hb : g.blockBase o.address = b) (hmiss : g.Misses ops o) :
    g.WrittenSinceFill (ops ++ [o]) b ↔ o.kind = .write := by
  unfold WrittenSinceFill
  constructor
  · rintro ⟨since, h, p, hp, -, hwrite⟩
    rcases sinceFill_snoc_iff.1 h with ⟨-, -, rfl⟩ | ⟨hhit, -⟩
    · rw [List.mem_singleton.1 hp] at hwrite
      exact hwrite
    · exact absurd hmiss (hhit hb)
  · intro hwrite
    exact ⟨[o], .fill hb hmiss, o, List.mem_singleton_self o, hb, hwrite⟩

theorem writtenSinceFill_of_hit (hb : g.blockBase o.address = b) (hhit : ¬ g.Misses ops o)
    (hfilled : ∃ since, g.SinceFill ops b since) :
    g.WrittenSinceFill (ops ++ [o]) b ↔ g.WrittenSinceFill ops b ∨ o.kind = .write := by
  constructor
  · rintro ⟨since, h, p, hp, hpb, hwrite⟩
    rcases sinceFill_snoc_iff.1 h with ⟨-, hmiss, -⟩ | ⟨-, before, hbefore, rfl⟩
    · exact absurd hmiss hhit
    · rcases List.mem_append.1 hp with hp | hp
      · exact .inl ⟨before, hbefore, p, hp, hpb, hwrite⟩
      · rw [List.mem_singleton.1 hp] at hwrite
        exact .inr hwrite
  · rintro (⟨since, h, p, hp, hpb, hwrite⟩ | hwrite)
    · exact ⟨_, .later h fun _ => hhit, p, List.mem_append_left _ hp, hpb, hwrite⟩
    · obtain ⟨since, h⟩ := hfilled
      exact ⟨_, .later h fun _ => hhit, o, List.mem_append_right _ (List.mem_singleton_self o), hb,
        hwrite⟩

theorem misses_iff : g.Misses ops o ↔
    g.blockBase o.address ∉ g.residents (g.index o.address) ops := by
  rw [← (Cache.follows_replay g ops).covers_iff, ← Cache.isSome_way?_iff,
    ← Cache.fst_probe _ _ o.kind, Bool.not_eq_true]
  rfl

/-- A block that has been accessed has been brought in. -/
theorem exists_sinceFill {p : Operation} (hp : p ∈ ops) :
    ∃ since, g.SinceFill ops (g.blockBase p.address) since := by
  induction ops using List.reverseRecOn generalizing p with
  | nil => cases hp
  | append_singleton ops o ih =>
    by_cases hmiss : g.blockBase o.address = g.blockBase p.address ∧ g.Misses ops o
    · exact ⟨[o], .fill hmiss.1 hmiss.2⟩
    · have hbefore : ∃ q ∈ ops, g.blockBase q.address = g.blockBase p.address := by
        rcases List.mem_append.1 hp with hp | hp
        · exact ⟨p, hp, rfl⟩
        · -- the access hits, so that its block has been accessed before
          obtain rfl := List.mem_singleton.1 hp
          have hres : g.blockBase p.address ∈ g.residents (g.index p.address) ops := by
            by_contra hout
            exact hmiss ⟨rfl, misses_iff.2 hout⟩
          obtain ⟨q, hq, -, hqb⟩ := mem_recency.1 (List.mem_of_mem_take hres)
          exact ⟨q, hq, hqb⟩
      obtain ⟨q, hq, hqb⟩ := hbefore
      obtain ⟨since, h⟩ := ih hq
      rw [hqb] at h
      exact ⟨_, .later h fun hb hm => hmiss ⟨hb, hm⟩⟩

end Geometry

namespace Cache

variable {g : Geometry} {c : Cache g} {i : Fin g.setCount} {w : Fin g.ways} {ops : List Operation}

/-! ## Dirty lines -/

/-- A valid line is found by the address of its block. -/
theorem Follows.covers_blockIn (h : c.Follows ops) (hv : (c.line i w).valid = true) :
    c.blockIn i w ∈ g.residents i ops ∧ (c.line i w).tag = g.tag (c.blockIn i w) := by
  obtain ⟨ws, hranked, htags⟩ := h i
  have htag := List.mem_map_of_mem (f := fun w => (c.line i w).tag) ((hranked.valid w).2 hv)
  rw [htags, List.mem_map] at htag
  obtain ⟨b, hb, hbt⟩ := htag
  obtain ⟨hi, hbase⟩ := Geometry.of_mem_residents hb
  have hblock : c.blockIn i w = b := by
    rw [blockIn, ← hbt, ← hi, g.blockAddress_eq, hbase]
  rw [hblock]
  exact ⟨hb, hbt.symm⟩

/-- An access uses the valid line that holds its block. -/
theorem Follows.place_eq (h : c.Follows ops) {a : Word} (hv : (c.line i w).valid = true)
    (ha : c.blockIn i w = g.blockBase a) : g.index a = i ∧ c.place a = w := by
  obtain ⟨hmem, htag⟩ := h.covers_blockIn hv
  have hi : g.index a = i := by
    rw [← g.index_blockBase a, ← ha]
    exact (Geometry.of_mem_residents hmem).1
  subst hi
  refine ⟨rfl, ?_⟩
  rw [ha, g.tag_blockBase] at htag
  cases hway : c.way? a with
  | none => exact absurd ⟨hv, htag⟩ (way?_eq_none_iff.1 hway w)
  | some v =>
    have hcov := covers_of_way? hway
    obtain ⟨u, -, hu⟩ := h.existsUnique_way hmem
    rw [place, hway, Option.getD_some, hu w ⟨hv, rfl⟩]
    exact hu v ⟨hcov.1, (blockIn_of_covers hcov).trans ha.symm⟩

/-- The valid lines that are dirty hold the blocks that have been written since they were brought
in. -/
def Marked (c : Cache g) (ops : List Operation) : Prop :=
  ∀ i w, (c.line i w).valid = true →
    ((c.line i w).dirty = true ↔ g.WrittenSinceFill ops (c.blockIn i w))

theorem marked_empty : (empty g).Marked [] := by
  intro i w hv
  simp [line, empty, CacheLine.empty] at hv

theorem blockIn_congr {d : Cache g} (h : d.mark i w = c.mark i w) :
    d.blockIn i w = c.blockIn i w := by
  have htag : (d.line i w).tag = (c.line i w).tag := congrArg LineMark.tag h
  rw [blockIn, blockIn, htag]

theorem misses_replay_iff {o : Operation} :
    g.Misses ops o ↔ (((empty g).replay ops).way? o.address) = none := by
  rw [Geometry.Misses, fst_probe, Option.isSome_eq_false_iff, Option.isNone_iff_eq_none]

/-- An access leaves the line it uses dirty exactly if its block has been written since it was
brought in, the access included. -/
theorem Marked.dirty_place (h : c.Marked ops) (hc : c = (empty g).replay ops) (o : Operation) :
    (((c.way? o.address).isSome && (c.mark (g.index o.address) (c.place o.address)).dirty) ||
      o.kind == .write) = true ↔ g.WrittenSinceFill (ops ++ [o]) (g.blockBase o.address) := by
  have hfollows : c.Follows ops := hc ▸ follows_replay g ops
  have hmisses : g.Misses ops o ↔ c.way? o.address = none := hc ▸ misses_replay_iff
  cases hway : c.way? o.address with
  | none =>
    rw [Geometry.writtenSinceFill_of_miss rfl (hmisses.2 hway)]
    simp
  | some v =>
    have hhit : ¬ g.Misses ops o := by
      rw [hmisses, hway]
      exact Option.some_ne_none v
    have hcov := covers_of_way? hway
    have hmem := (hfollows.covers_iff o.address).1 ⟨v, hcov⟩
    obtain ⟨p, hp, -, hpb⟩ := Geometry.mem_recency.1 (List.mem_of_mem_take hmem)
    have hfilled := Geometry.exists_sinceFill (g := g) hp
    rw [hpb] at hfilled
    have hold := h _ v hcov.1
    rw [blockIn_of_covers hcov] at hold
    have hplace : c.place o.address = v := by rw [place, hway, Option.getD_some]
    rw [Geometry.writtenSinceFill_of_hit rfl hhit hfilled, ← hold, hplace]
    simp [mark, CacheLine.mark]

theorem Marked.step (h : c.Marked ops) (hc : c = (empty g).replay ops) (o : Operation) :
    (c.replayOne o).2.Marked (ops ++ [o]) := by
  have hfollows : c.Follows ops := hc ▸ follows_replay g ops
  intro j u hv
  have hmark := c.mark_replayOne o j u
  by_cases hplace : g.index o.address = j ∧ c.place o.address = u
  · rw [if_pos hplace] at hmark
    obtain ⟨rfl, rfl⟩ := hplace
    have hblock : (c.replayOne o).2.blockIn (g.index o.address) (c.place o.address) =
        g.blockBase o.address := by
      have htag : ((c.replayOne o).2.line (g.index o.address) (c.place o.address)).tag =
          g.tag o.address := congrArg LineMark.tag hmark
      rw [blockIn, htag, g.blockAddress_eq]
    have hdirty : ((c.replayOne o).2.line (g.index o.address) (c.place o.address)).dirty = _ :=
      congrArg LineMark.dirty hmark
    rw [hblock, hdirty]
    exact h.dirty_place hc o
  · rw [if_neg hplace] at hmark
    have hvalid : (c.line j u).valid = true := (congrArg LineMark.valid hmark).symm.trans hv
    have hdirty : ((c.replayOne o).2.line j u).dirty = (c.line j u).dirty :=
      congrArg LineMark.dirty hmark
    have hother : g.blockBase o.address ≠ c.blockIn j u :=
      fun heq => hplace (hfollows.place_eq hvalid heq.symm)
    rw [blockIn_congr hmark, hdirty, Geometry.writtenSinceFill_of_other hother]
    exact h j u hvalid

theorem marked_replay (g : Geometry) (ops : List Operation) :
    ((empty g).replay ops).Marked ops := by
  induction ops using List.reverseRecOn with
  | nil => exact marked_empty
  | append_singleton ops o ih =>
    rw [replay_snoc]
    exact ih.step rfl o

/-! ## Counters -/

/-- The valid lines of a cache, by set and way. -/
def validLines (c : Cache g) : Finset (Fin g.setCount × Fin g.ways) :=
  Finset.univ.filter fun p => (c.line p.1 p.2).valid = true

theorem mem_validLines {p : Fin g.setCount × Fin g.ways} :
    p ∈ c.validLines ↔ (c.line p.1 p.2).valid = true := by
  rw [validLines, Finset.mem_filter]
  exact and_iff_right (Finset.mem_univ p)

/-- What a trace throws out, the first first. -/
def thrownOut (c : Cache g) : List Operation → List (Evicted g)
  | [] => []
  | o :: rest => (c.replayOne o).1.toList ++ (c.replayOne o).2.thrownOut rest

theorem thrownOut_snoc (c : Cache g) (ops : List Operation) (o : Operation) :
    c.thrownOut (ops ++ [o]) = c.thrownOut ops ++ ((c.replay ops).replayOne o).1.toList := by
  induction ops generalizing c with
  | nil => simp [thrownOut, replay]
  | cons p rest ih =>
    rw [List.cons_append, thrownOut, thrownOut, ih, List.append_assoc]
    rfl

/-- An access leaves the line it uses valid. -/
theorem validLines_replayOne (c : Cache g) (o : Operation) :
    (c.replayOne o).2.validLines =
      insert (g.index o.address, c.place o.address) c.validLines := by
  ext ⟨j, u⟩
  have hmark := c.mark_replayOne o j u
  rw [Finset.mem_insert, mem_validLines, mem_validLines, Prod.mk.injEq]
  by_cases hplace : g.index o.address = j ∧ c.place o.address = u
  · rw [if_pos hplace] at hmark
    have hvalid : ((c.replayOne o).2.line j u).valid = true := congrArg LineMark.valid hmark
    exact iff_of_true hvalid (.inl ⟨hplace.1.symm, hplace.2.symm⟩)
  · rw [if_neg hplace] at hmark
    have hvalid : ((c.replayOne o).2.line j u).valid = (c.line j u).valid :=
      congrArg LineMark.valid hmark
    rw [hvalid, or_iff_right fun h => hplace ⟨h.1.symm, h.2.symm⟩]

/-- What an access that misses throws out: the line of the victim. -/
theorem fst_replayOne_of_absent {o : Operation} (hw : c.way? o.address = none) :
    (c.replayOne o).1 = some (c.displaced o.address) := by
  unfold replayOne
  rw [probe_of_absent hw]
  rfl

theorem fst_replayOne_of_present {o : Operation} (hw : c.way? o.address = some w) :
    (c.replayOne o).1 = none := by
  unfold replayOne probe
  rw [hw]

/-- What is counted when a line is thrown out. -/
theorem countEviction_spec (l : CacheLine g) (n : CacheCounters) :
    (countEviction l n).hits = n.hits ∧ (countEviction l n).misses = n.misses ∧
    (countEviction l n).dirtyEvictions + (countEviction l n).cleanEvictions =
      n.dirtyEvictions + n.cleanEvictions + l.valid.toNat ∧
    (countEviction l n).dirtyEvictions = n.dirtyEvictions + (l.valid && l.dirty).toNat := by
  unfold countEviction
  cases l.valid <;> cases l.dirty <;> simp <;> omega

theorem counters_replayOne_of_absent {o : Operation} (hw : c.way? o.address = none) :
    (c.replayOne o).2.counters =
      countEviction (c.line (g.index o.address) (c.victim (g.index o.address)))
        { c.counters with misses := c.counters.misses + 1 } := by
  obtain ⟨kind, a⟩ := o
  rw [replayOne_of_absent hw, probe_of_absent hw]
  rfl

/-- The counters of a cache after a trace agree with what is there and what has been thrown out. -/
structure Balanced (c : Cache g) (accesses : Nat) (out : List (Evicted g)) : Prop where
  accesses : c.counters.hits + c.counters.misses = accesses
  lines : c.counters.dirtyEvictions + c.counters.cleanEvictions + c.validLines.card =
    c.counters.misses
  dirty : c.counters.dirtyEvictions = out.countP fun e => e.valid && e.dirty

theorem balanced_empty : (empty g).Balanced 0 [] := by
  refine ⟨rfl, ?_, rfl⟩
  have hnone : (empty g).validLines = ∅ := by
    ext p
    rw [mem_validLines]
    simp [line, empty, CacheLine.empty]
  rw [hnone]
  rfl

theorem Balanced.step {n : Nat} {out : List (Evicted g)} (h : c.Balanced n out) (o : Operation) :
    (c.replayOne o).2.Balanced (n + 1) (out ++ (c.replayOne o).1.toList) := by
  obtain ⟨haccesses, hlines, hdirty⟩ := h
  have hvalid := c.validLines_replayOne o
  cases hway : c.way? o.address with
  | some w =>
    have hcounters : (c.replayOne o).2.counters =
        { c.counters with hits := c.counters.hits + 1 } := by
      obtain ⟨kind, a⟩ := o
      rw [replayOne_of_present hway]
      exact (counters_probe hway kind).1
    have hmem : (g.index o.address, c.place o.address) ∈ c.validLines := by
      rw [mem_validLines, place, hway, Option.getD_some]
      exact (covers_of_way? hway).1
    rw [Finset.insert_eq_of_mem hmem] at hvalid
    rw [fst_replayOne_of_present hway, Option.toList_none, List.append_nil]
    refine ⟨?_, ?_, ?_⟩
    · rw [hcounters]
      change c.counters.hits + 1 + c.counters.misses = n + 1
      omega
    · rw [hcounters, hvalid]
      exact hlines
    · rw [hcounters]
      exact hdirty
  | none =>
    have hplace : c.place o.address = c.victim (g.index o.address) := by
      rw [place, hway, Option.getD_none]
    rw [hplace] at hvalid
    have hmem := mem_validLines (c := c) (p := (g.index o.address, c.victim (g.index o.address)))
    have hcounters := counters_replayOne_of_absent hway
    have hdisplaced : c.displaced o.address = evictedFrom (g.index o.address)
      (c.line (g.index o.address) (c.victim (g.index o.address))) := rfl
    rw [fst_replayOne_of_absent hway, Option.toList_some, hdisplaced]
    generalize c.line (g.index o.address) (c.victim (g.index o.address)) = l at hcounters hmem ⊢
    obtain ⟨hhits, hmisses, htotal, hdirties⟩ :=
      countEviction_spec l { c.counters with misses := c.counters.misses + 1 }
    rw [← hcounters] at hhits hmisses htotal hdirties
    simp only at hhits hmisses htotal hdirties
    refine ⟨by omega, ?_, ?_⟩
    · by_cases hl : l.valid = true
      · rw [hvalid, Finset.insert_eq_of_mem (hmem.2 hl)]
        rw [hl, Bool.toNat_true] at htotal
        omega
      · rw [hvalid, Finset.card_insert_of_notMem fun h => hl (hmem.1 h)]
        rw [Bool.eq_false_of_not_eq_true hl, Bool.toNat_false] at htotal
        omega
    · rw [hdirties, List.countP_append, List.countP_singleton, hdirty]
      cases hvd : l.valid && l.dirty <;> simp [evictedFrom, hvd]

theorem balanced_replay (g : Geometry) (ops : List Operation) :
    ((empty g).replay ops).Balanced ops.length ((empty g).thrownOut ops) := by
  induction ops using List.reverseRecOn with
  | nil => exact balanced_empty
  | append_singleton ops o ih =>
    rw [replay_snoc, thrownOut_snoc, List.length_append, List.length_singleton]
    exact ih.step o

/-! ## Victims and dirty lines -/

/-- The victim of a miss is valid exactly if the set is full, and is then the resident used longest
ago. -/
theorem Follows.victim (h : c.Follows ops) (i : Fin g.setCount) :
    ((c.line i (c.victim i)).valid = true ↔ ∀ w, (c.line i w).valid = true) ∧
    ((c.line i (c.victim i)).valid = true →
      (g.residents i ops).getLast? = some (c.blockIn i (c.victim i))) := by
  obtain ⟨ws, hranked, hblocks⟩ := h.blocks i
  have hfull : (c.line i (c.victim i)).valid = true → ∀ w, (c.line i w).valid = true := by
    intro hv
    rcases c.victim_spec i with hinv | ⟨hall, -⟩
    · rw [hv] at hinv
      cases hinv
    · exact hall
  refine ⟨⟨hfull, fun hall => hall _⟩, fun hv => ?_⟩
  obtain ⟨later, hlater⟩ := hranked.victim_of_full (hranked.full_iff.1 (hfull hv))
  rw [← hblocks, hlater, List.map_append, List.map_singleton, List.getLast?_concat]

theorem map_fst_dirtyLines (c : Cache g) :
    c.dirtyLines.map Prod.fst = (List.finRange g.setCount).flatMap fun i =>
      ((List.finRange g.ways).filter fun w => (c.line i w).valid && (c.line i w).dirty).map
        (c.blockIn i) := by
  rw [dirtyLines_eq, List.map_flatMap]
  refine List.flatMap_congr fun i _ => ?_
  rw [List.map_map]
  rfl

theorem Follows.nodup_dirtyLines (h : c.Follows ops) : (c.dirtyLines.map Prod.fst).Nodup := by
  rw [map_fst_dirtyLines, List.nodup_flatMap]
  have hvalid : ∀ {i w}, w ∈ (List.finRange g.ways).filter
      (fun w => (c.line i w).valid && (c.line i w).dirty) → (c.line i w).valid = true := by
    intro i w hw
    have hp := (List.mem_filter.1 hw).2
    rw [Bool.and_eq_true] at hp
    exact hp.1
  constructor
  · intro i _
    refine ((List.nodup_finRange g.ways).filter _).map_on fun w hw v hv heq => ?_
    obtain ⟨u, -, hu⟩ := h.existsUnique_way (h.covers_blockIn (hvalid hw)).1
    rw [hu w ⟨hvalid hw, rfl⟩, hu v ⟨hvalid hv, heq.symm⟩]
  · refine (List.nodup_finRange g.setCount).imp_of_mem fun {i j} _ _ hij b hi hj => hij ?_
    -- a block belongs to one set only
    obtain ⟨w, hw, rfl⟩ := List.mem_map.1 hi
    obtain ⟨v, hv, heq⟩ := List.mem_map.1 hj
    rw [← (Geometry.of_mem_residents (h.covers_blockIn (hvalid hw)).1).1, ← heq]
    exact (Geometry.of_mem_residents (h.covers_blockIn (hvalid hv)).1).1

theorem Follows.mem_map_fst_dirtyLines (h : c.Follows ops) (hmarked : c.Marked ops) (b : Word) :
    b ∈ c.dirtyLines.map Prod.fst ↔
      b ∈ g.residents (g.index b) ops ∧ g.WrittenSinceFill ops b := by
  rw [map_fst_dirtyLines]
  simp only [List.mem_flatMap, List.mem_finRange, true_and, List.mem_map, List.mem_filter,
    Bool.and_eq_true]
  constructor
  · rintro ⟨i, w, ⟨hv, hd⟩, rfl⟩
    obtain ⟨hmem, -⟩ := h.covers_blockIn hv
    obtain ⟨hi, -⟩ := Geometry.of_mem_residents hmem
    rw [hi]
    exact ⟨hmem, (hmarked i w hv).1 hd⟩
  · rintro ⟨hmem, hwritten⟩
    obtain ⟨w, ⟨hv, hb⟩, -⟩ := h.existsUnique_way hmem
    refine ⟨g.index b, w, ⟨hv, (hmarked _ w hv).2 ?_⟩, hb⟩
    rw [hb]
    exact hwritten

/-- Whatever trace is replayed: every access is a hit or a miss, and every block that came in is
still there or has been thrown out, dirty or clean. A miss throws out the resident of its set that
was used longest ago, if the set is full, and says that it is dirty exactly if it has been written
since it was brought in. The dirty lines are the residents written since then. -/
theorem replay_accounts (g : Geometry) (ops : List Operation) :
    let c := (empty g).replay ops
    c.counters.hits + c.counters.misses = ops.length ∧
    c.counters.dirtyEvictions + c.counters.cleanEvictions + c.validLines.card =
      c.counters.misses ∧
    c.counters.dirtyEvictions =
      (((empty g).thrownOut ops).countP fun out => out.valid && out.dirty) ∧
    (∀ next : Operation, (c.probe next.address next.kind).1 = false →
      ∃ out, (c.replayOne next).1 = some out ∧
        (out.valid = true ↔ ∀ w, (c.line (g.index next.address) w).valid = true) ∧
        (out.valid = true →
          (g.residents (g.index next.address) ops).getLast? = some out.address ∧
          (out.dirty = true ↔ g.WrittenSinceFill ops out.address))) ∧
    (c.dirtyLines.map Prod.fst).Nodup ∧
    ∀ b, b ∈ c.dirtyLines.map Prod.fst ↔
      b ∈ g.residents (g.index b) ops ∧ g.WrittenSinceFill ops b := by
  intro c
  have hfollows : c.Follows ops := follows_replay g ops
  have hmarked : c.Marked ops := marked_replay g ops
  obtain ⟨haccesses, hlines, hdirty⟩ := balanced_replay g ops
  refine ⟨haccesses, hlines, hdirty, fun next hmiss => ?_, hfollows.nodup_dirtyLines,
    hfollows.mem_map_fst_dirtyLines hmarked⟩
  rw [fst_probe, Option.isSome_eq_false_iff, Option.isNone_iff_eq_none] at hmiss
  obtain ⟨hfull, hlast⟩ := hfollows.victim (g.index next.address)
  exact ⟨_, fst_replayOne_of_absent hmiss, hfull, fun hv => ⟨hlast hv, hmarked _ _ hv⟩⟩

end Cache

end FiveStage
