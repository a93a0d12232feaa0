import FiveStage.Proofs.Cache.Flat

/-!
# How long an access takes

* `Cache.misses_probe` : a probe counts a miss exactly if it finds nothing;
* `CachedSide.access_fresh` : without a miss in flight, an access is answered, or a miss is counted
  and takes its latency;
* `CachedSide.access_again` : a miss that is asked for again has one cycle less to go.
-/

namespace FiveStage

namespace Cache

variable {g : Geometry}

/-- The misses counted so far. -/
def misses (c : Cache g) : Nat := c.counters.misses

theorem misses_probe (c : Cache g) (a : Word) (kind : AccessKind) :
    (c.probe a kind).2.misses = if (c.way? a).isSome then c.misses else c.misses + 1 := by
  unfold probe
  cases c.way? a <;> rfl

theorem misses_fill (c : Cache g) (a : Word) (kind : AccessKind) (incoming : List Byte) :
    (c.fill a kind incoming).2.misses = c.misses := by
  change (countEviction _ c.counters).misses = c.counters.misses
  unfold countEviction
  split
  · split <;> rfl
  · rfl

end Cache

namespace CachedSide

variable {side : CachedSide} {m : Memory} {a : Word} {kind : AccessKind} {v : Word}

/-- The misses counted so far. -/
def misses (side : CachedSide) : Nat := side.cache.misses

theorem use_counts (side : CachedSide) (a : Word) (kind : AccessKind) (v : Word) :
    (side.use a kind v).2.pending = side.pending ∧ (side.use a kind v).2.misses = side.misses := by
  unfold use
  cases side.cache.way? a with
  | none => exact ⟨rfl, rfl⟩
  | some w => cases kind <;> exact ⟨rfl, rfl⟩

theorem finish_counts (side : CachedSide) (m : Memory) (a : Word) (kind : AccessKind) (v : Word) :
    (side.finish m a kind v).2.2.pending = none ∧
      (side.finish m a kind v).2.2.misses = side.misses := by
  obtain ⟨hp, hm⟩ := (side.refill m a kind).2.use_counts a kind v
  exact ⟨hp, hm.trans (side.cache.misses_fill a kind _)⟩

variable (m a kind v) in
/-- An access while no miss is in flight: it is answered at once, or a miss is counted. A miss that
is answered at once takes no time. -/
theorem access_fresh (hp : side.pending = none) :
    (∃ value, (side.access m a kind v).1 = .ready value ∧
      (side.access m a kind v).2.2.pending = none ∧
      side.geometry.latency * (side.access m a kind v).2.2.misses =
        side.geometry.latency * side.misses) ∨
    ((side.access m a kind v).1 = .waiting ∧ 0 < side.geometry.latency ∧
      (side.access m a kind v).2.2.pending = some ⟨a, kind, side.geometry.latency⟩ ∧
      (side.access m a kind v).2.2.misses = side.misses + 1) := by
  have hroute : side.route a kind = side.freshRoute a := by rw [route, hp]
  have hprobe : (side.probed a kind).misses =
      if (side.cache.way? a).isSome then side.misses else side.misses + 1 :=
    side.cache.misses_probe a kind
  unfold access
  rw [hroute, freshRoute]
  by_cases hsome : (side.cache.way? a).isSome = true
  · rw [if_pos hsome] at hprobe ⊢
    obtain ⟨hpend, hmiss⟩ := (side.probed a kind).use_counts a kind v
    exact .inl ⟨_, rfl, hpend, by rw [← hprobe, ← hmiss]⟩
  · rw [if_neg hsome] at hprobe ⊢
    by_cases hl : side.geometry.latency = 0
    · rw [if_pos hl]
      obtain ⟨hpend, -⟩ := (side.probed a kind).finish_counts m a kind v
      exact .inl ⟨_, rfl, hpend, by rw [hl, Nat.zero_mul, Nat.zero_mul]⟩
    · rw [if_neg hl]
      exact .inr ⟨rfl, Nat.pos_of_ne_zero hl, rfl, hprobe⟩

/-- A miss in flight that is asked for again. -/
theorem access_again {r : Nat} (hp : side.pending = some ⟨a, kind, r⟩) :
    (r ≤ 1 ∧ ∃ value, (side.access m a kind v).1 = .ready value ∧
      (side.access m a kind v).2.2.pending = none ∧
      (side.access m a kind v).2.2.misses = side.misses) ∨
    (1 < r ∧ (side.access m a kind v).1 = .waiting ∧
      (side.access m a kind v).2.2.pending = some ⟨a, kind, r - 1⟩ ∧
      (side.access m a kind v).2.2.misses = side.misses) := by
  unfold access
  rw [route, hp]
  simp only [and_self, if_true]
  by_cases hr : r ≤ 1
  · rw [if_pos hr]
    obtain ⟨hpend, hmiss⟩ := side.finish_counts m a kind v
    exact .inl ⟨hr, _, rfl, hpend, hmiss⟩
  · rw [if_neg hr]
    exact .inr ⟨Nat.lt_of_not_le hr, rfl, rfl, rfl⟩

/-- A store has nothing to say when it is done. -/
theorem value_of_store {value : Word} (h : (side.access m a .write v).1 = .ready value) :
    value = 0 := by
  have huse : ∀ t : CachedSide, (t.use a .write v).1 = 0 := by
    intro t
    unfold use
    cases t.cache.way? a <;> rfl
  unfold access at h
  split at h
  · cases h
  · exact (Reply.ready.inj h).symm.trans (huse _)
  · exact (Reply.ready.inj h).symm.trans (huse _)
  · cases h
  · exact (Reply.ready.inj h).symm.trans (huse _)

end CachedSide

end FiveStage
