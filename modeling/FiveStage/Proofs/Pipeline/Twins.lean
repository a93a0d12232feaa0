import FiveStage.Proofs.Cache.Latency
import FiveStage.Proofs.Pipeline.StageFacts

/-!
# A bus with a cache next to one without

* `Bus.Twins` : both show the same memory;
* `Bus.Waits` : the instruction in memory has to wait for a miss;
* `Bus.Twins.memoryStage`, `Bus.Twins.memoryStage_of_waits` : memory yields the same from both,
  unless it has to wait, and then nothing has changed;
* `Bus.Clocked` : the cycles waited so far and those to come are those of the misses counted;
* `Bus.clocked_fresh`, `Bus.clocked_again` : memory keeps the clock.
-/

namespace FiveStage

namespace Bus

/-- The bus `b` shows the memory that the bus `p`, which has no cache, has; and both have the code
that was loaded. -/
structure Twins (b p : Bus) (code : Memory) : Prop where
  plain : p.cached = none
  segments : b.segments = p.segments
  keeps : b.KeepsCode code
  keepsPlain : p.KeepsCode code
  mirrors : b.Mirrors p.memory

theorem twins_start {map : SegmentMap} {g : Geometry} (hcode : map.ProtectsCode)
    (hspecial : g.AvoidsSpecial map) (m : Memory) :
    (start m map (some g)).Twins (start m map none) m := by
  refine ⟨rfl, rfl, keepsCode_start hcode m _, keepsCode_start hcode m _, mirrors_start ?_⟩
  rintro _ ⟨⟩
  exact hspecial

/-- The instruction in memory has to wait for a miss. -/
def Waits (b : Bus) (m : MemorySlot) : Prop :=
  ∃ kind, m.accessKind? = some kind ∧ (b.access m.result kind m.valB).1 = .ok .waiting

variable {b p : Bus} {code : Memory} {m : MemorySlot}

theorem waits_iff {kind : AccessKind} (hk : m.accessKind? = some kind) :
    b.Waits m ↔ (b.access m.result kind m.valB).1 = .ok .waiting := by
  constructor
  · rintro ⟨kind', hk', hw⟩
    rw [hk] at hk'
    cases hk'
    exact hw
  · exact fun hw => ⟨kind, hk, hw⟩

theorem memoryStage_snd {kind : AccessKind} (hk : m.accessKind? = some kind) (b : Bus) :
    (memoryStage m b).2 = (b.access m.result kind m.valB).2 := by
  unfold memoryStage
  rw [hk]
  simp only
  split <;> rfl

/-- What memory yields depends on what it is answered. -/
theorem memoryStage_fst {kind : AccessKind} (hk : m.accessKind? = some kind) {b b' : Bus}
    (h : (b.access m.result kind m.valB).1 = (b'.access m.result kind m.valB).1) :
    (memoryStage m b).1 = (memoryStage m b').1 := by
  unfold memoryStage
  rw [hk]
  simp only [h]
  cases (b'.access m.result kind m.valB).1 with
  | error e => rfl
  | ok reply => cases reply <;> rfl

/-- Whether memory stops an instruction depends on the layout alone. -/
theorem status_memoryStage (h : b.segments = p.segments) (m : MemorySlot) :
    (memoryStage m b).1.status = (memoryStage m p).1.status := by
  have hstatus : ∀ c : Bus, ∀ kind, m.accessKind? = some kind → (memoryStage m c).1.status =
      if (c.segments.checkData m.result kind).isOk then m.status else .badAddress := by
    intro c kind hk
    unfold memoryStage
    rw [hk]
    simp only
    rcases c.access_cases m.result kind m.valB with ⟨e, hc, h'⟩ | ⟨hc, -, h'⟩ | ⟨side, hc, -, -, h'⟩
    · rw [h', hc]
      rfl
    · rw [h', hc]
      rfl
    · rw [h', hc]
      cases (side.access c.memory m.result kind m.valB).1 <;> rfl
  cases hk : m.accessKind? with
  | none => rw [memoryStage_of_none hk, memoryStage_of_none hk]
  | some kind => rw [hstatus b kind hk, hstatus p kind hk, h]

theorem Waits.status_memoryStage (h : b.Waits m) : (memoryStage m b).1.status = .ok := by
  obtain ⟨kind, hk, hr⟩ := h
  unfold memoryStage
  rw [hk]
  simp only [hr]
  false_or_by_contra
  rename_i hne
  rw [accessKind?_of_ne_ok hne] at hk
  cases hk

theorem access_of_refused {a : Word} {kind : AccessKind} {e : AccessError}
    (hc : b.segments.checkData a kind = .error e) (v : Word) :
    b.access a kind v = (.error e, b) := by
  unfold access
  rw [hc]

theorem access_plain (hp : p.cached = none) {a : Word} {kind : AccessKind}
    (hc : p.segments.checkData a kind = .ok ()) (v : Word) :
    p.access a kind v = (.ok (.ready (p.direct a kind v).1), (p.direct a kind v).2) := by
  rcases p.access_cases a kind v with ⟨e, he, -⟩ | ⟨-, -, h⟩ | ⟨side, -, -, hside, -⟩
  · rw [hc] at he
    cases he
  · exact h
  · rw [hp] at hside
    cases hside

theorem memory_direct (p : Bus) (a : Word) (kind : AccessKind) (v value : Word) :
    (p.direct a kind v).2.memory = p.memory.afterAccess a kind v (.ok (.ready value)) := by
  cases kind <;> rfl

/-- What an access loads from a bus with a cache is what it loads without one. -/
theorem Twins.value_eq (h : b.Twins p code) {a : Word} {kind : AccessKind} {v value : Word}
    (hready : (b.access a kind v).1 = .ok (.ready value)) : value = (p.direct a kind v).1 := by
  cases kind with
  | read => exact h.mirrors.load hready
  | write =>
    rcases b.access_cases a .write v with ⟨e, -, h'⟩ | ⟨-, -, h'⟩ | ⟨side, -, -, -, h'⟩
    · rw [h'] at hready
      cases hready
    · rw [h'] at hready
      exact (Reply.ready.inj (Except.ok.inj hready)).symm
    · rw [h'] at hready
      exact CachedSide.value_of_store (Except.ok.inj hready)

/-- An access that is answered has the same answer and the same effect with and without a cache. -/
theorem Twins.access (h : b.Twins p code) (a : Word) (kind : AccessKind) (v : Word)
    (hdone : (b.access a kind v).1 ≠ .ok .waiting) :
    (b.access a kind v).1 = (p.access a kind v).1 ∧
    (b.access a kind v).2.Mirrors (p.access a kind v).2.memory := by
  have hmirrors := mirrors_access a kind v h.mirrors
  cases hc : p.segments.checkData a kind with
  | error e =>
    rw [access_of_refused (h.segments ▸ hc), access_of_refused hc]
    exact ⟨rfl, h.mirrors⟩
  | ok u =>
    rw [access_plain h.plain hc]
    cases hr : (b.access a kind v).1 with
    | error e =>
      rcases b.access_cases a kind v with ⟨e, he, -⟩ | ⟨-, -, h'⟩ | ⟨side, -, -, -, h'⟩
      · rw [h.segments, hc] at he
        cases he
      · rw [h'] at hr
        cases hr
      · rw [h'] at hr
        cases hr
    | ok reply =>
      cases reply with
      | waiting => exact absurd hr hdone
      | ready value =>
        rw [hr] at hmirrors
        rw [h.value_eq hr, memory_direct p a kind v value]
        exact ⟨rfl, hmirrors⟩

/-- Memory yields the same with and without a cache, unless it has to wait. -/
theorem Twins.memoryStage (h : b.Twins p code) (hdone : ¬ b.Waits m) :
    (memoryStage m b).1 = (memoryStage m p).1 ∧
    (memoryStage m b).2.Twins (memoryStage m p).2 code := by
  have hframe : (FiveStage.memoryStage m p).2.cached = none ∧
      (FiveStage.memoryStage m b).2.segments = (FiveStage.memoryStage m p).2.segments ∧
      (FiveStage.memoryStage m b).2.KeepsCode code ∧
      (FiveStage.memoryStage m p).2.KeepsCode code := by
    refine ⟨cached_memoryStage h.plain m, ?_, keepsCode_memoryStage h.keeps m,
      keepsCode_memoryStage h.keepsPlain m⟩
    rw [segments_memoryStage, segments_memoryStage, h.segments]
  obtain ⟨hplain, hsegments, hkeeps, hkeepsPlain⟩ := hframe
  cases hk : m.accessKind? with
  | none =>
    rw [memoryStage_of_none hk, memoryStage_of_none hk]
    exact ⟨rfl, h⟩
  | some kind =>
    obtain ⟨hreply, hmirrors⟩ := h.access m.result kind m.valB
      fun hw => hdone ⟨kind, hk, hw⟩
    refine ⟨memoryStage_fst hk hreply, hplain, hsegments, hkeeps, hkeepsPlain, ?_⟩
    rw [memoryStage_snd hk, memoryStage_snd hk]
    exact hmirrors

theorem Twins.memoryStage_of_waits (h : b.Twins p code) (hw : b.Waits m) :
    (FiveStage.memoryStage m b).2.Twins p code := by
  obtain ⟨kind, hk, hr⟩ := hw
  have hmirrors := mirrors_access m.result kind m.valB h.mirrors
  rw [hr] at hmirrors
  refine ⟨h.plain, ?_, keepsCode_memoryStage h.keeps m, h.keepsPlain, ?_⟩
  · rw [segments_memoryStage, h.segments]
  · rw [memoryStage_snd hk]
    exact hmirrors

/-! ## The clock -/

/-- The cycles waited so far are those of the misses counted, but for those that the miss in flight
still has to wait after this one. -/
def Clocked (b : Bus) (g : Geometry) (stalls : Nat) (pending : Option Miss) : Prop :=
  ∃ side, b.cached = some side ∧ side.geometry = g ∧ side.pending = pending ∧
    stalls + (pending.elim 0 fun miss => miss.remaining - 1) = g.latency * side.misses

theorem clocked_start (m : Memory) (map : SegmentMap) (g : Geometry) :
    (start m map (some g)).Clocked g 0 none :=
  ⟨CachedSide.start g, rfl, rfl, rfl, rfl⟩

theorem Clocked.missInFlight {g : Geometry} {stalls : Nat} {pending : Option Miss}
    (h : b.Clocked g stalls pending) : b.missInFlight = pending.isSome := by
  obtain ⟨side, hside, -, hp, -⟩ := h
  rw [Bus.missInFlight, hside]
  exact congrArg Option.isSome hp

/-- A miss is in flight for what the instruction in memory asks for, which goes through the
cache. -/
structure AskedFor (map : SegmentMap) (m : MemorySlot) (miss : Miss) : Prop where
  kind : m.accessKind? = some miss.kind
  address : miss.address = m.result
  past : isSpecial m.result = false
  admitted : map.checkData m.result miss.kind = .ok ()
  remaining : 0 < miss.remaining

theorem clocked_direct {g : Geometry} {stalls : Nat} {pending : Option Miss}
    (h : b.Clocked g stalls pending) (a : Word) (kind : AccessKind) (v : Word) :
    (b.direct a kind v).2.Clocked g stalls pending := by
  obtain ⟨side, hside, hrest⟩ := h
  exact ⟨side, (b.direct_cached a kind v).1.trans hside, hrest⟩

/-- Memory, with no miss in flight: one begins, or the clock stays as it is. -/
theorem clocked_fresh {g : Geometry} {stalls : Nat} (hb : b.Sound)
    (h : b.Clocked g stalls none) (m : MemorySlot) :
    (b.Waits m → ∃ miss, AskedFor b.segments m miss ∧
      (memoryStage m b).2.Clocked g (stalls + 1) (some miss)) ∧
    (¬ b.Waits m → (memoryStage m b).2.Clocked g stalls none) := by
  cases hk : m.accessKind? with
  | none =>
    rw [memoryStage_of_none hk]
    refine ⟨fun hw => ?_, fun _ => h⟩
    obtain ⟨kind, hk', -⟩ := hw
    rw [hk] at hk'
    cases hk'
  | some kind =>
    rw [memoryStage_snd hk, waits_iff hk]
    rcases b.access_cases m.result kind m.valB with ⟨e, -, h'⟩ | ⟨-, -, h'⟩ |
      ⟨side, hc, hs, hside, h'⟩
    · rw [h']
      exact ⟨nofun, fun _ => h⟩
    · rw [h']
      exact ⟨nofun, fun _ => clocked_direct h _ _ _⟩
    · obtain ⟨side', hside', hg, hp, hcount⟩ := h
      obtain rfl : side = side' := Option.some.inj (hside.symm.trans hside')
      have hcount : stalls = g.latency * side.misses := hcount
      have hgeometry := (answers_access (v := m.valB) hb hside hc hs).geometry
      rw [h']
      rcases CachedSide.access_fresh b.memory m.result kind m.valB hp
        with ⟨value, hr, hp', hmiss⟩ | ⟨hr, hl, hp', hmiss⟩
      · rw [hr]
        refine ⟨nofun, fun _ => ⟨_, rfl, hgeometry.trans hg, hp', ?_⟩⟩
        rw [hg] at hmiss
        exact hcount.trans hmiss.symm
      · rw [hr]
        rw [hg] at hp' hl
        refine ⟨fun _ => ⟨_, ⟨hk, rfl, hs, hc, hl⟩, _, rfl, hgeometry.trans hg, hp', ?_⟩,
          fun hne => absurd rfl hne⟩
        change stalls + 1 + (g.latency - 1) = g.latency * _
        rw [hmiss, Nat.mul_succ, ← hcount]
        omega

/-- Memory, with a miss in flight: it has one cycle less to go, or is over. -/
theorem clocked_again {g : Geometry} {stalls : Nat} {miss : Miss} (hb : b.Sound)
    (h : b.Clocked g stalls (some miss)) (hm : AskedFor b.segments m miss) :
    (b.Waits m → 1 < miss.remaining ∧ (memoryStage m b).2.Clocked g (stalls + 1)
      (some { miss with remaining := miss.remaining - 1 })) ∧
    (¬ b.Waits m → (memoryStage m b).2.Clocked g stalls none) := by
  obtain ⟨hk, ha, hs, hc, hpos⟩ := hm
  obtain ⟨side, hside, hg, hp, hcount⟩ := h
  obtain ⟨address, kind, r⟩ := miss
  simp only at hk ha hc hpos ⊢
  subst ha
  have hcount : stalls + (r - 1) = g.latency * side.misses := hcount
  have hgeometry := (answers_access (v := m.valB) hb hside hc hs).geometry
  rw [memoryStage_snd hk, waits_iff hk, access_of_cached hc hs hside]
  rcases CachedSide.access_again (m := b.memory) (v := m.valB) hp with
    ⟨hr, value, hready, hp', hmiss⟩ | ⟨hr, hwait, hp', hmiss⟩
  · rw [hready]
    refine ⟨nofun, fun _ => ⟨_, rfl, hgeometry.trans hg, hp', ?_⟩⟩
    change stalls + 0 = g.latency * _
    rw [hmiss]
    omega
  · rw [hwait]
    refine ⟨fun _ => ⟨hr, _, rfl, hgeometry.trans hg, hp', ?_⟩, fun hne => absurd rfl hne⟩
    change stalls + 1 + (r - 1 - 1) = g.latency * _
    rw [hmiss]
    omega

end Bus

end FiveStage
