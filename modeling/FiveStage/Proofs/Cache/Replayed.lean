import FiveStage.Proofs.Cache.Latency
import FiveStage.Trace.Replay

/-!
# The cache of the bus next to that of a trace

An access through the bus stamps its line twice, and a replayed one stamps it once.

* `LineMark`, `Cache.mark` : what a cache decides by, a line without its data;
* `Cache.mark_probe`, `Cache.mark_fill`, `Cache.mark_used` : what becomes of it;
* `Cache.Doubles` : the same marks with stamps twice as large; `Cache.Doubles.way?`,
  `Cache.Doubles.victim` : it makes the same choices; `Cache.Doubles.hit`, `Cache.Doubles.probed`,
  `Cache.Doubles.filled` : an access keeps it;
* `DataCall.Served`, `DataCall.ServedAll` : calls that are each made until they are answered;
* `Bus.Echoes` : an idle bus whose cache doubles that of a trace;
* `DataCall.served_as_replayed` : a list of calls does to the cache of a bus what a trace does.
-/

namespace FiveStage

/-! ## Marks -/

/-- A line without its data. -/
structure LineMark where
  valid : Bool
  dirty : Bool
  tag : Word
  stamp : Nat
  deriving DecidableEq

namespace LineMark

/-- The line has been used at a time. -/
def use (l : LineMark) (kind : AccessKind) (now : Nat) : LineMark :=
  { l with dirty := l.dirty || kind == .write, stamp := now }

/-- The line has been stamped twice as often. -/
def doubled (l : LineMark) : LineMark := { l with stamp := 2 * l.stamp }

theorem use_use (l : LineMark) (kind : AccessKind) (now later : Nat) :
    (l.use kind now).use kind later = l.use kind later := by
  simp [use]

theorem doubled_use (l : LineMark) (kind : AccessKind) (now : Nat) :
    (l.use kind now).doubled = l.doubled.use kind (2 * now) := rfl

end LineMark

/-- The mark of a line. -/
def CacheLine.mark {g : Geometry} (l : CacheLine g) : LineMark := ⟨l.valid, l.dirty, l.tag, l.stamp⟩

namespace Cache

variable {g : Geometry}

/-- The mark of the line in a way of a set. -/
def mark (c : Cache g) (i : Fin g.setCount) (w : Fin g.ways) : LineMark := (c.line i w).mark

/-- The cache after a load from or a store into a line. -/
def used (c : Cache g) (w : Fin g.ways) (a : Word) (kind : AccessKind) (v : Word) : Cache g :=
  match kind with
  | .read => (c.readIn w a).2
  | .write => c.writeIn w a v

theorem mark_modifyLine (c : Cache g) (i j : Fin g.setCount) (w u : Fin g.ways)
    (f : CacheLine g → CacheLine g) : (c.modifyLine i w f).mark j u =
      if i = j ∧ w = u then (f (c.line i w)).mark else c.mark j u := by
  unfold mark
  rw [line_modifyLine]
  split <;> rfl

theorem mark_touch (c : Cache g) (i j : Fin g.setCount) (w u : Fin g.ways) :
    (c.touch i w).mark j u =
      if i = j ∧ w = u then (c.mark j u).use .read (c.clock + 1) else c.mark j u := by
  have h := c.mark_modifyLine i j w u fun l => { l with stamp := c.clock + 1 }
  refine h.trans ?_
  split
  · rename_i heq
    obtain ⟨rfl, rfl⟩ := heq
    simp [mark, CacheLine.mark, LineMark.use]
  · rfl

/-- A line that is stamped, and made dirty by a write, has been used. -/
theorem mark_touch_modifyLine (c : Cache g) (i j : Fin g.setCount) (w u : Fin g.ways)
    (kind : AccessKind) (f : CacheLine g → CacheLine g)
    (hf : ∀ l, (f l).mark = { l.mark with dirty := l.mark.dirty || kind == .write }) :
    ((c.touch i w).modifyLine i w f).mark j u =
      if i = j ∧ w = u then (c.mark j u).use kind (c.clock + 1) else c.mark j u := by
  rw [mark_modifyLine]
  have htouch := c.mark_touch i j w u
  split
  · rename_i h
    rw [if_pos h] at htouch
    obtain ⟨rfl, rfl⟩ := h
    rw [mark] at htouch
    rw [hf, htouch]
    have hread : (AccessKind.read == .write) = false := rfl
    simp [LineMark.use, hread]
  · rename_i h
    rw [htouch, if_neg h]

theorem mark_probe {c : Cache g} {a : Word} {w : Fin g.ways} (hw : c.way? a = some w)
    (kind : AccessKind) (j : Fin g.setCount) (u : Fin g.ways) :
    (c.probe a kind).2.mark j u =
      if g.index a = j ∧ w = u then (c.mark j u).use kind (c.clock + 1) else c.mark j u := by
  unfold probe
  rw [hw]
  exact mark_touch_modifyLine { c with counters.hits := c.counters.hits + 1 } (g.index a) j w u
    kind _ fun _ => rfl

theorem mark_used (c : Cache g) (w : Fin g.ways) (a : Word) (kind : AccessKind) (v : Word)
    (j : Fin g.setCount) (u : Fin g.ways) : (c.used w a kind v).mark j u =
      if g.index a = j ∧ w = u then (c.mark j u).use kind (c.clock + 1) else c.mark j u := by
  cases kind with
  | read => exact c.mark_touch (g.index a) j w u
  | write =>
    refine mark_touch_modifyLine c (g.index a) j w u .write _ fun l => ?_
    simp [CacheLine.mark]

theorem mark_fill (c : Cache g) (a : Word) (kind : AccessKind) (incoming : List Byte)
    (j : Fin g.setCount) (u : Fin g.ways) : (c.fill a kind incoming).2.mark j u =
      if g.index a = j ∧ c.victim (g.index a) = u then
        ⟨true, kind == .write, g.tag a, c.clock + 1⟩
      else c.mark j u := by
  unfold mark
  rw [line_fill]
  split <;> rfl

theorem counters_used (c : Cache g) (w : Fin g.ways) (a : Word) (kind : AccessKind) (v : Word) :
    (c.used w a kind v).counters = c.counters ∧ (c.used w a kind v).clock = c.clock + 1 := by
  cases kind <;> exact ⟨rfl, rfl⟩

theorem counters_probe {c : Cache g} {a : Word} {w : Fin g.ways} (hw : c.way? a = some w)
    (kind : AccessKind) :
    (c.probe a kind).2.counters = { c.counters with hits := c.counters.hits + 1 } ∧
    (c.probe a kind).2.clock = c.clock + 1 := by
  unfold probe
  rw [hw]
  exact ⟨rfl, rfl⟩

theorem probe_of_absent {c : Cache g} {a : Word} (hw : c.way? a = none) (kind : AccessKind) :
    c.probe a kind = (false, { c with counters.misses := c.counters.misses + 1 }) := by
  unfold probe
  rw [hw]

theorem countEviction_congr {l k : CacheLine g} (hv : l.valid = k.valid) (hd : l.dirty = k.dirty)
    (n : CacheCounters) : countEviction l n = countEviction k n := by
  unfold countEviction
  rw [hv, hd]

end Cache

/-! ## Choices -/

theorem Vector.findFinIdx?_eq_some_iff {α : Type} {n : Nat} {p : α → Bool} {v : Vector α n}
    {i : Fin n} : v.findFinIdx? p = some i ↔ p (v.get i) = true ∧ ∀ j < i, p (v.get j) = false := by
  obtain ⟨a, rfl⟩ := v
  simp [Vector.findFinIdx?, Vector.get, Array.findFinIdx?_eq_some_iff]

/-- Whether the first element is found depends on what holds where. -/
theorem Vector.findFinIdx?_eq {α β : Type} {n : Nat} {p : α → Bool} {q : β → Bool}
    {v : Vector α n} {u : Vector β n} (h : ∀ i : Fin n, p (v.get i) = q (u.get i)) :
    v.findFinIdx? p = u.findFinIdx? q := by
  ext i
  simp only [findFinIdx?_eq_some_iff, h]

namespace Cache

variable {g : Geometry} {c r : Cache g}

/-- Where an address is found depends on which blocks are where. -/
theorem way?_congr {d : Cache g} (hvalid : ∀ i w, (d.line i w).valid = (c.line i w).valid)
    (htag : ∀ i w, (d.line i w).tag = (c.line i w).tag) (a : Word) : d.way? a = c.way? a := by
  refine Vector.findFinIdx?_eq fun w => ?_
  change ((d.line (g.index a) w).valid && (d.line (g.index a) w).tag == g.tag a) = _
  rw [hvalid, htag]
  rfl

/-- The lines of `c` have been stamped twice as often as those of `r`; else both have counted and
hold the same blocks. -/
structure Doubles (c r : Cache g) : Prop where
  mark : ∀ i w, c.mark i w = (r.mark i w).doubled
  counters : c.counters = r.counters
  clock : c.clock = 2 * r.clock

theorem doubles_empty (g : Geometry) : (empty g).Doubles (empty g) := by
  refine ⟨fun i w => ?_, rfl, rfl⟩
  simp [Cache.mark, line, empty, CacheLine.mark, CacheLine.empty, LineMark.doubled]

namespace Doubles

theorem valid (h : c.Doubles r) (i : Fin g.setCount) (w : Fin g.ways) :
    (c.line i w).valid = (r.line i w).valid := congrArg LineMark.valid (h.mark i w)

theorem dirty (h : c.Doubles r) (i : Fin g.setCount) (w : Fin g.ways) :
    (c.line i w).dirty = (r.line i w).dirty := congrArg LineMark.dirty (h.mark i w)

theorem tag (h : c.Doubles r) (i : Fin g.setCount) (w : Fin g.ways) :
    (c.line i w).tag = (r.line i w).tag := congrArg LineMark.tag (h.mark i w)

theorem stamp (h : c.Doubles r) (i : Fin g.setCount) (w : Fin g.ways) :
    (c.line i w).stamp = 2 * (r.line i w).stamp := congrArg LineMark.stamp (h.mark i w)

theorem way? (h : c.Doubles r) (a : Word) : c.way? a = r.way? a := way?_congr h.valid h.tag a

theorem oldestWay (h : c.Doubles r) (i : Fin g.setCount) : c.oldestWay i = r.oldestWay i := by
  have hlt : ∀ w u, (c.line i w).stamp < (c.line i u).stamp ↔
      (r.line i w).stamp < (r.line i u).stamp := by
    intro w u
    rw [h.stamp, h.stamp]
    omega
  unfold Cache.oldestWay
  simp only [hlt]

theorem victim (h : c.Doubles r) (i : Fin g.setCount) : c.victim i = r.victim i := by
  have hfind : (c.sets[i].findFinIdx? fun l => !l.valid) =
      r.sets[i].findFinIdx? fun l => !l.valid :=
    Vector.findFinIdx?_eq fun w => congrArg (!·) (h.valid i w)
  rw [Cache.victim, Cache.victim, hfind, h.oldestWay]

/-! ## Accesses -/

variable {a : Word} {kind : AccessKind}

/-- The block is there: looking it up and using it are two uses of the line. -/
theorem hit (h : c.Doubles r) {w : Fin g.ways} (hw : c.way? a = some w) (v : Word) :
    ((c.probe a kind).2.used w a kind v).Doubles (r.probe a kind).2 := by
  have hr : r.way? a = some w := (h.way? a).symm.trans hw
  obtain ⟨hcounters, hclock⟩ := counters_probe hw kind
  obtain ⟨hcounters', hclock'⟩ := counters_probe hr kind
  obtain ⟨hcounted, hticked⟩ := (c.probe a kind).2.counters_used w a kind v
  refine ⟨fun i u => ?_, ?_, ?_⟩
  · rw [mark_used, mark_probe hw, mark_probe hr, hclock, h.mark, h.clock]
    split
    · rw [LineMark.use_use, LineMark.doubled_use]
      rfl
    · rfl
  · rw [hcounted, hcounters, hcounters', h.counters]
  · rw [hticked, hclock, hclock', h.clock]
    rfl

/-- The block is not there: it is counted on both sides. -/
theorem probed (h : c.Doubles r) (hw : c.way? a = none) (kind : AccessKind) :
    (c.probe a kind).2.Doubles (r.probe a kind).2 := by
  rw [probe_of_absent hw, probe_of_absent ((h.way? a).symm.trans hw)]
  refine ⟨h.mark, ?_, h.clock⟩
  simp only [h.counters]

/-- Bringing a block in and using it are two uses of the line. -/
theorem filled (h : c.Doubles r) (a : Word) (kind : AccessKind) (incoming incoming' : List Byte)
    (v : Word) : ((c.fill a kind incoming).2.used (c.victim (g.index a)) a kind v).Doubles
      (r.fill a kind incoming').2 := by
  have hvictim := h.victim (g.index a)
  obtain ⟨hcounted, hticked⟩ := (c.fill a kind incoming).2.counters_used (c.victim (g.index a)) a
    kind v
  refine ⟨fun i u => ?_, ?_, ?_⟩
  · rw [mark_used, mark_fill, mark_fill, ← hvictim]
    split
    · change LineMark.mk true _ _ (c.clock + 1 + 1) = LineMark.mk true _ _ (2 * (r.clock + 1))
      rw [Bool.or_self, h.clock]
      rfl
    · exact h.mark i u
  · rw [hcounted]
    change countEviction (c.line _ (c.victim _)) c.counters =
      countEviction (r.line _ (r.victim _)) r.counters
    rw [← hvictim, h.counters]
    exact countEviction_congr (h.valid _ _) (h.dirty _ _) _
  · rw [hticked]
    change c.clock + 1 + 1 = 2 * (r.clock + 1)
    rw [h.clock]
    rfl

end Doubles

theorem replayOne_of_present {a : Word} {w : Fin g.ways} (hw : r.way? a = some w)
    (kind : AccessKind) : (r.replayOne ⟨kind, a⟩).2 = (r.probe a kind).2 := by
  unfold replayOne probe
  rw [hw]

theorem replayOne_of_absent {a : Word} (hw : r.way? a = none) (kind : AccessKind) :
    (r.replayOne ⟨kind, a⟩).2 = ((r.probe a kind).2.fill a kind []).2 := by
  unfold replayOne
  rw [probe_of_absent hw]

end Cache

/-! ## The cached side -/

namespace CachedSide

variable {g : Geometry} {c : Cache g} {side : CachedSide} {m : Memory} {a : Word}
  {kind : AccessKind} {v : Word}

theorem use_of_present {w : Fin g.ways} (hw : c.way? a = some w) (pending : Option Miss) :
    ((mk g c pending).use a kind v).2 = ⟨g, c.used w a kind v, pending⟩ := by
  have huse : (mk g c pending).cache.way? a = some w := hw
  unfold use
  rw [huse]
  cases kind <;> rfl

variable (m kind v) in
/-- Ending a miss uses the line of the victim, which holds the block by now. -/
theorem finish_of_absent {map : SegmentMap} (hc : c.Sound map) (ha : map.Cacheable a)
    (hw : c.way? a = none) (pending : Option Miss) :
    ∃ incoming, ((mk g c pending).finish m a kind v).2.2 =
      ⟨g, (c.fill a kind incoming).2.used (c.victim (g.index a)) a kind v, none⟩ := by
  refine ⟨m.readBytes (g.blockBase a) g.blockSize, ?_⟩
  have hway : (c.fill a kind (m.readBytes (g.blockBase a) g.blockSize)).2.way? a =
      some (c.victim (g.index a)) :=
    Cache.way?_eq_some (Cache.sound_fill hc ha (Cache.way?_eq_none_iff.1 hw) kind _)
      (Cache.covers_fill_self c a kind _)
  exact use_of_present hway none

/-- The side holds the cache that a trace leaves, but for stamps, and a miss in flight. -/
def Echoes (side : CachedSide) (r : Cache g) (pending : Option Miss) : Prop :=
  ∃ c : Cache g, side = ⟨g, c, pending⟩ ∧ c.Doubles r

variable {r : Cache g} {map : SegmentMap}

variable (m kind v) in
theorem access_of_present {w : Fin g.ways} (hd : c.Doubles r) (hw : c.way? a = some w) :
    (∃ value, ((mk g c none).access m a kind v).1 = .ready value) ∧
    ((mk g c none).access m a kind v).2.2.Echoes (r.replayOne ⟨kind, a⟩).2 none := by
  have hroute : (mk g c none).route a kind = .hits := by
    rw [route, freshRoute, hw]
    rfl
  have hsame := c.sameBlocks_probe a kind
  have hway : (c.probe a kind).2.way? a = some w :=
    (Cache.way?_congr hsame.valid hsame.tag a).trans hw
  unfold access
  rw [hroute]
  refine ⟨⟨_, rfl⟩, _, use_of_present hway none, ?_⟩
  rw [Cache.replayOne_of_present ((hd.way? a).symm.trans hw)]
  exact hd.hit hw v

variable (m kind v) in
/-- The block is absent: the miss is over at once, or begins. -/
theorem access_of_absent (hc : c.Sound map) (ha : map.Cacheable a) (hd : c.Doubles r)
    (hw : c.way? a = none) :
    if g.latency = 0 then
      (∃ value, ((mk g c none).access m a kind v).1 = .ready value) ∧
      ((mk g c none).access m a kind v).2.2.Echoes (r.replayOne ⟨kind, a⟩).2 none
    else
      ((mk g c none).access m a kind v).1 = .waiting ∧
      ((mk g c none).access m a kind v).2.2.Echoes (r.probe a kind).2
        (some ⟨a, kind, g.latency⟩) := by
  have hprobed := hd.probed hw kind
  have hsame := c.sameBlocks_probe a kind
  have hway : (c.probe a kind).2.way? a = none :=
    (Cache.way?_congr hsame.valid hsame.tag a).trans hw
  split
  · have hroute : (mk g c none).route a kind = .missEnds := by
      rw [route, freshRoute, hw]
      exact if_pos ‹_›
    obtain ⟨incoming, hfinish⟩ := finish_of_absent m kind v (hsame.sound hc) ha hway none
    unfold access
    rw [hroute, Cache.replayOne_of_absent ((hd.way? a).symm.trans hw)]
    exact ⟨⟨_, rfl⟩, _, hfinish, hprobed.filled a kind incoming [] v⟩
  · have hroute : (mk g c none).route a kind = .missStarts := by
      rw [route, freshRoute, hw]
      exact if_neg ‹_›
    unfold access
    rw [hroute]
    exact ⟨rfl, _, rfl, hprobed⟩

variable (m kind v) in
/-- A miss in flight is asked for again: it is over, or has one cycle less to go. -/
theorem access_of_pending (hc : c.Sound map) (ha : map.Cacheable a) (hd : c.Doubles r)
    (hw : c.way? a = none) (n : Nat) :
    let side : CachedSide := ⟨g, c, some ⟨a, kind, n⟩⟩
    if n ≤ 1 then
      (∃ value, (side.access m a kind v).1 = .ready value) ∧
      (side.access m a kind v).2.2.Echoes (r.fill a kind []).2 none
    else
      (side.access m a kind v).1 = .waiting ∧
      (side.access m a kind v).2.2.Echoes r (some ⟨a, kind, n - 1⟩) := by
  intro side
  split
  · have hroute : side.route a kind = .arrives := by
      simp only [route, side, and_self, if_true]
      exact if_pos ‹_›
    obtain ⟨incoming, hfinish⟩ := finish_of_absent m kind v hc ha hw (some ⟨a, kind, n⟩)
    unfold access
    rw [hroute]
    exact ⟨⟨_, rfl⟩, _, hfinish, hd.filled a kind incoming [] v⟩
  · have hroute : side.route a kind = .waits (n - 1) := by
      simp only [route, side, and_self, if_true]
      exact if_neg ‹_›
    unfold access
    rw [hroute]
    exact ⟨rfl, c, rfl, hd⟩

end CachedSide

/-! ## One call after the other -/

namespace DataCall

/-- The call is admitted and goes through a cache, if there is one. -/
def Cached (c : DataCall) (map : SegmentMap) : Prop :=
  isSpecial c.address = false ∧ map.checkData c.address c.kind = .ok ()

theorem cached_iff {c : DataCall} {map : SegmentMap} : c.Cached map ↔
    isSpecial c.address = false ∧ c.address.toNat % 8 = 0 ∧
      (map.permissionsAt c.address).allows c.kind = true := by
  refine and_congr_right fun hs => ⟨SegmentMap.of_checkData hs, ?_⟩
  rintro ⟨haligned, hallows⟩
  have hmod : c.address % 8 = 0 := BitVec.eq_of_toNat_eq (by simpa using haligned)
  unfold SegmentMap.checkData
  rw [hs, if_neg Bool.false_ne_true, if_neg (by simpa using hmod), if_pos hallows]

/-- The line of a trace that stands for a call. -/
def operation (c : DataCall) : Operation := ⟨c.kind, c.address⟩

/-- The call is made a number of times, and only the last one is answered. -/
inductive Served (c : DataCall) : Bus → Nat → Bus → Prop
  | ready {b : Bus} {v : Word} (h : (c.answer b).1 = .ok (.ready v)) : c.Served b 1 (c.answer b).2
  | waiting {b b' : Bus} {n : Nat} (h : (c.answer b).1 = .ok .waiting)
    (rest : c.Served (c.answer b).2 n b') : c.Served b (n + 1) b'

/-- Calls are made one after the other, each until it is answered. -/
inductive ServedAll : Bus → List DataCall → Bus → Prop
  | nil (b : Bus) : ServedAll b [] b
  | cons {c : DataCall} {b b' b'' : Bus} {n : Nat} {rest : List DataCall} (h : c.Served b n b')
    (later : ServedAll b' rest b'') : ServedAll b (c :: rest) b''

theorem Served.unique {c : DataCall} {b b' b'' : Bus} {n k : Nat} (h : c.Served b n b')
    (h' : c.Served b k b'') : n = k ∧ b' = b'' := by
  induction h generalizing k with
  | ready hr =>
    cases h' with
    | ready => exact ⟨rfl, rfl⟩
    | waiting hw =>
      rw [hr] at hw
      cases hw
  | waiting hw _ ih =>
    cases h' with
    | ready hr =>
      rw [hw] at hr
      cases hr
    | waiting _ rest =>
      obtain ⟨rfl, rfl⟩ := ih rest
      exact ⟨rfl, rfl⟩

theorem ServedAll.unique {b b' b'' : Bus} {calls : List DataCall} (h : ServedAll b calls b')
    (h' : ServedAll b calls b'') : b' = b'' := by
  induction h with
  | nil =>
    cases h'
    rfl
  | cons hc _ ih =>
    cases h' with
    | cons hc' later =>
      obtain ⟨-, rfl⟩ := hc.unique hc'
      exact ih later

end DataCall

namespace Bus

/-- The cache of the bus has been through what that of a trace has, and may wait for a miss. -/
structure Echoes {g : Geometry} (b : Bus) (map : SegmentMap) (r : Cache g)
    (pending : Option Miss) : Prop where
  sound : b.Sound
  segments : b.segments = map
  cached : ∃ side, b.cached = some side ∧ side.Echoes r pending

theorem echoes_start (g : Geometry) (map : SegmentMap) (m : Memory) :
    (start m map (some g)).Echoes map (Cache.empty g) none :=
  ⟨sound_start m map (some g), rfl, CachedSide.start g, rfl, Cache.empty g, rfl,
    Cache.doubles_empty g⟩

namespace Echoes

variable {g : Geometry} {b : Bus} {map : SegmentMap} {r : Cache g} {call : DataCall}
  {pending : Option Miss}

/-- A call that goes through the cache is answered by it. -/
theorem answer (h : b.Echoes map r pending) (hcall : call.Cached map) :
    ∃ c : Cache g, let side : CachedSide := ⟨g, c, pending⟩
      let out := side.access b.memory call.address call.kind call.value
      c.Doubles r ∧ side.Sound map ∧ (call.answer b).1 = .ok out.1 ∧
      ∀ (r' : Cache g) (pending' : Option Miss), out.2.2.Echoes r' pending' →
        (call.answer b).2.Echoes map r' pending' := by
  obtain ⟨hsound, hsegments, side, hside, c, rfl, hd⟩ := h
  obtain ⟨hpast, hadmitted⟩ := hcall
  have haccess := Bus.access_of_cached (by rw [hsegments]; exact hadmitted) hpast hside call.value
  refine ⟨c, hd, hsegments ▸ hsound _ hside, congrArg Prod.fst haccess, fun r' pending' hout => ?_⟩
  refine ⟨sound_access hsound, ?_, _, congrArg (fun p => p.2.cached) haccess, hout⟩
  rw [DataCall.answer, segments_access, hsegments]

/-- The miss of a call is waited for. -/
theorem served_pending (hcall : call.Cached map) {n : Nat} (hn : 0 < n)
    (h : b.Echoes map r (some ⟨call.address, call.kind, n⟩)) :
    ∃ b', call.Served b n b' ∧ b'.Echoes map (r.fill call.address call.kind []).2 none := by
  induction n generalizing b with
  | zero => cases hn
  | succ n ih =>
    obtain ⟨c, hd, hs, hreply, hnext⟩ := h.answer hcall
    have habsent := Cache.way?_eq_none_iff.2 (hs.absent _ rfl)
    have hout := CachedSide.access_of_pending b.memory call.kind call.value hs.lines
      ⟨hcall.1, _, hcall.2⟩ hd habsent (n + 1)
    simp only at hout
    split at hout
    · obtain ⟨⟨value, hvalue⟩, hechoes⟩ := hout
      rw [hvalue] at hreply
      obtain rfl : n = 0 := by omega
      exact ⟨_, .ready hreply, hnext _ _ hechoes⟩
    · obtain ⟨hwaits, hechoes⟩ := hout
      rw [hwaits] at hreply
      obtain ⟨b', hserved, hb'⟩ := ih (by omega) (hnext _ _ hechoes)
      exact ⟨b', .waiting hreply hserved, hb'⟩

/-- A call takes one turn, and as many more as a miss takes cycles. -/
theorem served (h : b.Echoes map r none) (hcall : call.Cached map) :
    ∃ b', call.Served b (if (r.way? call.address).isSome then 1 else g.latency + 1) b' ∧
      b'.Echoes map (r.replayOne call.operation).2 none := by
  obtain ⟨c, hd, hs, hreply, hnext⟩ := h.answer hcall
  rw [← hd.way?]
  cases hw : c.way? call.address with
  | some w =>
    obtain ⟨⟨value, hvalue⟩, hechoes⟩ :=
      CachedSide.access_of_present b.memory call.kind call.value hd hw
    rw [hvalue] at hreply
    exact ⟨_, .ready hreply, hnext _ _ hechoes⟩
  | none =>
    have hout := CachedSide.access_of_absent b.memory call.kind call.value hs.lines
      ⟨hcall.1, _, hcall.2⟩ hd hw
    split at hout
    · rename_i hl
      obtain ⟨⟨value, hvalue⟩, hechoes⟩ := hout
      rw [hvalue] at hreply
      rw [hl]
      exact ⟨_, .ready hreply, hnext _ _ hechoes⟩
    · rename_i hl
      obtain ⟨hwaits, hechoes⟩ := hout
      rw [hwaits] at hreply
      obtain ⟨b', hserved, hb'⟩ :=
        (hnext _ _ hechoes).served_pending hcall (Nat.pos_of_ne_zero hl)
      refine ⟨b', .waiting hreply hserved, ?_⟩
      rw [DataCall.operation, Cache.replayOne_of_absent ((hd.way? _).symm.trans hw)]
      exact hb'

theorem servedAll (h : b.Echoes map r none) {calls : List DataCall}
    (hcalls : ∀ call ∈ calls, call.Cached map) :
    ∃ b', DataCall.ServedAll b calls b' ∧
      b'.Echoes map (r.replay (calls.map DataCall.operation)) none := by
  induction calls generalizing b r with
  | nil => exact ⟨b, .nil b, h⟩
  | cons call rest ih =>
    obtain ⟨b', hserved, hb'⟩ := h.served (hcalls call List.mem_cons_self)
    obtain ⟨b'', hlater, hb''⟩ := ih hb' fun c hc => hcalls c (List.mem_cons_of_mem _ hc)
    exact ⟨b'', .cons hserved hlater, hb''⟩

end Echoes

end Bus

namespace DataCall

/-- Calls that go through the cache, each made until it is answered, leave the marks and the
counters that a trace of them leaves. The next call is answered at once if its block is present, and
else after the latency. -/
theorem served_as_replayed (g : Geometry) (map : SegmentMap) (m : Memory) (calls : List DataCall)
    (hcalls : ∀ call ∈ calls, call.Cached map) :
    let r := (Cache.empty g).replay (calls.map operation)
    ∃ (b : Bus) (c : Cache g),
      (∀ b', ServedAll (Bus.start m map (some g)) calls b' ↔ b' = b) ∧
      b.cached = some ⟨g, c, none⟩ ∧
      c.counters = r.counters ∧
      (∀ i w, (c.line i w).valid = (r.line i w).valid ∧ (c.line i w).tag = (r.line i w).tag ∧
        (c.line i w).dirty = (r.line i w).dirty) ∧
      ∀ next : DataCall, next.Cached map → ∀ n,
        (∃ b', next.Served b n b') ↔
          n = if (c.way? next.address).isSome then 1 else g.latency + 1 := by
  intro r
  obtain ⟨b, hserved, hechoes⟩ := (Bus.echoes_start g map m).servedAll hcalls
  obtain ⟨side, hside, c, rfl, hd⟩ := hechoes.cached
  refine ⟨b, c, fun b' => ⟨fun h => h.unique hserved, fun h => h ▸ hserved⟩, hside, hd.counters,
    fun i w => ⟨hd.valid i w, hd.tag i w, hd.dirty i w⟩, fun next hnext n => ?_⟩
  obtain ⟨b', hn, -⟩ := hechoes.served hnext
  rw [← hd.way?] at hn
  constructor
  · rintro ⟨b'', h⟩
    exact (h.unique hn).1
  · rintro rfl
    exact ⟨b', hn⟩

/-- A block that is stored into, displaced and stored into again, in a cache of one line. -/
theorem served_as_replayed_displaced :
    let g : Geometry := ⟨1, 3, 0, 2, by decide, by decide, by decide⟩
    let store : DataCall := ⟨heapStart, .write, 7⟩
    let other : DataCall := ⟨heapStart + 8, .read, 0⟩
    (∀ call ∈ [store, other, store], call.Cached .default) ∧
    ∃ (b : Bus) (c : Cache g),
      ServedAll (Bus.start .empty .default (some g)) [store, other, store] b ∧
      b.cached = some ⟨g, c, none⟩ ∧ c.counters = ⟨0, 3, 1, 1⟩ ∧
      (∃ b', store.Served b 1 b') ∧ ∃ b', other.Served b 3 b' := by
  intro g store other
  have hstore : store.Cached .default := cached_iff.2 (by decide +kernel)
  have hother : other.Cached .default := cached_iff.2 (by decide +kernel)
  have hcalls : ∀ call ∈ [store, other, store], call.Cached .default := by
    simp [hstore, hother]
  obtain ⟨b, c, hserved, hside, hcounters, hlines, hnext⟩ :=
    served_as_replayed g .default .empty [store, other, store] hcalls
  have hway := Cache.way?_congr (fun i w => (hlines i w).1) fun i w => (hlines i w).2.1
  refine ⟨hcalls, b, c, (hserved b).2 rfl, hside, ?_, (hnext store hstore 1).2 ?_,
    (hnext other hother 3).2 ?_⟩
  · rw [hcounters]
    decide +kernel
  · rw [hway]
    decide +kernel
  · rw [hway]
    decide +kernel

end DataCall

end FiveStage
