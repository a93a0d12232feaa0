import FiveStage.Proofs.Cache.Shown

/-!
# The bus as a flat memory

* `Bus.Shows`, `Bus.Sound`, `Bus.AvoidsSpecial` : what a bus shows of memory, and when it does so
  for good;
* `Memory.afterAccess` : a memory without a cache after an access with a given answer;
* `Bus.access_cases` : the four things that can become of an access;
* `Bus.shows_access`, `Bus.word_of_access` : one access;
* `Bus.byte_coherent` : the coherent view is what is shown;
* `DataCall.flat_after_calls` : any number of accesses behave as if there were no cache.
-/

namespace FiveStage

open CachedSide (storedByte)

/-! ## One access through the cache -/

namespace CachedSide

/-- What `CachedSide.Serves` says, of an access that may have to wait: nothing is stored then. -/
structure Answers (side : CachedSide) (m : Memory) (map : SegmentMap) (a : Word)
    (kind : AccessKind) (v : Word) (out : Reply × Memory × CachedSide) : Prop where
  sound : out.2.2.Sound map
  geometry : out.2.2.geometry = side.geometry
  shows : ∀ x b, side.cache.Shows m x b → out.2.2.cache.Shows out.2.1 x
    (if out.1 = .waiting then b else storedByte a kind v x b)
  keeps : ∀ x b, side.cache.Shows m x b → m.byte x = b → out.2.1.byte x = b
  loads : kind = .read → ∀ value, out.1 = .ready value → ∀ flat : Memory,
    (∀ x, Word.Within a 8 x → side.cache.Shows m x (flat.byte x)) → value = flat.word a

variable {side : CachedSide} {m : Memory} {map : SegmentMap} {a : Word} {kind : AccessKind}
  {v : Word}

theorem Serves.answers {out : Word × Memory × CachedSide}
    (h : side.Serves m map a kind v out) :
    side.Answers m map a kind v (.ready out.1, out.2.1, out.2.2) := by
  refine ⟨h.sound, h.geometry, fun x b hx => ?_, h.keeps, fun hk value he flat hx => ?_⟩
  · rw [if_neg (by simp)]
    exact h.shows x b hx
  · cases he
    exact h.loads hk flat hx

theorem answers_waiting {next : CachedSide} (hs : next.Sound map)
    (hg : next.geometry = side.geometry)
    (hshows : ∀ x b, side.cache.Shows m x b → next.cache.Shows m x b) :
    side.Answers m map a kind v (.waiting, m, next) :=
  ⟨hs, hg, fun x b hx => by rw [if_pos rfl]; exact hshows x b hx, fun _ _ _ hm => hm,
    fun _ _ he => by cases he⟩

/-- What was true before the lookup of an address is true after it. -/
theorem Serves.of_probed {out : Word × Memory × CachedSide}
    (h : (side.probed a kind).Serves m map a kind v out) : side.Serves m map a kind v out := by
  have hsame := side.cache.sameBlocks_probe a kind
  exact ⟨h.sound, h.geometry, fun x b hx => h.shows x b (hsame.shows hx),
    fun x b hx => h.keeps x b (hsame.shows hx),
    fun hk flat hx => h.loads hk flat fun x hin => hsame.shows (hx x hin)⟩

theorem answers_access (h : side.Sound map) (hmap : map.Cacheable a) (ha : a.toNat % 8 = 0) :
    side.Answers m map a kind v (side.access m a kind v) := by
  have hsame := side.cache.sameBlocks_probe a kind
  unfold access
  cases hr : side.route a kind with
  | waits n =>
    have habsent := absent_of_route h a kind (by rw [hr]; nofun)
    refine answers_waiting ⟨h.lines, ?_⟩ rfl fun _ _ hx => hx
    rintro _ ⟨⟩
    exact habsent
  | arrives =>
    have habsent := absent_of_route h a kind (by rw [hr]; nofun)
    exact (serves_finish h hmap ha habsent m kind v).answers
  | hits =>
    obtain ⟨w, hw⟩ := covers_of_route hr
    exact (serves_use (sound_probed h a kind) rfl ha ((hsame.covers a w).2 hw) m kind v
      |>.of_probed).answers
  | missStarts =>
    have habsent := absent_of_route h a kind (by rw [hr]; nofun)
    refine answers_waiting ⟨hsame.sound h.lines, ?_⟩ rfl fun _ _ hx => hsame.shows hx
    rintro _ ⟨⟩ w hw
    exact habsent w ((hsame.covers a w).1 hw)
  | missEnds =>
    have habsent := absent_of_route h a kind (by rw [hr]; nofun)
    have habsent' : ∀ w, ¬ (side.probed a kind).cache.Covers a w :=
      fun w hw => habsent w ((hsame.covers a w).1 hw)
    exact (serves_finish (sound_probed h a kind) hmap ha habsent' m kind v |>.of_probed).answers

end CachedSide

/-! ## One access to the bus -/

/-- A memory without a cache after an access that was answered as given. -/
def Memory.afterAccess (flat : Memory) (a : Word) (kind : AccessKind) (v : Word) :
    Except AccessError Reply → Memory
  | .ok (.ready _) => if kind = .write then flat.setWord a v else flat
  | .ok .waiting => flat
  | .error _ => flat

namespace Bus

/-- What the program sees at `x` is `y`. -/
def Shows (b : Bus) (x : Word) (y : Byte) : Prop :=
  match b.cached with
  | none => b.memory.byte x = y
  | some side => side.cache.Shows b.memory x y

/-- The cache, if there is one, is sound. -/
def Sound (b : Bus) : Prop := ∀ side, b.cached = some side → side.Sound b.segments

/-- No block of the cache, if there is one, reaches special addresses. -/
def AvoidsSpecial (b : Bus) : Prop :=
  ∀ side, b.cached = some side → side.geometry.AvoidsSpecial b.segments

variable {b : Bus} {a : Word} {kind : AccessKind} {v : Word}

theorem sound_start (m : Memory) (map : SegmentMap) (g : Option Geometry) :
    (start m map g).Sound := by
  intro side hside
  cases g with
  | none => cases hside
  | some g =>
    cases hside
    exact CachedSide.sound_start g map

theorem shows_start (m : Memory) (map : SegmentMap) (g : Option Geometry) (x : Word) :
    (start m map g).Shows x (m.byte x) := by
  cases g with
  | none => rfl
  | some g => exact Cache.shows_empty m x

/-- What can become of an access: it is refused, goes to the backing store, or goes through the
cache. -/
theorem access_cases (b : Bus) (a : Word) (kind : AccessKind) (v : Word) :
    (∃ e, b.segments.checkData a kind = .error e ∧ b.access a kind v = (.error e, b)) ∨
    (b.segments.checkData a kind = .ok () ∧ (isSpecial a = true ∨ b.cached = none) ∧
      b.access a kind v = (.ok (.ready (b.direct a kind v).1), (b.direct a kind v).2)) ∨
    (∃ side, b.segments.checkData a kind = .ok () ∧ isSpecial a = false ∧ b.cached = some side ∧
      b.access a kind v = (.ok (side.access b.memory a kind v).1,
        { b with
          memory := (side.access b.memory a kind v).2.1
          cached := some (side.access b.memory a kind v).2.2 })) := by
  unfold access
  cases hc : b.segments.checkData a kind with
  | error e => exact .inl ⟨e, rfl, rfl⟩
  | ok u =>
    cases hs : isSpecial a with
    | true => exact .inr (.inl ⟨rfl, .inl rfl, rfl⟩)
    | false =>
      cases hside : b.cached with
      | none => exact .inr (.inl ⟨rfl, .inr rfl, rfl⟩)
      | some side => exact .inr (.inr ⟨side, rfl, rfl, rfl, rfl⟩)

/-- An access that is admitted, past the special addresses, goes through the cache. -/
theorem access_of_cached {side : CachedSide} (hc : b.segments.checkData a kind = .ok ())
    (hs : isSpecial a = false) (hside : b.cached = some side) (v : Word) :
    b.access a kind v = (.ok (side.access b.memory a kind v).1,
      { b with
        memory := (side.access b.memory a kind v).2.1
        cached := some (side.access b.memory a kind v).2.2 }) := by
  unfold access
  simp only [hc, hs, Bool.false_eq_true, if_false, hside]

theorem direct_memory (b : Bus) (a : Word) (kind : AccessKind) (v x : Word) :
    (b.direct a kind v).2.memory.byte x = storedByte a kind v x (b.memory.byte x) := by
  cases kind with
  | read => rw [storedByte, if_neg (by simp)]; rfl
  | write => simp only [direct, Memory.byte_setWord, storedByte, true_and]

theorem direct_cached (b : Bus) (a : Word) (kind : AccessKind) (v : Word) :
    (b.direct a kind v).2.cached = b.cached ∧ (b.direct a kind v).2.segments = b.segments := by
  cases kind <;> exact ⟨rfl, rfl⟩

@[simp] theorem segments_access (b : Bus) (a : Word) (kind : AccessKind) (v : Word) :
    (b.access a kind v).2.segments = b.segments := by
  rcases b.access_cases a kind v with ⟨e, -, h⟩ | ⟨-, -, h⟩ | ⟨side, -, -, -, h⟩
  · rw [h]
  · rw [h]
    exact (b.direct_cached a kind v).2
  · rw [h]

theorem answers_access {side : CachedSide} (hb : b.Sound) (hside : b.cached = some side)
    (hc : b.segments.checkData a kind = .ok ()) (hs : isSpecial a = false) :
    side.Answers b.memory b.segments a kind v (side.access b.memory a kind v) :=
  CachedSide.answers_access (hb side hside) ⟨hs, kind, hc⟩ (SegmentMap.of_checkData hs hc).1

theorem sound_access (hb : b.Sound) : (b.access a kind v).2.Sound := by
  rcases b.access_cases a kind v with ⟨e, -, h⟩ | ⟨-, -, h⟩ | ⟨side, hc, hs, hside, h⟩
  · rw [h]
    exact hb
  · rw [h]
    intro side hside
    rw [(b.direct_cached a kind v).1] at hside
    rw [(b.direct_cached a kind v).2]
    exact hb side hside
  · rw [h]
    rintro _ ⟨⟩
    exact (answers_access hb hside hc hs).sound

theorem avoidsSpecial_access (hb : b.Sound) (ha : b.AvoidsSpecial) :
    (b.access a kind v).2.AvoidsSpecial := by
  rcases b.access_cases a kind v with ⟨e, -, h⟩ | ⟨-, -, h⟩ | ⟨side, hc, hs, hside, h⟩
  · rw [h]
    exact ha
  · rw [h]
    intro side hside
    rw [(b.direct_cached a kind v).1] at hside
    rw [(b.direct_cached a kind v).2]
    exact ha side hside
  · rw [h]
    rintro _ ⟨⟩
    have hg := (answers_access (v := v) hb hside hc hs).geometry
    change (side.access b.memory a kind v).2.2.geometry.AvoidsSpecial b.segments
    rw [hg]
    exact ha side hside

theorem access_of_error {e : AccessError} (h : (b.access a kind v).1 = .error e) :
    (b.access a kind v).2 = b := by
  rcases b.access_cases a kind v with ⟨e, -, h'⟩ | ⟨-, -, h'⟩ | ⟨side, -, -, -, h'⟩
  · rw [h']
  · rw [h'] at h
    cases h
  · rw [h'] at h
    cases h

/-- What an access that stores leaves at `x`, where `y` was before. -/
def afterByte (a : Word) (kind : AccessKind) (v x : Word) (y : Byte) :
    Except AccessError Reply → Byte
  | .ok (.ready _) => storedByte a kind v x y
  | .ok .waiting => y
  | .error _ => y

end Bus

theorem Memory.byte_afterAccess (flat : Memory) (a : Word) (kind : AccessKind) (v x : Word)
    (r : Except AccessError Reply) :
    (flat.afterAccess a kind v r).byte x = Bus.afterByte a kind v x (flat.byte x) r := by
  rcases r with e | ⟨value | -⟩
  · rfl
  · rw [afterAccess, Bus.afterByte, storedByte]
    cases kind with
    | read => simp
    | write => simp only [if_true, true_and, byte_setWord]
  · rfl

namespace Bus

variable {b : Bus} {a : Word} {kind : AccessKind} {v : Word}

variable (a kind v) in
/-- Whatever the bus shows, it shows after an access, but for what the access stores. A store to a
special address goes past the cache: it must not reach into a line. -/
theorem shows_access (hb : b.Sound) {x : Word} {y : Byte} (hx : b.Shows x y)
    (hpast : isSpecial a = true → kind = .write → Word.Within a 8 x →
      ∀ side, b.cached = some side → ∀ w, ¬ side.cache.Covers x w) :
    (b.access a kind v).2.Shows x (afterByte a kind v x y (b.access a kind v).1) := by
  rcases b.access_cases a kind v with ⟨e, -, h⟩ | ⟨-, hd, h⟩ | ⟨side, hc, hs, hside, h⟩
  · rw [h]
    exact hx
  · rw [h]
    have hm := b.direct_memory a kind v x
    unfold Shows at hx ⊢
    rw [(b.direct_cached a kind v).1]
    cases hside : b.cached with
    | none =>
      rw [hside] at hx
      simp only at hx ⊢
      rw [hm, hx]
      rfl
    | some side =>
      rw [hside] at hx
      simp only at hx ⊢
      have hs : isSpecial a = true := hd.resolve_right (by rw [hside]; nofun)
      by_cases hin : kind = .write ∧ Word.Within a 8 x
      · -- no line has the byte, so that the store is seen
        have hnone := hpast hs hin.1 hin.2 side hside
        refine ⟨fun w hw => absurd hw (hnone w), fun _ => ?_⟩
        rw [hm, hx.of_absent hnone]
        rfl
      · have hsame : ∀ c, storedByte a kind v x c = c := fun c => by rw [storedByte, if_neg hin]
        rw [afterByte, hsame]
        rw [hsame] at hm
        exact ⟨hx.resident, fun hclean => hm.trans (hx.behind hclean)⟩
  · rw [h]
    unfold Shows at hx ⊢
    rw [hside] at hx
    have hans := (answers_access (v := v) hb hside hc hs).shows x y hx
    cases hreply : (side.access b.memory a kind v).1 with
    | ready value =>
      rw [hreply, if_neg (by simp)] at hans
      exact hans
    | waiting =>
      rw [hreply, if_pos rfl] at hans
      exact hans

/-- A load that is done yields what the bus shows. -/
theorem word_of_access (hb : b.Sound) {flat : Memory}
    (hx : ∀ x, Word.Within a 8 x → b.Shows x (flat.byte x)) {value : Word}
    (h : (b.access a .read v).1 = .ok (.ready value)) (hs : isSpecial a = true →
      ∀ side, b.cached = some side → ∀ x w, Word.Within a 8 x → ¬ side.cache.Covers x w) :
    value = flat.word a := by
  rcases b.access_cases a .read v with ⟨e, -, h'⟩ | ⟨-, hd, h'⟩ | ⟨side, hc, hs', hside, h'⟩
  · rw [h'] at h
    cases h
  · rw [h'] at h
    rw [← Reply.ready.inj (Except.ok.inj h)]
    refine Memory.word_congr fun x hin => ?_
    have hsx := hx x hin
    unfold Shows at hsx
    cases hside : b.cached with
    | none =>
      rw [hside] at hsx
      exact hsx
    | some side =>
      rw [hside] at hsx
      refine hsx.of_absent fun w => ?_
      exact hs (hd.resolve_right (by rw [hside]; nofun)) side hside x w hin
  · rw [h'] at h
    have hans := (answers_access (v := v) hb hside hc hs').loads rfl value (Except.ok.inj h)
    refine hans flat fun x hin => ?_
    have hsx := hx x hin
    unfold Shows at hsx
    rw [hside] at hsx
    exact hsx

end Bus

/-! ## The coherent view -/

theorem Cache.dirtyLines_eq {g : Geometry} (c : Cache g) :
    c.dirtyLines = (List.finRange g.setCount).flatMap fun i =>
      ((List.finRange g.ways).filter fun w => (c.line i w).valid && (c.line i w).dirty).map
        fun w => (g.blockAddress (c.line i w).tag i, (c.line i w).data.toList) := by
  have hset : ∀ i : Fin g.setCount, c.sets[i].toList = (List.finRange g.ways).map (c.line i) := by
    intro i
    refine List.ext_getElem (by simp) fun n h h' => ?_
    simp [line]
  refine congrArg (fun f => List.flatMap f _) (funext fun i => ?_)
  rw [hset, List.filter_map, List.map_map]
  rfl

theorem Cache.mem_dirtyLines {g : Geometry} {c : Cache g} {r : Word × List Byte} :
    r ∈ c.dirtyLines ↔ ∃ i w, (c.line i w).valid = true ∧ (c.line i w).dirty = true ∧
      r = (g.blockAddress (c.line i w).tag i, (c.line i w).data.toList) := by
  simp only [dirtyLines, List.mem_flatMap, List.mem_map, List.mem_filter, Vector.mem_toList_iff,
    Bool.and_eq_true]
  constructor
  · rintro ⟨i, -, l, ⟨hl, hv, hd⟩, rfl⟩
    obtain ⟨w, hw, rfl⟩ := Vector.getElem_of_mem hl
    exact ⟨i, ⟨w, hw⟩, hv, hd, rfl⟩
  · rintro ⟨i, w, hv, hd, rfl⟩
    exact ⟨i, List.mem_finRange i, c.line i w, ⟨Vector.getElem_mem w.isLt, hv, hd⟩, rfl⟩

namespace Bus

variable {b : Bus}

/-- The coherent view is what the bus shows. -/
theorem byte_coherent (hb : b.Sound) {x : Word} {y : Byte} (hx : b.Shows x y) :
    b.coherent.byte x = y := by
  unfold coherent Shows at *
  cases hside : b.cached with
  | none =>
    rw [hside] at hx
    exact hx
  | some side =>
    rw [hside] at hx
    have hlines := (hb side hside).lines
    refine Memory.byte_writeRuns_of_agree (fun r hr => ?_) (fun r hr c hc => ?_) ?_
    · obtain ⟨i, w, -, -, rfl⟩ := Cache.mem_dirtyLines.1 hr
      rw [Vector.length_toList]
      exact Nat.pow_le_pow_right (by decide) (by have := side.geometry.bits_le; omega)
    · obtain ⟨i, w, hv, -, rfl⟩ := Cache.mem_dirtyLines.1 hr
      rw [runByte?, Cache.getElem?_lineBytes hlines hv] at hc
      split at hc
      · rename_i h
        obtain ⟨rfl, ht⟩ := h
        rw [← Option.some.inj hc]
        exact hx.resident w ⟨hv, ht⟩
      · cases hc
    · by_cases hclean : ∀ w, side.cache.Covers x w →
          (side.cache.line (side.geometry.index x) w).dirty = false
      · exact .inl (hx.behind hclean)
      · -- some dirty line holds the byte
        simp only [Classical.not_forall, Bool.not_eq_false] at hclean
        obtain ⟨w, hw, hd⟩ := hclean
        refine .inr ⟨_, Cache.mem_dirtyLines.2 ⟨_, w, hw.1, hd, rfl⟩, ?_⟩
        rw [runByte?, Cache.getElem?_lineBytes hlines hw.1, if_pos ⟨rfl, hw.2⟩, hx.resident w hw]

/-! ## Any number of accesses -/

/-- What the program sees is a flat memory. -/
structure Mirrors (b : Bus) (flat : Memory) : Prop where
  sound : b.Sound
  avoids : b.AvoidsSpecial
  shows : ∀ x, b.Shows x (flat.byte x)

theorem mirrors_start {m : Memory} {map : SegmentMap} {g : Option Geometry}
    (h : ∀ g', g = some g' → g'.AvoidsSpecial map) : (start m map g).Mirrors m := by
  refine ⟨sound_start m map g, fun side hside => ?_, shows_start m map g⟩
  cases g with
  | none => cases hside
  | some g =>
    cases hside
    exact h g rfl

/-- No line holds what special accesses reach. -/
theorem Mirrors.not_covers {flat : Memory} (h : b.Mirrors flat) {side : CachedSide}
    (hside : b.cached = some side) {x : Word} (hx : SpecialReach x) (w : Fin side.geometry.ways) :
    ¬ side.cache.Covers x w := by
  intro hw
  obtain ⟨a, ha, hblock⟩ := (h.sound side hside).lines.cacheable hw
  exact h.avoids side hside a x ha hx ((side.geometry.blockBase_eq_iff a x).2 hblock)

variable {flat : Memory} {a : Word} {kind : AccessKind} {v : Word}

variable (a kind v) in
theorem mirrors_access (h : b.Mirrors flat) : (b.access a kind v).2.Mirrors
    (flat.afterAccess a kind v (b.access a kind v).1) := by
  refine ⟨sound_access h.sound, avoidsSpecial_access h.sound h.avoids, fun x => ?_⟩
  rw [Memory.byte_afterAccess]
  exact shows_access a kind v h.sound (h.shows x) fun hs _ hin side hside w =>
    h.not_covers hside (specialReach_of_within hs hin) w

theorem Mirrors.load (h : b.Mirrors flat) {value : Word}
    (hload : (b.access a .read v).1 = .ok (.ready value)) : value = flat.word a :=
  word_of_access h.sound (fun x _ => h.shows x) hload fun hs _ hside _ w hin =>
    h.not_covers hside (specialReach_of_within hs hin) w

theorem Mirrors.coherent (h : b.Mirrors flat) (x : Word) : b.coherent.byte x = flat.byte x :=
  byte_coherent h.sound (h.shows x)

end Bus

/-- One call of the data port; a load ignores the value. -/
structure DataCall where
  address : Word
  kind : AccessKind
  value : Word
  deriving DecidableEq, Repr

namespace DataCall

/-- The answer to a call, and the bus after it. -/
def answer (c : DataCall) (b : Bus) : Except AccessError Reply × Bus :=
  b.access c.address c.kind c.value

/-- To see that a call is answered it is enough to compare values. -/
theorem eq_ok_of_toOption {ε α : Type} {answer : Except ε α} {value : α}
    (h : answer.toOption = some value) : answer = .ok value := by
  cases answer with
  | error e => cases h
  | ok r => exact congrArg Except.ok (Option.some.inj h)

/-- A bus and a flat memory after a call of the bus. The flat memory changes only if the call has
stored something. -/
def perform (p : Bus × Memory) (c : DataCall) : Bus × Memory :=
  ((c.answer p.1).2, p.2.afterAccess c.address c.kind c.value (c.answer p.1).1)

/-- A bus and a flat memory after some calls of the bus. -/
def performAll (p : Bus × Memory) (calls : List DataCall) : Bus × Memory := calls.foldl perform p

theorem mirrors_performAll {p : Bus × Memory} (h : p.1.Mirrors p.2) (calls : List DataCall) :
    (performAll p calls).1.Mirrors (performAll p calls).2 := by
  induction calls generalizing p with
  | nil => exact h
  | cons c rest ih => exact ih (Bus.mirrors_access _ _ _ h)

/-- After any calls whatsoever, the cached port answers the next call as a flat memory would: what
it loads is there, what anybody can see of memory agrees, and a refused call leaves no trace. -/
theorem flat_after_calls (g : Geometry) (map : SegmentMap) (m : Memory) (h : g.AvoidsSpecial map)
    (calls : List DataCall) (next : DataCall) :
    let before := performAll (Bus.start m map (some g), m) calls
    let after := perform before next
    (∀ v, next.kind = .read → (next.answer before.1).1 = .ok (.ready v) →
      v = before.2.word next.address) ∧
    (∀ x, after.1.coherent.byte x = after.2.byte x) ∧
    (∀ e, (next.answer before.1).1 = .error e → after.1 = before.1) := by
  intro before after
  have hbefore : before.1.Mirrors before.2 := by
    refine mirrors_performAll (Bus.mirrors_start ?_) calls
    rintro _ ⟨⟩
    exact h
  refine ⟨fun v hk hv => ?_, fun x => ?_, fun e he => ?_⟩
  · rw [answer, hk] at hv
    exact hbefore.load hv
  · exact (Bus.mirrors_access _ _ _ hbefore).coherent x
  · exact Bus.access_of_error he

/-- A doubleword that was stored, displaced by the only other block, and asked for again. -/
theorem flat_after_calls_displaced :
    let g : Geometry := ⟨1, 3, 0, 1, by decide, by decide, by decide⟩
    let store : DataCall := ⟨heapStart, .write, 7⟩
    let other : DataCall := ⟨heapStart + 8, .read, 0⟩
    let load : DataCall := ⟨heapStart, .read, 0⟩
    let before := performAll (Bus.start .empty .default (some g), .empty)
      [store, store, other, other, load]
    g.AvoidsSpecial .default ∧
    (load.answer before.1).1 = .ok (.ready 7) ∧ before.2.word heapStart = 7 ∧
    (∀ x, (perform before load).1.coherent.byte x = (perform before load).2.byte x) := by
  intro g store other load before
  have havoids := SegmentMap.avoidsSpecial_default g
  obtain ⟨hload, hbytes, -⟩ :=
    flat_after_calls g .default .empty havoids [store, store, other, other, load] load
  have hready : (load.answer before.1).1 = .ok (.ready 7) :=
    eq_ok_of_toOption (by decide +kernel)
  exact ⟨havoids, hready, (hload 7 rfl hready).symm, hbytes⟩

end DataCall

end FiveStage
