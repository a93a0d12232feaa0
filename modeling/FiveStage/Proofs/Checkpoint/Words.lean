import FiveStage.Checkpoint
import FiveStage.Proofs.Cache.Flat
import FiveStage.Proofs.Memory.Edits

/-!
# The doublewords of a machine

* `Bus.seen`, `Bus.byte_coherent_eq_seen` : the backing store with the dirty lines laid over it;
* `Simulation.HoldsWord` : a doubleword of a segment;
* `Checkpoint.mem_wordsOf`, `Checkpoint.pairwise_wordsOf` : what a checkpoint lists, and in which
  order; `Checkpoint.wordsOf_inj` : which is told by what is listed.
-/

namespace FiveStage

variable {a v : Word}

/-! ## The coherent view -/

/-- The bytes that dirty lines have for an address, by set and way. -/
def Cache.dirtyBytes {g : Geometry} (c : Cache g) (x : Word) : List Byte :=
  (List.finRange g.setCount).flatMap fun i =>
    (List.finRange g.ways).filterMap fun w =>
      if (c.line i w).valid && (c.line i w).dirty then
        runByte? x (g.blockAddress (c.line i w).tag i, (c.line i w).data.toList)
      else none

/-- The backing store with the dirty lines laid over it: of several bytes for one address the last
one stays. -/
def Bus.seen (b : Bus) : ByteMap := fun x =>
  match b.cached with
  | none => b.memory.byte x
  | some side => (side.cache.dirtyBytes x).getLast?.getD (b.memory.byte x)

namespace Cache

variable {g : Geometry}

theorem filterMap_dirtyLines (c : Cache g) (x : Word) :
    c.dirtyLines.filterMap (runByte? x) = c.dirtyBytes x := by
  rw [dirtyLines_eq, dirtyBytes, List.filterMap_flatMap]
  refine congrArg (fun f => List.flatMap f _) (funext fun i => ?_)
  rw [List.filterMap_map, List.filterMap_filter]
  rfl

end Cache

theorem Bus.byte_coherent_eq_seen (b : Bus) : b.coherent.byte = b.seen := by
  funext x
  unfold coherent seen
  cases b.cached with
  | none => rfl
  | some side =>
    refine (Memory.byte_writeRuns (fun run hrun => ?_) b.memory x).trans ?_
    · obtain ⟨i, w, -, -, rfl⟩ := Cache.mem_dirtyLines.1 hrun
      rw [Vector.length_toList]
      exact Nat.pow_le_pow_right (by decide) (by have := side.geometry.bits_le; omega)
    · rw [side.cache.filterMap_dirtyLines]

/-! ## What is listed -/

namespace Simulation

variable {s : Simulation}

/-- A doubleword other than zero stands at an address of a segment, a multiple of 8, as the program
sees memory. -/
structure HoldsWord (s : Simulation) (kind : SegmentKind) (a v : Word) : Prop where
  aligned : a.toNat % 8 = 0
  value : v.toNat = littleEndian (s.bus.seen.read a 8)
  nonzero : v ≠ 0
  segment : s.bus.segments.find a = some kind

theorem HoldsWord.of_seen {t : Simulation} {kind : SegmentKind} (h : s.HoldsWord kind a v)
    (hseen : t.bus.seen = s.bus.seen) (hsegments : t.bus.segments = s.bus.segments) :
    t.HoldsWord kind a v :=
  ⟨h.aligned, hseen ▸ h.value, h.nonzero, hsegments ▸ h.segment⟩

end Simulation

namespace Checkpoint

variable {s t : Simulation}

theorem mem_segmentWords {map : SegmentMap} {words : List (Word × Word)} {kind : SegmentKind} :
    (a, v) ∈ segmentWords map words kind ↔ (a, v) ∈ words ∧ map.find a = some kind := by
  rw [segmentWords]
  split
  · rw [List.mem_reverse, List.mem_filter, decide_eq_true_iff]
  · rw [List.mem_filter, decide_eq_true_iff]

/-- What is listed under a segment are its doublewords. -/
theorem mem_wordsOf {kind : SegmentKind} :
    (a, v) ∈ (ofSimulation s).wordsOf kind ↔ s.HoldsWord kind a v := by
  have hvalue : v = s.bus.coherent.word a ↔ v.toNat = littleEndian (s.bus.seen.read a 8) := by
    rw [← s.bus.byte_coherent_eq_seen, ← Memory.toNat_word, BitVec.toNat_inj]
  rw [ofSimulation, mem_segmentWords, Memory.mem_populatedWords, hvalue]
  constructor
  · rintro ⟨⟨haligned, hvalue, hnonzero⟩, hsegment⟩
    exact ⟨haligned, hvalue, hnonzero, hsegment⟩
  · rintro ⟨haligned, hvalue, hnonzero, hsegment⟩
    exact ⟨⟨haligned, hvalue, hnonzero⟩, hsegment⟩

/-- Upwards, except for the stack. -/
def Before (kind : SegmentKind) (p q : Word × Word) : Prop :=
  if kind = .stack then q.1 < p.1 else p.1 < q.1

theorem Before.ne {kind : SegmentKind} {p q : Word × Word} (h : Before kind p q) : p.1 ≠ q.1 := by
  intro heq
  rw [Before, heq, ite_self] at h
  exact absurd h (BitVec.lt_irrefl _)

theorem Before.asymm {kind : SegmentKind} {p q : Word × Word} (h : Before kind p q) :
    ¬ Before kind q p := by
  unfold Before at *
  split
  · rw [if_pos ‹_›] at h
    exact BitVec.lt_asymm h
  · rw [if_neg ‹_›] at h
    exact BitVec.lt_asymm h

/-- Doublewords are listed by address, those of the stack from the top. -/
theorem pairwise_wordsOf (s : Simulation) (kind : SegmentKind) :
    ((ofSimulation s).wordsOf kind).Pairwise (Before kind) := by
  have hwords := s.bus.coherent.pairwise_populatedWords
  show (segmentWords _ _ kind).Pairwise _
  unfold segmentWords Before
  split
  · exact List.pairwise_reverse.2 (hwords.filter _)
  · exact hwords.filter _

theorem nodup_wordsOf (s : Simulation) (kind : SegmentKind) :
    ((ofSimulation s).wordsOf kind).Nodup :=
  (pairwise_wordsOf s kind).imp fun hlt heq => hlt.ne (congrArg Prod.fst heq)

/-- The doublewords of a segment tell the list of them. -/
theorem wordsOf_inj (kind : SegmentKind) :
    (ofSimulation s).wordsOf kind = (ofSimulation t).wordsOf kind ↔
      ∀ a v, s.HoldsWord kind a v ↔ t.HoldsWord kind a v := by
  constructor
  · intro h a v
    rw [← mem_wordsOf, ← mem_wordsOf, h]
  · intro h
    refine List.Perm.eq_of_pairwise (fun p q _ _ hpq hqp => absurd hqp hpq.asymm)
      (pairwise_wordsOf s kind) (pairwise_wordsOf t kind) ?_
    rw [List.perm_ext_iff_of_nodup (nodup_wordsOf s kind) (nodup_wordsOf t kind)]
    rintro ⟨a, v⟩
    rw [mem_wordsOf, mem_wordsOf, h]

end Checkpoint

end FiveStage
