import FiveStage.Proofs.Checkpoint.Reading
import FiveStage.Proofs.Checkpoint.Words

/-!
# Checkpoints are faithful

* `Simulation.LooksLike` : two machines agree on what a checkpoint is about;
* `Checkpoint.ofSimulation_inj` : they do so when what is shown of them is the same;
* `Simulation.ListsWords` : a text lists the doublewords of a machine, each of them once;
* `Simulation.checkpoint_faithful` : both, for the text of a checkpoint.
-/

namespace FiveStage

namespace Simulation

/-- Two machines agree on the cycles, on the core, on the counters of the cache, and on the
doublewords of each segment. -/
structure LooksLike (s t : Simulation) : Prop where
  cycles : s.counters.cycles = t.counters.cycles
  pc : s.core.pc = t.core.pc
  sp : s.core.registers.sp = t.core.registers.sp
  flags : s.core.flags = t.core.flags
  registers : ∀ r < 31, s.core.registers.read r = t.core.registers.read r
  status : s.core.status = t.core.status
  cache : s.bus.counters = t.bus.counters
  words : ∀ kind a v, s.HoldsWord kind a v ↔ t.HoldsWord kind a v

/-- The doublewords of each segment stand under its name, upwards except for the stack, and no line
shows one of them a second time. -/
structure ListsWords (s : Simulation) (text : String) : Prop where
  sections : ∀ kind, ∃ words : List (Word × Word),
    Checkpoint.entriesUnder kind text = words.map Checkpoint.wordEntry ∧
    (∀ a v, (a, v) ∈ words ↔ s.HoldsWord kind a v) ∧
    words.Pairwise fun p q => if kind = .stack then q.1 < p.1 else p.1 < q.1
  once : ∀ kind a v, s.HoldsWord kind a v →
    (linesOf text).count (Checkpoint.wordEntry (a, v)) = 1

end Simulation

namespace Checkpoint

variable {s t : Simulation}

theorem ofSimulation_inj : ofSimulation s = ofSimulation t ↔ s.LooksLike t := by
  constructor
  · intro h
    have hcore : s.core = t.core := congrArg core h
    refine ⟨congrArg cycles h, by rw [hcore], by rw [hcore], by rw [hcore],
      fun r _ => by rw [hcore], by rw [hcore], congrArg cache h, fun kind => ?_⟩
    exact (wordsOf_inj kind).1 (congrArg (fun c => c.wordsOf kind) h)
  · intro h
    have hcore : s.core = t.core := by
      show Core.mk s.core.pc s.core.registers s.core.flags s.core.status = t.core
      rw [h.pc, RegisterFile.eq_of_shown h.sp h.registers, h.flags, h.status]
    have hwords : (ofSimulation s).wordsOf = (ofSimulation t).wordsOf :=
      funext fun kind => (wordsOf_inj kind).2 (h.words kind)
    show Checkpoint.mk s.counters.cycles s.core (ofSimulation s).wordsOf s.bus.counters =
      ofSimulation t
    rw [h.cycles, hcore, hwords, h.cache]
    rfl

/-- No doubleword is listed twice, in one segment or in two. -/
theorem nodup_sections (s : Simulation) :
    (SegmentKind.all.flatMap (ofSimulation s).wordsOf).Nodup := by
  refine List.pairwise_flatMap.2 ⟨fun kind _ => nodup_wordsOf s kind, ?_⟩
  -- an address lies in one segment only: the first that holds it
  have hkinds : SegmentKind.all.Pairwise (· ≠ ·) := by decide
  refine hkinds.imp fun hne => ?_
  rintro ⟨a, v⟩ hfirst q hsecond rfl
  exact hne (Option.some.inj
    ((mem_wordsOf.1 hfirst).segment.symm.trans (mem_wordsOf.1 hsecond).segment))

theorem count_wordEntry {kind : SegmentKind} {a v : Word} (hword : s.HoldsWord kind a v) :
    (linesOf s.checkpoint).count (wordEntry (a, v)) = 1 := by
  have hmem : (a, v) ∈ SegmentKind.all.flatMap (ofSimulation s).wordsOf :=
    List.mem_flatMap.2 ⟨kind, kind.mem_all, mem_wordsOf.2 hword⟩
  have hnodup : ((SegmentKind.all.flatMap (ofSimulation s).wordsOf).map wordEntry).Nodup :=
    List.pairwise_map.2 ((nodup_sections s).imp fun hne heq => hne (wordEntry_injective heq))
  rw [← List.count_filter (isEntry_wordEntry (a, v)), Simulation.checkpoint, filter_isEntry_text,
    hnodup.count, if_pos (List.mem_map_of_mem hmem)]

end Checkpoint

namespace Simulation

theorem listsWords_checkpoint (s : Simulation) : s.ListsWords s.checkpoint where
  sections kind := ⟨_, Checkpoint.entriesUnder_text _ kind, fun _ _ => Checkpoint.mem_wordsOf,
    Checkpoint.pairwise_wordsOf s kind⟩
  once _ _ _ hword := Checkpoint.count_wordEntry hword

/-- Two machines have the same checkpoint exactly if they look alike, and a checkpoint lists every
doubleword of the segments under the name of its own, once. -/
theorem checkpoint_faithful (s t : Simulation) :
    (s.checkpoint = t.checkpoint ↔ s.LooksLike t) ∧ s.ListsWords s.checkpoint := by
  refine ⟨?_, s.listsWords_checkpoint⟩
  rw [checkpoint, checkpoint, Checkpoint.text_inj]
  exact Checkpoint.ofSimulation_inj

/-- A store that stays in the cache shows, and a page of zeros does not. -/
theorem checkpoint_faithful_dirtyLine :
    let g : Geometry := ⟨1, 3, 3, 0, by decide, by decide, by decide⟩
    let s := start textStart (.start .empty .default (some g)) .serial defaultLimit
    let t := { s with bus := (s.bus.access dataStart .write 5).2 }
    let u := { t with bus.memory := (MemoryEdit.allocate heapStart).apply t.bus.memory }
    s.checkpoint ≠ t.checkpoint ∧ t.checkpoint = u.checkpoint ∧
      t.bus.memory.word dataStart = 0 ∧
      (linesOf t.checkpoint).count (Checkpoint.wordEntry (dataStart, 5)) = 1 := by
  intro g s t u
  have hword : t.HoldsWord .data dataStart 5 :=
    ⟨by decide, by decide +kernel, by decide, by decide⟩
  have hnone : ¬ s.HoldsWord .data dataStart 5 := fun h => by
    have hvalue : (5 : Word).toNat = littleEndian (s.bus.seen.read dataStart 8) := h.value
    revert hvalue
    decide +kernel
  have hseen : u.bus.seen = t.bus.seen := by
    have hbyte : u.bus.memory.byte = t.bus.memory.byte := MemoryEdit.byte_apply _ _
    unfold Bus.seen
    rw [hbyte]
  refine ⟨fun h => hnone (((checkpoint_faithful s t).1.1 h).words _ _ _ |>.2 hword),
    (checkpoint_faithful t u).1.2 ⟨rfl, rfl, rfl, rfl, fun _ _ => rfl, rfl, rfl, fun _ _ _ =>
      ⟨fun h => h.of_seen hseen rfl, fun h => h.of_seen hseen.symm rfl⟩⟩,
    by decide +kernel, (checkpoint_faithful t t).2.once _ _ _ hword⟩

end Simulation

end FiveStage
