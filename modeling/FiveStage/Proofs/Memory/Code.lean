import FiveStage.Pipeline.Stages
import FiveStage.Proofs.Cache.Flat

/-!
# Code stays as it is

* `Bus.FixedAt` : every copy of a byte that no store reaches is the same, and stays so;
* `Bus.KeepsCode` : every copy of a byte that can be fetched is the one a program was loaded with;
* `Bus.keepsCode_access`, `Bus.keepsCode_memoryStage` : data accesses keep it, in a layout that
  protects code;
* `Bus.KeepsCode.fetchedWord` : what is fetched is then what was loaded.
-/

namespace FiveStage

namespace Bus

/-! ## What no store reaches -/

/-- Every copy of the byte at an address has one value, and no store is admitted there. -/
structure FixedAt (b : Bus) (x : Word) (y : Byte) : Prop where
  sound : b.Sound
  unstorable : ¬ b.segments.Storable x
  shows : b.Shows x y
  memory : b.memory.byte x = y

theorem fixedAt_start {map : SegmentMap} {x : Word} (h : ¬ map.Storable x) (m : Memory)
    (g : Option Geometry) : (start m map g).FixedAt x (m.byte x) :=
  ⟨sound_start m map g, h, shows_start m map g x, rfl⟩

variable {b : Bus} {code : Memory} {x : Word} {y : Byte}

theorem FixedAt.storedByte {a : Word} {kind : AccessKind} (h : b.FixedAt x y)
    (hc : b.segments.checkData a kind = .ok ()) (v : Word) (z : Byte) :
    CachedSide.storedByte a kind v x z = z := by
  rw [CachedSide.storedByte, if_neg]
  rintro ⟨rfl, hin⟩
  exact h.unstorable ⟨a, hc, hin⟩

theorem FixedAt.access (h : b.FixedAt x y) (a : Word) (kind : AccessKind) (v : Word) :
    (b.access a kind v).2.FixedAt x y := by
  refine ⟨sound_access h.sound, ?_, ?_, ?_⟩
  · rw [segments_access]
    exact h.unstorable
  · have hshows := shows_access a kind v h.sound h.shows ?_
    · rcases b.access_cases a kind v with ⟨e, -, h'⟩ | ⟨hc, -, h'⟩ | ⟨side, hc, -, -, h'⟩
      · rw [h'] at hshows ⊢
        exact hshows
      · rw [h'] at hshows ⊢
        rw [afterByte, h.storedByte hc] at hshows
        exact hshows
      · rw [h'] at hshows ⊢
        cases hr : (side.access b.memory a kind v).1 with
        | waiting =>
          rw [hr] at hshows
          exact hshows
        | ready value =>
          rw [hr, afterByte, h.storedByte hc] at hshows
          exact hshows
    · -- a store to a special address is admitted, too
      rintro hs rfl hin
      have hc : b.segments.checkData a .write = .ok () := by
        unfold SegmentMap.checkData
        rw [if_pos hs]
      exact absurd ⟨a, hc, hin⟩ h.unstorable
  · rcases b.access_cases a kind v with ⟨e, -, h'⟩ | ⟨hc, -, h'⟩ | ⟨side, hc, hs, hside, h'⟩
    · rw [h']
      exact h.memory
    · rw [h']
      change (b.direct a kind v).2.memory.byte x = y
      rw [direct_memory, h.storedByte hc, h.memory]
    · rw [h']
      have hshows := h.shows
      unfold Shows at hshows
      rw [hside] at hshows
      exact (answers_access h.sound hside hc hs).keeps x _ hshows h.memory

theorem FixedAt.memoryStage (h : b.FixedAt x y) (m : MemorySlot) :
    (memoryStage m b).2.FixedAt x y := by
  unfold FiveStage.memoryStage
  cases m.accessKind? with
  | none => exact h
  | some kind =>
    have hnext := h.access m.result kind m.valB
    simp only
    split <;> exact hnext

/-! ## Code that is protected -/

/-- Neither the backing store nor a line has another byte than `code` where instructions can be
fetched, and no store is admitted there. -/
structure KeepsCode (b : Bus) (code : Memory) : Prop where
  sound : b.Sound
  protects : b.segments.ProtectsCode
  shows : ∀ x, b.segments.Fetchable x → b.Shows x (code.byte x)
  memory : ∀ x, b.segments.Fetchable x → b.memory.byte x = code.byte x

theorem keepsCode_start {map : SegmentMap} (h : map.ProtectsCode) (m : Memory)
    (g : Option Geometry) : (start m map g).KeepsCode m :=
  ⟨sound_start m map g, h, fun x _ => shows_start m map g x, fun _ _ => rfl⟩

theorem KeepsCode.fixedAt (h : b.KeepsCode code) (hx : b.segments.Fetchable x) :
    b.FixedAt x (code.byte x) :=
  ⟨h.sound, fun hs => h.protects x hs hx, h.shows x hx, h.memory x hx⟩

theorem keepsCode_access (h : b.KeepsCode code) (a : Word) (kind : AccessKind) (v : Word) :
    (b.access a kind v).2.KeepsCode code := by
  have hsegments := segments_access b a kind v
  have hfixed : ∀ x, (b.access a kind v).2.segments.Fetchable x →
      (b.access a kind v).2.FixedAt x (code.byte x) := by
    intro x hx
    rw [hsegments] at hx
    exact (h.fixedAt hx).access a kind v
  refine ⟨sound_access h.sound, ?_, fun x hx => (hfixed x hx).shows,
    fun x hx => (hfixed x hx).memory⟩
  rw [hsegments]
  exact h.protects

theorem keepsCode_memoryStage (h : b.KeepsCode code) (m : MemorySlot) :
    (memoryStage m b).2.KeepsCode code := by
  unfold memoryStage
  cases m.accessKind? with
  | none => exact h
  | some kind =>
    have hnext := keepsCode_access h m.result kind m.valB
    simp only
    split <;> exact hnext

@[simp] theorem segments_memoryStage (b : Bus) (m : MemorySlot) :
    (memoryStage m b).2.segments = b.segments := by
  unfold memoryStage
  cases m.accessKind? with
  | none => rfl
  | some kind =>
    have hnext := segments_access b m.result kind m.valB
    simp only
    split <;> exact hnext

theorem KeepsCode.fetch (h : b.KeepsCode code) (pc : Word) :
    b.fetch pc = (start code b.segments none).fetch pc := by
  unfold Bus.fetch
  cases hc : b.segments.checkFetch pc with
  | error e => rw [start, hc]; rfl
  | ok u =>
    rw [start, hc]
    refine congrArg Except.ok (Memory.instrWord_congr fun x hin => ?_)
    exact h.memory x ⟨pc, hc, hin⟩

theorem KeepsCode.fetchedWord (h : b.KeepsCode code) (pc : Word) :
    fetchedWord b pc = FiveStage.fetchedWord (start code b.segments none) pc := by
  rw [FiveStage.fetchedWord, FiveStage.fetchedWord, h.fetch]

/-- Fetch does not see what memory does in the same cycle. -/
theorem KeepsCode.fetchStage_memoryStage (h : b.KeepsCode code) (f : FetchSlot) (x : ExecuteSlot)
    (m m' : MemorySlot) : fetchStage f x m (memoryStage m' b).2 = fetchStage f x m b := by
  have hword : FiveStage.fetchedWord (memoryStage m' b).2 (selectPc f x m) =
      FiveStage.fetchedWord b (selectPc f x m) := by
    rw [(keepsCode_memoryStage h m').fetchedWord, h.fetchedWord, segments_memoryStage]
  simp only [fetchStage, hword]

end Bus

end FiveStage
