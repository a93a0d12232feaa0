import FiveStage.Proofs.Elf.Written
import FiveStage.Proofs.Memory.Code

/-!
# Two stages at one bus

Fetch and memory use the same bus in every cycle.

* `Bus.memoryThenFetch`, `Bus.fetchThenMemory` : both stages, in either order;
* `SegmentMap.ShieldsCode` : no store reaches an instruction that is fetched;
* `Bus.orders_agree` : the order does not matter as long as the instruction is out of reach;
  `Bus.orders_differ` : it matters for a store into it;
* `Bus.order_irrelevant_iff` : the layouts in which the order never matters;
  `Bus.order_relevant_writableCode` : a file that is loaded into another layout.
-/

namespace FiveStage

/-! ## Bytes of words -/

theorem InstrWord.eq_of_ofBytes_eq {f f' : Nat → Byte} (h : ofBytes f = ofBytes f') :
    ∀ i < 4, f i = f' i := by
  have hnat := congrArg BitVec.toNat h
  rw [ofBytes, ofBytes, BitVec.toNat_ofNatLT, BitVec.toNat_ofNatLT] at hnat
  have hf := fun i => (f i).isLt
  have hf' := fun i => (f' i).isLt
  have h0 := hf 0; have h1 := hf 1; have h2 := hf 2; have h3 := hf 3
  have h0' := hf' 0; have h1' := hf' 1; have h2' := hf' 2; have h3' := hf' 3
  intro i hi
  apply BitVec.eq_of_toNat_eq
  obtain rfl | rfl | rfl | rfl : i = 0 ∨ i = 1 ∨ i = 2 ∨ i = 3 := by omega
  all_goals omega

theorem Word.byte_not_ne (w : Word) {k : Nat} (hk : k < 8) : (~~~w).byte k ≠ w.byte k := by
  intro h
  have hbit := congrArg (fun b => b.getLsbD 0) h
  simp only [byte_eq_extractLsb', BitVec.getLsbD_extractLsb', BitVec.getLsbD_not] at hbit
  simp [show 8 * k < 64 by omega] at hbit

namespace Memory

theorem byte_eq_of_instrWord_eq {m m' : Memory} {p x : Word} (h : m.instrWord p = m'.instrWord p)
    (hx : Word.Within p 4 x) : m.byte x = m'.byte x := by
  rw [instrWord_eq, instrWord_eq] at h
  have hbyte := InstrWord.eq_of_ofBytes_eq h (x - p).toNat hx
  rwa [Word.add_sub_toNat] at hbyte

theorem byte_word {m : Memory} {a x : Word} (hx : Word.Within a 8 x) :
    (m.word a).byte (x - a).toNat = m.byte x := by
  rw [word_eq, Word.byte_ofBytes _ _ hx, Word.add_sub_toNat]

end Memory

/-! ## Either order -/

namespace Bus

/-- Memory takes its turn before fetch: what fetch and memory yield, and the bus. -/
def memoryThenFetch (b : Bus) (f : FetchSlot) (x : ExecuteSlot) (m : MemorySlot) :
    (FetchSlot × DecodeSlot) × WriteSlot × Bus :=
  let (w, b) := memoryStage m b
  (fetchStage f x m b, w, b)

/-- Fetch takes its turn before memory: what fetch and memory yield, and the bus. -/
def fetchThenMemory (b : Bus) (f : FetchSlot) (x : ExecuteSlot) (m : MemorySlot) :
    (FetchSlot × DecodeSlot) × WriteSlot × Bus :=
  let fetched := fetchStage f x m b
  let (w, b) := memoryStage m b
  (fetched, w, b)

theorem orders_agree_iff (b : Bus) (f : FetchSlot) (x : ExecuteSlot) (m : MemorySlot) :
    b.memoryThenFetch f x m = b.fetchThenMemory f x m ↔
      fetchStage f x m (memoryStage m b).2 = fetchStage f x m b := by
  simp only [memoryThenFetch, fetchThenMemory, Prod.mk.injEq, and_true]

theorem fetch_memoryStage {b : Bus} {p : Word} {m : MemorySlot}
    (h : b.segments.checkFetch p = .ok () →
      (memoryStage m b).2.memory.instrWord p = b.memory.instrWord p) :
    (memoryStage m b).2.fetch p = b.fetch p := by
  unfold Bus.fetch
  rw [segments_memoryStage]
  cases hc : b.segments.checkFetch p with
  | error e => rfl
  | ok _ => exact congrArg Except.ok (h hc)

/-- Fetch sees the same before and after memory if no store reaches what it fetches. -/
theorem orders_agree {b : Bus} {f : FetchSlot} {x : ExecuteSlot} {m : MemorySlot}
    (h : ∀ a, selectPc f x m ≠ 0 → b.segments.checkFetch (selectPc f x m) = .ok () →
      Word.Within (selectPc f x m) 4 a → ∃ y, b.FixedAt a y) :
    b.memoryThenFetch f x m = b.fetchThenMemory f x m := by
  rw [orders_agree_iff]
  unfold fetchStage
  by_cases hpc : f.status = .halt ∨ selectPc f x m = 0
  · simp only [if_pos hpc]
  · have hfetch : (memoryStage m b).2.fetch (selectPc f x m) = b.fetch (selectPc f x m) := by
      refine fetch_memoryStage fun hc => Memory.instrWord_congr fun a ha => ?_
      obtain ⟨y, hy⟩ := h a (fun h0 => hpc (.inr h0)) hc ha
      rw [(hy.memoryStage m).memory, hy.memory]
    have hword : fetchedWord (memoryStage m b).2 (selectPc f x m) =
        fetchedWord b (selectPc f x m) := by
      unfold fetchedWord
      rw [hfetch]
    simp only [if_neg hpc, hword]

/-- A store of a doubleword that is about to take place. -/
def storing (a v : Word) : MemorySlot :=
  { opcode := .stur, memorySignals := { store := true }, result := a, valB := v, status := .ok }

theorem memoryStage_storing {b : Bus} (hb : b.cached = none) {a : Word}
    (hc : b.segments.checkData a .write = .ok ()) (v : Word) :
    (memoryStage (storing a v) b).2.memory = b.memory.setWord a v := by
  have hkind : (storing a v).accessKind? = some .write := rfl
  have haccess : b.access a .write v = (.ok (.ready 0), (b.direct a .write v).2) := by
    unfold access
    simp only [hc, hb, ite_self]
    rfl
  unfold memoryStage
  rw [hkind]
  simp only [storing, haccess]
  rfl

theorem selectPc_storing (p a v : Word) : selectPc ⟨p, .ok⟩ {} (storing a v) = p := by
  simp [selectPc, storing]

/-- A store into the instruction that is fetched in the same cycle is seen by fetch only if memory
takes its turn first. -/
theorem orders_differ {map : SegmentMap} {p a x : Word} (hp : p ≠ 0)
    (hf : map.checkFetch p = .ok ()) (hx : Word.Within p 4 x)
    (hc : map.checkData a .write = .ok ()) (hxa : Word.Within a 8 x) (m : Memory) :
    (start m map none).memoryThenFetch ⟨p, .ok⟩ {} (storing a (~~~m.word a)) ≠
      (start m map none).fetchThenMemory ⟨p, .ok⟩ {} (storing a (~~~m.word a)) := by
  intro heq
  rw [orders_agree_iff] at heq
  have hmemory : ∀ v, (memoryStage (storing a v) (start m map none)).2.memory = m.setWord a v :=
    fun v => memoryStage_storing (b := start m map none) rfl hc v
  have hword : (m.setWord a (~~~m.word a)).instrWord p = m.instrWord p := by
    have hslot := congrArg (fun out => out.2.word) heq
    simp only [fetchStage, selectPc_storing, hp, or_false, reduceCtorEq, if_false, fetchedWord,
      Bus.fetch, segments_memoryStage, hmemory] at hslot
    have hsegments : (start m map none).segments = map := rfl
    rw [hsegments, hf] at hslot
    exact hslot
  have hbyte := Memory.byte_eq_of_instrWord_eq hword hx
  rw [Memory.byte_setWord, if_pos hxa, ← Memory.byte_word hxa] at hbyte
  exact Word.byte_not_ne _ hxa hbyte

end Bus

/-! ## Any layout -/

namespace DataCall

/-- A bus after some calls. -/
def busAfter (b : Bus) (calls : List DataCall) : Bus := calls.foldl (fun b c => (c.answer b).2) b

@[simp] theorem segments_busAfter (b : Bus) (calls : List DataCall) :
    (busAfter b calls).segments = b.segments := by
  induction calls generalizing b with
  | nil => rfl
  | cons c rest ih => exact (ih _).trans (b.segments_access c.address c.kind c.value)

theorem fixedAt_busAfter {b : Bus} {x : Word} {y : Byte} (h : b.FixedAt x y)
    (calls : List DataCall) : (busAfter b calls).FixedAt x y := by
  induction calls generalizing b with
  | nil => exact h
  | cons c rest ih => exact ih (h.access c.address c.kind c.value)

end DataCall

/-- No store reaches an instruction that can be fetched. At address zero nothing is fetched. -/
def SegmentMap.ShieldsCode (map : SegmentMap) : Prop :=
  ∀ p x, p ≠ 0 → map.checkFetch p = .ok () → Word.Within p 4 x → ¬ map.Storable x

/-- The layouts in which the order of fetch and memory never matters, whatever the two stages hold
and whatever has gone through the bus before, are those in which no store reaches code. -/
theorem Bus.order_irrelevant_iff (map : SegmentMap) :
    (∀ (memory : Memory) (cache : Option Geometry) (calls : List DataCall) (f : FetchSlot)
        (x : ExecuteSlot) (m : MemorySlot),
      let b := DataCall.busAfter (Bus.start memory map cache) calls
      b.memoryThenFetch f x m = b.fetchThenMemory f x m) ↔ map.ShieldsCode := by
  constructor
  · rintro h p x hp hf hx ⟨a, hc, hxa⟩
    exact orders_differ hp hf hx hc hxa .empty (h .empty none [] _ _ _)
  · intro h memory cache calls f x m b
    have hsegments : b.segments = map := DataCall.segments_busAfter _ calls
    refine orders_agree fun a hp hc ha => ?_
    rw [hsegments] at hc
    exact ⟨_, DataCall.fixedAt_busAfter (fixedAt_start (h _ a hp hc ha) memory cache) calls⟩

/-- The file is loaded, and the store into its last instruction, in the cycle in which that
instruction is fetched, is seen or not seen by fetch as the order is. -/
theorem Bus.order_relevant_writableCode : ∃ file image,
    ObjectFile.open "prog.elf" (.ok writableCode) = .ok file ∧ file.load = .ok image ∧
    ∃ f x m, (start image.memory image.segments none).memoryThenFetch f x m ≠
      (start image.memory image.segments none).fetchThenMemory f x m := by
  obtain ⟨file, image, hopen, hload, hsegments⟩ := load_writableCode "prog.elf"
  have hfetch : writableLayout.checkFetch 0x400014 = .ok () := by rfl
  have hstore : writableLayout.checkData 0x400010 .write = .ok () := by rfl
  rw [← hsegments] at hfetch hstore
  exact ⟨file, image, hopen, hload, _, _, _, orders_differ (x := 0x400014) (by decide) hfetch
    (by decide) hstore (by decide) _⟩

end FiveStage
