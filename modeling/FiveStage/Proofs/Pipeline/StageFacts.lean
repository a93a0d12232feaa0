import FiveStage.Proofs.Memory.Code

/-!
# What the stages pass on

* `decodeStage_bubble`, `executeStage_bubble`, `memoryStage_of_ne_ok`, `writeStage_of_ne_ok` :
  bubbles and instructions that are not well pass through without an effect;
* `executeStage_passes`, `memoryStage_passes` : what an instruction carries along;
* `executeStage_again` : execute may be run again on the flags it has left;
* `WriteSignals.Wired`, `read_writeStage` : what a wired slot leaves in the registers is what it
  offers to decode.
-/

namespace FiveStage

/-! ## Decode and execute -/

theorem decodeStage_bubble (rf : RegisterFile) (p : Producers) : decodeStage {} rf p = {} := by
  have hops : (Instruction.decode nopWord .nop).operands = {} := rfl
  simp only [decodeStage, hops, firstOperand, Producers.forward, if_true]
  rfl

/-- What execute yields for a bubble. -/
def MemorySlot.idle : MemorySlot := { condHolds := true }

theorem executeStage_bubble (flags : Flags) : executeStage {} flags = (.idle, flags) := rfl

/-- What execute leaves as it is. -/
structure MemorySlot.From (m : MemorySlot) (x : ExecuteSlot) : Prop where
  opcode : m.opcode = x.opcode
  memorySignals : m.memorySignals = x.memorySignals
  writeSignals : m.writeSignals = x.writeSignals
  valB : m.valB = x.valB
  dst : m.dst = x.dst
  following : m.following = x.following
  status : m.status = x.status

theorem executeStage_passes (x : ExecuteSlot) (flags : Flags) :
    (executeStage x flags).1.From x := by
  unfold executeStage
  simp only
  split <;> exact ⟨rfl, rfl, rfl, rfl, rfl, rfl, rfl⟩

theorem flags_executeStage {x : ExecuteSlot} (h : x.executeSignals.setFlags = false)
    (flags : Flags) : (executeStage x flags).2 = flags := by
  unfold executeStage
  simp only
  split
  · rfl
  · rw [AluOp.run, h]
    rfl

/-- The flags an instruction leaves make no difference to it. -/
theorem executeStage_again (x : ExecuteSlot) (flags : Flags) :
    executeStage x (executeStage x flags).2 = executeStage x flags := by
  by_cases hset : x.executeSignals.setFlags = true
  · unfold executeStage
    simp only
    split
    · rfl
    · simp only [AluOp.run, hset, if_true]
  · rw [flags_executeStage (by simpa using hset)]

/-! ## Memory -/

/-- What memory leaves as it is. -/
structure WriteSlot.From (w : WriteSlot) (m : MemorySlot) : Prop where
  opcode : w.opcode = m.opcode
  writeSignals : w.writeSignals = m.writeSignals
  result : w.result = m.result
  dst : w.dst = m.dst
  status : w.status = m.status ∨ m.status = .ok ∧ w.status = .badAddress

theorem accessKind?_of_ne_ok {m : MemorySlot} (h : m.status ≠ .ok) : m.accessKind? = none := by
  rw [MemorySlot.accessKind?, if_neg h]

theorem memoryStage_of_none {m : MemorySlot} (h : m.accessKind? = none) (b : Bus) :
    memoryStage m b = (⟨m.opcode, m.writeSignals, m.result, 0, m.dst, m.status⟩, b) := by
  simp only [memoryStage, h]

theorem memoryStage_of_ne_ok {m : MemorySlot} (h : m.status ≠ .ok) (b : Bus) :
    memoryStage m b = (⟨m.opcode, m.writeSignals, m.result, 0, m.dst, m.status⟩, b) :=
  memoryStage_of_none (accessKind?_of_ne_ok h) b

theorem memoryStage_idle (c : Bool) (b : Bus) :
    memoryStage { condHolds := c } b = ({}, b) := rfl

theorem memoryStage_passes (m : MemorySlot) (b : Bus) : (memoryStage m b).1.From m := by
  unfold memoryStage
  cases hk : m.accessKind? with
  | none => exact ⟨rfl, rfl, rfl, rfl, .inl rfl⟩
  | some kind =>
    simp only
    split
    · exact ⟨rfl, rfl, rfl, rfl, .inl rfl⟩
    · exact ⟨rfl, rfl, rfl, rfl, .inl rfl⟩
    · refine ⟨rfl, rfl, rfl, rfl, .inr ⟨?_, rfl⟩⟩
      false_or_by_contra
      rename_i hne
      rw [accessKind?_of_ne_ok hne] at hk
      cases hk

theorem bus_memoryStage_of_ne_ok {m : MemorySlot} {b : Bus}
    (h : (memoryStage m b).1.status ≠ .ok) : (memoryStage m b).2 = b := by
  by_cases hm : m.status = .ok
  · unfold memoryStage at h ⊢
    cases hk : m.accessKind? with
    | none => rfl
    | some kind =>
      rw [hk] at h
      simp only at h ⊢
      cases hr : (b.access m.result kind m.valB).1 with
      | error e =>
        have hb := Bus.access_of_error hr
        split <;> exact hb
      | ok reply =>
        rw [hr] at h
        cases reply <;> exact absurd hm h
  · rw [memoryStage_of_ne_ok hm]

theorem cached_memoryStage {b : Bus} (h : b.cached = none) (m : MemorySlot) :
    (memoryStage m b).2.cached = none := by
  have haccess : ∀ kind, (b.access m.result kind m.valB).2.cached = none := by
    intro kind
    rcases b.access_cases m.result kind m.valB with ⟨e, -, h'⟩ | ⟨-, -, h'⟩ | ⟨side, -, -, hs, h'⟩
    · rw [h']
      exact h
    · rw [h']
      exact (b.direct_cached _ _ _).1.trans h
    · rw [h] at hs
      cases hs
  unfold memoryStage
  cases m.accessKind? with
  | none => exact h
  | some kind =>
    simp only
    split <;> exact haccess kind

/-! ## Writeback -/

theorem writeStage_of_ne_ok {w : WriteSlot} (h : w.status ≠ .ok) (rf : RegisterFile) :
    writeStage w rf = rf := by
  rw [writeStage, if_neg h]

/-- A call writes the link register, no instruction names more registers than there are, and
bubbles write nothing. -/
structure WriteSignals.Wired (sig : WriteSignals) (dst : Nat) (status : Status) : Prop where
  link : sig.toLink = true → sig.enable = true ∧ sig.fromMemory = false ∧ dst = Reg.link
  dst_le : dst ≤ Reg.zero
  bubble : status = .bubble → sig.enable = false

theorem WriteSignals.wired_bubble : WriteSignals.Wired {} Reg.zero .bubble :=
  ⟨nofun, Nat.le_refl _, fun _ => rfl⟩

theorem MemorySlot.From.wired {m : MemorySlot} {x : ExecuteSlot} (h : m.From x)
    (hx : x.writeSignals.Wired x.dst x.status) : m.writeSignals.Wired m.dst m.status := by
  rw [h.writeSignals, h.dst, h.status]
  exact hx

theorem WriteSlot.From.wired {w : WriteSlot} {m : MemorySlot} (h : w.From m)
    (hm : m.writeSignals.Wired m.dst m.status) : w.writeSignals.Wired w.dst w.status := by
  rw [h.writeSignals, h.dst]
  refine ⟨hm.link, hm.dst_le, fun hb => hm.bubble ?_⟩
  rcases h.status with hs | ⟨-, hs⟩
  · rw [← hs, hb]
  · rw [hs] at hb
    cases hb

/-- A field of five bits is the number of a register. -/
theorem InstrWord.regOrSp_lt (w : InstrWord) (start : Nat) : w.regOrSp start < Reg.zero := by
  unfold regOrSp
  rw [toNat_field]
  exact Nat.mod_lt _ (by decide)

theorem InstrWord.regOrZero_le (w : InstrWord) (start : Nat) : w.regOrZero start ≤ Reg.zero := by
  unfold regOrZero
  simp only
  split
  · exact Nat.le_refl _
  · exact Nat.le_of_lt (w.regOrSp_lt start)

theorem Operands.dst_le (w : InstrWord) (op : Opcode) : (Operands.ofWord w op).dst ≤ Reg.zero := by
  have hzero := w.regOrZero_le 0
  have hsp := Nat.le_of_lt (w.regOrSp_lt 0)
  unfold Operands.ofWord
  cases op.format
  all_goals simp only
  all_goals first | exact hzero | exact hsp | exact Nat.le_refl _ | skip
  · split
    · exact Nat.le_refl _
    · exact hzero
  · split
    · decide
    · exact Nat.le_refl _

theorem wired_decodeStage {d : DecodeSlot} (hd : d.status = .bubble → d.opcode = .nop)
    (rf : RegisterFile) (p : Producers) : (decodeStage d rf p).writeSignals.Wired
      (decodeStage d rf p).dst (decodeStage d rf p).status := by
  have hsig : (decodeStage d rf p).writeSignals = d.opcode.signals.write := rfl
  refine ⟨fun hl => ?_, ?_, fun hs => ?_⟩
  · rw [hsig] at hl ⊢
    have hop : d.opcode = .bl := by simpa [Opcode.signals] using hl
    refine ⟨by rw [hop]; rfl, by rw [hop]; rfl, ?_⟩
    simp [decodeStage, Instruction.decode, hop, Opcode.signals]
  · simp only [decodeStage]
    split
    · decide
    · exact Operands.dst_le _ _
  · rw [hsig, hd hs]
    rfl

/-- What a slot offers to decode. -/
def WriteSlot.producer (w : WriteSlot) : Producer :=
  ⟨w.dst, w.writeSignals.enable, if w.writeSignals.fromMemory then w.loaded else w.result⟩

/-- What a wired slot leaves in the registers is what it offers to decode. -/
theorem read_writeStage {w : WriteSlot} (hw : w.writeSignals.Wired w.dst w.status)
    (hs : w.status = .ok) (rf : RegisterFile) {r : Nat} (hr : r ≠ Reg.zero) :
    (writeStage w rf).read r =
      if w.producer.supplies r then w.producer.value else rf.read r := by
  have hdst := hw.dst_le
  have hzero : Reg.zero = 32 := rfl
  unfold writeStage
  rw [if_pos hs]
  simp only [Producer.supplies, WriteSlot.producer, Bool.and_eq_true, beq_iff_eq]
  cases hl : w.writeSignals.toLink with
  | true =>
    obtain ⟨he, hm, hd⟩ := hw.link hl
    rw [if_pos rfl, RegisterFile.read_write, he, hm, hd]
    simp [Reg.link]
  | false =>
    rw [if_neg Bool.false_ne_true]
    cases he : w.writeSignals.enable with
    | false => simp
    | true =>
      rw [if_pos rfl, RegisterFile.read_write]
      by_cases hd : w.dst = r
      · rw [if_pos ⟨hd, by omega⟩, if_pos (c := true = true ∧ w.dst = r) ⟨rfl, hd⟩]
      · rw [if_neg fun h => hd h.1, if_neg fun h => hd h.2]

end FiveStage
