import FiveStage.Proofs.Pipeline.StageFacts
import FiveStage.Sequential.Events

/-!
# One instruction, stage by stage

What the pipeline registers would show of the instruction at the program counter, if it went through
the stages all by itself.

* `Sequential.decodeSlot`, `Sequential.executeSlot`, `Sequential.memorySlot`,
  `Sequential.writeSlot` : the instruction in front of each stage;
* `Sequential.status_step`, `Sequential.registers_step`, `Sequential.bus_step` : the stages together
  do what `Sequential.step` does;
* `Sequential.end_cases` : a program ends before memory or with a refused access;
* `Sequential.wired_writeSlot` : the instruction is wired as writeback expects it;
* `Sequential.Alive` : the program goes on.
-/

namespace FiveStage

theorem Opcode.initialStatus_cases (op : Opcode) :
    op.initialStatus = .ok ∨ op.initialStatus.isTerminal = true := by
  cases op <;> simp [initialStatus, Status.isTerminal]

theorem Status.ne_ok_of_isTerminal {s : Status} (h : s.isTerminal = true) : s ≠ .ok := by
  rintro rfl
  cases h

namespace Sequential

/-- The program has not ended. -/
def Alive (s : Sequential) : Prop := s.core.status.isTerminal = false

/-- What fetch yields at the program counter. -/
def fetchedSlots (s : Sequential) : FetchSlot × DecodeSlot :=
  fetchStage ⟨s.core.pc, .ok⟩ {} {} s.bus

/-- The instruction at the program counter in front of decode. -/
def decodeSlot (s : Sequential) : DecodeSlot := s.fetchedSlots.2

/-- The instruction at the program counter in front of execute. -/
def executeSlot (s : Sequential) : ExecuteSlot := decodeStage s.decodeSlot s.core.registers {}

/-- The instruction at the program counter in front of memory. -/
def memorySlot (s : Sequential) : MemorySlot := (executeStage s.executeSlot s.core.flags).1

/-- The instruction at the program counter in front of writeback. -/
def writeSlot (s : Sequential) : WriteSlot := (memoryStage s.memorySlot s.bus).1

variable {s : Sequential}

/-! ## Statuses -/

theorem fetchedStatus_cases (s : Sequential) :
    s.fetchedStatus = .ok ∨ s.fetchedStatus.isTerminal = true := by
  unfold fetchedStatus
  split
  · exact .inr rfl
  · exact Opcode.initialStatus_cases _

theorem fetchedSlots_of_pc_eq_zero (h : s.core.pc = 0) : s.fetchedSlots = haltedFetch 0 := by
  have hsel : selectPc ⟨s.core.pc, .ok⟩ {} {} = 0 := h
  rw [fetchedSlots, fetchStage, hsel]
  exact if_pos (.inr rfl)

theorem fetchedSlots_of_pc_ne_zero (h : s.core.pc ≠ 0) : s.fetchedSlots =
    (⟨nextPredicted s.core.pc s.fetched.1 s.fetched.2, .ok⟩,
      { word := s.fetched.1
        opcode := s.fetched.2
        following := s.core.pc.sum 4
        page := s.core.pc &&& highMask 12
        status := s.fetched.2.initialStatus }) := by
  have hsel : selectPc ⟨s.core.pc, .ok⟩ {} {} = s.core.pc := rfl
  rw [fetchedSlots, fetchStage, hsel]
  refine if_neg ?_
  rintro (hs | hpc)
  · cases hs
  · exact h hpc

theorem status_decodeSlot (s : Sequential) : s.decodeSlot.status = s.fetchedStatus := by
  by_cases h : s.core.pc = 0
  · rw [decodeSlot, fetchedSlots_of_pc_eq_zero h, fetchedStatus, if_pos h]
    rfl
  · rw [decodeSlot, fetchedSlots_of_pc_ne_zero h, fetchedStatus, if_neg h]

theorem status_executeSlot (s : Sequential) : s.executeSlot.status = s.fetchedStatus :=
  s.status_decodeSlot

theorem memorySlot_from (s : Sequential) : s.memorySlot.From s.executeSlot :=
  executeStage_passes _ _

theorem writeSlot_from (s : Sequential) : s.writeSlot.From s.memorySlot := memoryStage_passes _ _

theorem status_memorySlot (s : Sequential) : s.memorySlot.status = s.fetchedStatus :=
  s.memorySlot_from.status.trans s.status_executeSlot

/-- An instruction that ends the program before memory sets no flags. -/
theorem setFlags_executeSlot (h : s.fetchedStatus.isTerminal = true) :
    s.executeSlot.executeSignals.setFlags = false := by
  change s.decodeSlot.opcode.setsFlags = false
  by_cases hpc : s.core.pc = 0
  · rw [decodeSlot, fetchedSlots_of_pc_eq_zero hpc]
    rfl
  · rw [fetchedStatus, if_neg hpc] at h
    rw [decodeSlot, fetchedSlots_of_pc_ne_zero hpc]
    cases hop : s.fetched.2 <;> rw [hop] at h <;> first | rfl | cases h

/-! ## Instructions that are executed -/

theorem pc_ne_zero (h : s.fetchedStatus = .ok) : s.core.pc ≠ 0 := by
  intro hpc
  rw [fetchedStatus, if_pos hpc] at h
  cases h

theorem initialStatus_fetched (h : s.fetchedStatus = .ok) : s.fetched.2.initialStatus = .ok := by
  rw [fetchedStatus, if_neg (pc_ne_zero h)] at h
  exact h

theorem executeSlot_eq (h : s.fetchedStatus = .ok) : s.executeSlot = s.operands := by
  rw [executeSlot, decodeSlot, fetchedSlots_of_pc_ne_zero (pc_ne_zero h), initialStatus_fetched h]
  rfl

theorem memorySlot_eq (h : s.fetchedStatus = .ok) : s.memorySlot = s.computed.1 := by
  rw [memorySlot, executeSlot_eq h, computed]

theorem writeSlot_eq (h : s.fetchedStatus = .ok) : s.writeSlot = s.accessed.1 := by
  rw [writeSlot, memorySlot_eq h, accessed]

theorem opcode_decodeSlot (h : s.fetchedStatus = .ok) : s.decodeSlot.opcode = s.fetched.2 := by
  rw [decodeSlot, fetchedSlots_of_pc_ne_zero (pc_ne_zero h)]

theorem status_writeSlot (h : s.fetchedStatus = .ok) :
    s.writeSlot.status = .ok ∨ s.writeSlot.status = .badAddress := by
  rcases s.writeSlot_from.status with hs | ⟨-, hs⟩
  · rw [hs, status_memorySlot, h]
    exact .inl rfl
  · exact .inr hs

/-- Nothing can be wrong in memory with an instruction that ends the program before. -/
theorem status_writeSlot_of_isTerminal (h : s.fetchedStatus.isTerminal = true) :
    s.writeSlot.status = s.fetchedStatus := by
  have hne : s.memorySlot.status ≠ .ok := by
    rw [status_memorySlot]
    exact Status.ne_ok_of_isTerminal h
  rw [writeSlot, memoryStage_of_ne_ok hne]
  exact s.status_memorySlot

/-! ## The stages together make a step -/

theorem step_eq_of_isTerminal (ha : s.Alive) (h : s.fetchedStatus.isTerminal = true) :
    s.step = { s with core.status := s.fetchedStatus } := by
  rw [step, if_neg (by rw [ha]; exact Bool.false_ne_true), if_pos h]

theorem step_eq_of_ok (ha : s.Alive) (h : s.fetchedStatus = .ok) : s.step = s.execute := by
  rw [step, if_neg (by rw [ha]; exact Bool.false_ne_true),
    if_neg (by rw [h]; exact Bool.false_ne_true)]

theorem execute_of_badAddress (h : s.fetchedStatus = .ok) (hb : s.writeSlot.status = .badAddress) :
    s.execute = { s with core.status := .badAddress } := by
  rw [execute, if_pos (writeSlot_eq h ▸ hb)]

theorem execute_of_ok (h : s.fetchedStatus = .ok) (hb : s.writeSlot.status = .ok) : s.execute =
    { s with
      core.pc := s.next
      core.registers := writeStage s.writeSlot s.core.registers
      core.flags := (executeStage s.executeSlot s.core.flags).2
      core.status := .ok
      memory := (memoryStage s.memorySlot s.bus).2.memory } := by
  have hne : s.accessed.1.status ≠ .badAddress := by
    rw [← writeSlot_eq h, hb]
    nofun
  rw [execute, if_neg hne, writeSlot_eq h, executeSlot_eq h, memorySlot_eq h]
  rfl

theorem status_step (ha : s.Alive) : s.step.core.status = s.writeSlot.status := by
  rcases s.fetchedStatus_cases with h | h
  · rw [step_eq_of_ok ha h]
    rcases status_writeSlot h with hb | hb
    · rw [execute_of_ok h hb, hb]
    · rw [execute_of_badAddress h hb, hb]
  · rw [step_eq_of_isTerminal ha h, status_writeSlot_of_isTerminal h]

theorem alive_step_iff (ha : s.Alive) :
    s.step.Alive ↔ s.writeSlot.status.isTerminal = false := by
  rw [Alive, status_step ha]

theorem registers_step (ha : s.Alive) :
    s.step.core.registers = writeStage s.writeSlot s.core.registers := by
  rcases s.fetchedStatus_cases with h | h
  · rw [step_eq_of_ok ha h]
    rcases status_writeSlot h with hb | hb
    · rw [execute_of_ok h hb]
    · rw [execute_of_badAddress h hb, writeStage_of_ne_ok (by rw [hb]; nofun)]
  · rw [step_eq_of_isTerminal ha h, writeStage_of_ne_ok]
    rw [status_writeSlot_of_isTerminal h]
    exact Status.ne_ok_of_isTerminal h

theorem bus_step (ha : s.Alive) : s.step.bus = (memoryStage s.memorySlot s.bus).2 := by
  rcases s.fetchedStatus_cases with h | h
  · rw [step_eq_of_ok ha h]
    rcases status_writeSlot h with hb | hb
    · rw [execute_of_ok h hb]
      have hc := cached_memoryStage (b := s.bus) rfl s.memorySlot
      have hs := Bus.segments_memoryStage s.bus s.memorySlot
      generalize memoryStage s.memorySlot s.bus = out at hc hs
      obtain ⟨w, m, map, c⟩ := out
      obtain rfl : c = none := hc
      obtain rfl : map = s.segments := hs
      rfl
    · have hne : s.writeSlot.status ≠ .ok := by rw [hb]; nofun
      rw [execute_of_badAddress h hb, bus_memoryStage_of_ne_ok hne]
      rfl
  · have hne : s.writeSlot.status ≠ .ok := by
      rw [status_writeSlot_of_isTerminal h]
      exact Status.ne_ok_of_isTerminal h
    rw [step_eq_of_isTerminal ha h, bus_memoryStage_of_ne_ok hne]
    rfl

theorem fetchedStatus_of_alive_step (ha : s.Alive) (h : s.step.Alive) : s.fetchedStatus = .ok := by
  refine s.fetchedStatus_cases.resolve_right fun ht => ?_
  rw [alive_step_iff ha, status_writeSlot_of_isTerminal ht, ht] at h
  cases h

theorem status_writeSlot_of_alive_step (ha : s.Alive) (h : s.step.Alive) :
    s.writeSlot.status = .ok := by
  refine (status_writeSlot (fetchedStatus_of_alive_step ha h)).resolve_right fun hb => ?_
  rw [alive_step_iff ha, hb] at h
  cases h

/-- A program ends with an instruction that memory refuses, or with one that is known to end it
before. -/
theorem end_cases (ha : s.Alive) (h : ¬ s.step.Alive) :
    s.fetchedStatus = .ok ∧ s.writeSlot.status = .badAddress ∨
      s.fetchedStatus.isTerminal = true := by
  rcases s.fetchedStatus_cases with hok | ht
  · refine .inl ⟨hok, (status_writeSlot hok).resolve_left fun hw => h ?_⟩
    rw [alive_step_iff ha, hw]
    rfl
  · exact .inr ht

theorem fetchedStatus_of_end (ha : s.Alive) (h : ¬ s.step.Alive)
    (hne : s.step.core.status ≠ .badAddress) : s.fetchedStatus.isTerminal = true := by
  refine (end_cases ha h).resolve_left fun hb => hne ?_
  rw [status_step ha, hb.2]

theorem flags_step_of_not_alive (ha : s.Alive) (h : ¬ s.step.Alive) :
    s.step.core.flags = s.core.flags := by
  rcases end_cases ha h with ⟨hok, hb⟩ | ht
  · rw [step_eq_of_ok ha hok, execute_of_badAddress hok hb]
  · rw [step_eq_of_isTerminal ha ht]

/-! ## Where the program goes on -/

theorem proceeds_of_ok (ha : s.Alive) (h : s.fetchedStatus = .ok) : s.proceeds = true := by
  rw [proceeds, ha, h]
  rfl

theorem opcode_executeSlot_of_ok (h : s.fetchedStatus = .ok) : s.executeSlot.opcode = s.fetched.2 :=
  opcode_decodeSlot h

theorem fallsThrough_iff (ha : s.Alive) (h : s.fetchedStatus = .ok) : s.fallsThrough = true ↔
    s.executeSlot.opcode = .bCond ∧ s.memorySlot.condHolds = false := by
  rw [fallsThrough, proceeds_of_ok ha h, opcode_executeSlot_of_ok h, memorySlot_eq h]
  simp

theorem returns_iff (ha : s.Alive) (h : s.fetchedStatus = .ok) :
    s.returns = true ↔ s.executeSlot.opcode = .ret := by
  rw [returns, proceeds_of_ok ha h, opcode_executeSlot_of_ok h]
  simp

theorem following_memorySlot (h : s.fetchedStatus = .ok) :
    s.memorySlot.following = s.core.pc + 4 := by
  rw [s.memorySlot_from.following]
  change s.decodeSlot.following = _
  rw [decodeSlot, fetchedSlots_of_pc_ne_zero (pc_ne_zero h)]
  rfl

/-- A branch that is not taken goes on behind itself. -/
theorem next_of_fallsThrough (ha : s.Alive) (h : s.fetchedStatus = .ok)
    (hf : s.fallsThrough = true) : s.next = s.memorySlot.following := by
  obtain ⟨hop, hc⟩ := (fallsThrough_iff ha h).1 hf
  rw [opcode_executeSlot_of_ok h] at hop
  rw [memorySlot_eq h] at hc
  rw [following_memorySlot h, next]
  simp only [hop, hc, Bool.false_eq_true, if_false]

/-- A return goes on where its register says. -/
theorem next_of_returns (ha : s.Alive) (h : s.fetchedStatus = .ok) (hr : s.returns = true) :
    s.next = if s.executeSlot.valA = returnFromEntry then 0 else s.executeSlot.valA := by
  have hop := (returns_iff ha h).1 hr
  rw [opcode_executeSlot_of_ok h] at hop
  rw [executeSlot_eq h, next]
  simp only [hop]

/-- Every other instruction goes on where fetch expects it to. -/
theorem next_eq_nextPredicted (ha : s.Alive) (h : s.fetchedStatus = .ok)
    (hf : s.fallsThrough = false) (hr : s.returns = false) :
    s.next = nextPredicted s.core.pc s.fetched.1 s.fetched.2 := by
  rw [fallsThrough, proceeds_of_ok ha h] at hf
  rw [returns, proceeds_of_ok ha h] at hr
  rw [next, nextPredicted]
  generalize s.fetched = p at hf hr
  obtain ⟨word, op⟩ := p
  cases op
  case bCond =>
    have hc : s.computed.1.condHolds = true := by simpa using hf
    simp only [hc, if_true]
    rfl
  case ret => cases hr
  all_goals rfl

/-! ## Wiring -/

theorem wired_writeSlot (s : Sequential) :
    s.writeSlot.writeSignals.Wired s.writeSlot.dst s.writeSlot.status := by
  refine s.writeSlot_from.wired (s.memorySlot_from.wired (wired_decodeStage (fun hb => ?_) _ _))
  rw [status_decodeSlot] at hb
  rcases s.fetchedStatus_cases with h | h
  · rw [h] at hb
    cases hb
  · rw [hb] at h
    cases h

end Sequential

end FiveStage
