import FiveStage.Proofs.Pipeline.Forwarded

/-!
# The instruction behind

In a pipeline the next instruction is under way before memory has said whether this one is refused,
and there may be bubbles between the two.

* `Sequential.beyond` : the machine that the next instruction is fetched, decoded and executed for;
* `Sequential.delaysNext`, `Sequential.gap` : how many bubbles there are in front of it;
* `Sequential.finalFlags` : the flags a pipeline is left with if the program ends here;
* `Sequential.gap_eq` : where the bubbles come from.
-/

namespace FiveStage

namespace Sequential

variable {s : Sequential}

/-- The machine that what comes behind the instruction at the program counter sees. A refused access
has changed nothing by then, and behind an instruction that ends the program before memory comes
that instruction again. -/
def beyond (s : Sequential) : Sequential :=
  if s.fetchedStatus = .ok then
    if s.writeSlot.status = .badAddress then { s with core.pc := s.next } else s.step
  else s

theorem beyond_of_isTerminal (h : s.fetchedStatus.isTerminal = true) : s.beyond = s :=
  if_neg (Status.ne_ok_of_isTerminal h)

theorem beyond_of_badAddress (h : s.fetchedStatus = .ok) (hb : s.writeSlot.status = .badAddress) :
    s.beyond = { s with core.pc := s.next } := by
  rw [beyond, if_pos h, if_pos hb]

theorem beyond_of_ok (h : s.fetchedStatus = .ok) (hb : s.writeSlot.status = .ok) :
    s.beyond = s.step := by
  rw [beyond, if_pos h, if_neg (by rw [hb]; nofun)]

theorem beyond_of_alive_step (ha : s.Alive) (h : s.step.Alive) : s.beyond = s.step :=
  beyond_of_ok (fetchedStatus_of_alive_step ha h) (status_writeSlot_of_alive_step ha h)

/-! ## Opcodes -/

/-- An instruction that ends the program before memory has none of the other opcodes. -/
theorem opcode_ne_of_isTerminal (h : s.fetchedStatus.isTerminal = true) {op : Opcode}
    (hop : op.initialStatus = .ok) : s.executeSlot.opcode ≠ op := by
  rintro rfl
  change s.decodeSlot.opcode.initialStatus = .ok at hop
  by_cases hpc : s.core.pc = 0
  · rw [decodeSlot, fetchedSlots_of_pc_eq_zero hpc] at hop
    cases hop
  · rw [fetchedStatus, if_neg hpc] at h
    rw [decodeSlot, fetchedSlots_of_pc_ne_zero hpc] at hop
    exact Status.ne_ok_of_isTerminal h hop

/-- Fetch finds nothing wrong with a data access. -/
theorem fetchedStatus_ne_badAddress (s : Sequential) : s.fetchedStatus ≠ .badAddress := by
  unfold fetchedStatus
  split
  · nofun
  · cases s.fetched.2 <;> nofun

/-- Only loads and stores are refused. -/
theorem opcode_of_badAddress (h : s.fetchedStatus = .ok) (hb : s.writeSlot.status = .badAddress) :
    s.decodeSlot.opcode = .ldur ∨ s.decodeSlot.opcode = .stur := by
  have hsignals : s.memorySlot.memorySignals = s.decodeSlot.opcode.signals.memory :=
    s.memorySlot_from.memorySignals
  cases hk : s.memorySlot.accessKind? with
  | none =>
    have hs : s.writeSlot.status = s.memorySlot.status := by rw [writeSlot, memoryStage_of_none hk]
    rw [hs, status_memorySlot, h] at hb
    cases hb
  | some kind =>
    rw [MemorySlot.accessKind?, hsignals] at hk
    by_cases hl : s.decodeSlot.opcode = .ldur
    · exact .inl hl
    · by_cases hs : s.decodeSlot.opcode = .stur
      · exact .inr hs
      · simp [Opcode.signals, hl, hs] at hk

theorem proceeds_and_opcode (ha : s.Alive) {op : Opcode} (hop : op.initialStatus = .ok) :
    (s.proceeds && s.fetched.2 = op) = decide (s.executeSlot.opcode = op) := by
  rcases s.fetchedStatus_cases with hok | ht
  · rw [proceeds_of_ok ha hok, opcode_executeSlot_of_ok hok, Bool.true_and]
  · rw [proceeds, ht, decide_eq_false (opcode_ne_of_isTerminal ht hop)]
    simp

theorem returns_eq (ha : s.Alive) : s.returns = decide (s.executeSlot.opcode = .ret) :=
  proceeds_and_opcode ha rfl

theorem fallsThrough_eq (ha : s.Alive) :
    s.fallsThrough = (s.executeSlot.opcode = .bCond && !s.memorySlot.condHolds) := by
  rw [fallsThrough, proceeds_and_opcode ha rfl]
  by_cases hop : s.executeSlot.opcode = .bCond
  · have hok : s.fetchedStatus = .ok :=
      s.fetchedStatus_cases.resolve_right fun ht => opcode_ne_of_isTerminal ht rfl hop
    rw [memorySlot_eq hok]
  · rw [decide_eq_false hop, Bool.false_and, Bool.false_and]

theorem no_branch_of_badAddress (ha : s.Alive) (h : s.fetchedStatus = .ok)
    (hb : s.writeSlot.status = .badAddress) : s.returns = false ∧ s.fallsThrough = false := by
  have hop : s.executeSlot.opcode = .ldur ∨ s.executeSlot.opcode = .stur :=
    opcode_of_badAddress h hb
  rw [returns_eq ha, fallsThrough_eq ha]
  rcases hop with hop | hop <;> rw [hop] <;> exact ⟨rfl, rfl⟩

/-! ## What the next instruction sees -/

theorem alive_beyond (ha : s.Alive) : s.beyond.Alive := by
  rcases s.fetchedStatus_cases with hok | ht
  · rcases status_writeSlot hok with hb | hb
    · rw [beyond_of_ok hok hb, alive_step_iff ha, hb]
      rfl
    · rw [beyond_of_badAddress hok hb]
      exact ha
  · rw [beyond_of_isTerminal ht]
    exact ha

theorem pc_beyond (ha : s.Alive) (h : s.fetchedStatus = .ok) : s.beyond.core.pc = s.next := by
  rcases status_writeSlot h with hb | hb
  · rw [beyond_of_ok h hb, step_eq_of_ok ha h, execute_of_ok h hb]
  · rw [beyond_of_badAddress h hb]

theorem registers_beyond (ha : s.Alive) :
    s.beyond.core.registers = s.step.core.registers := by
  rcases s.fetchedStatus_cases with hok | ht
  · rcases status_writeSlot hok with hb | hb
    · rw [beyond_of_ok hok hb]
    · rw [beyond_of_badAddress hok hb, step_eq_of_ok ha hok, execute_of_badAddress hok hb]
  · rw [beyond_of_isTerminal ht, step_eq_of_isTerminal ha ht]

theorem flags_beyond (ha : s.Alive) :
    s.beyond.core.flags = (executeStage s.executeSlot s.core.flags).2 := by
  rcases s.fetchedStatus_cases with hok | ht
  · rcases status_writeSlot hok with hb | hb
    · rw [beyond_of_ok hok hb, step_eq_of_ok ha hok, execute_of_ok hok hb]
    · have hset : s.executeSlot.executeSignals.setFlags = false := by
        change s.decodeSlot.opcode.setsFlags = false
        rcases opcode_of_badAddress hok hb with hop | hop <;> rw [hop] <;> rfl
      rw [beyond_of_badAddress hok hb, flags_executeStage hset]
  · rw [beyond_of_isTerminal ht, flags_executeStage (setFlags_executeSlot ht)]

/-- Execute offers what the instruction in it is going to change, unless that is yet to be loaded,
also if memory is going to refuse it. -/
theorem carries_beyond (ha : s.Alive) (h : s.fetchedStatus = .ok) {r : Nat}
    (hload : s.executeSlot.opcode = .ldur → s.executeSlot.dst ≠ r) :
    Producer.Carries ⟨s.executeSlot.dst, s.executeSlot.writeSignals.enable, s.memorySlot.result⟩
      s.core.registers s.beyond.core.registers r := by
  rcases status_writeSlot h with hb | hb
  · have hnext : s.step.Alive := by
      rw [alive_step_iff ha, hb]
      rfl
    rw [registers_beyond ha]
    exact carries_executeSlot ha hnext hload
  · intro _
    have hno : ¬ (s.executeSlot.writeSignals.enable = true ∧ s.executeSlot.dst = r) := by
      rintro ⟨he, hd⟩
      rcases opcode_of_badAddress h hb with hop | hop
      · exact hload hop hd
      · have he : s.decodeSlot.opcode.writesRegister = true := he
        rw [hop] at he
        cases he
    rw [beyond_of_badAddress h hb, Producer.supplies, if_neg]
    simpa using hno

/-! ## Bubbles -/

theorem sources_decodeSlot (s : Sequential) :
    (Instruction.decode s.decodeSlot.word s.decodeSlot.opcode).operands.sources = s.sources := by
  by_cases hpc : s.core.pc = 0
  · rw [decodeSlot, fetchedSlots_of_pc_eq_zero hpc, sources, if_pos hpc]
    rfl
  · rw [decodeSlot, fetchedSlots_of_pc_ne_zero hpc, sources, if_neg hpc]

/-- The instruction at the program counter loads a register that what comes behind it reads. -/
def delaysNext (s : Sequential) : Bool :=
  s.executeSlot.opcode = .ldur && s.executeSlot.dst != Reg.zero &&
    (s.beyond.sources.1 == s.executeSlot.dst || s.beyond.sources.2 == s.executeSlot.dst)

/-- How many bubbles there are between the instruction at the program counter and the next one. -/
def gap (s : Sequential) : Nat :=
  if s.fallsThrough then 2 else if s.returns || s.delaysNext then 1 else 0

/-- The flags a pipeline is left with if the program ends here. When memory refuses an access, the
instruction behind it has been executed in the same cycle. -/
def finalFlags (s : Sequential) : Flags :=
  if s.writeSlot.status = .badAddress ∧ s.gap = 0 then
    (executeStage s.beyond.executeSlot s.core.flags).2
  else s.core.flags

theorem usesLoad_eq (ha : s.Alive) (h : s.step.Alive) : s.usesLoad = s.delaysNext := by
  have hok := fetchedStatus_of_alive_step ha h
  have hstep : s.step.core.status.isTerminal = false := h
  rw [usesLoad, delaysNext, proceeds_of_ok ha hok, hstep, beyond_of_alive_step ha h,
    opcode_executeSlot_of_ok hok, executeSlot_eq hok]
  simp

theorem delaysNext_of_ne (h : s.executeSlot.opcode ≠ .ldur) : s.delaysNext = false := by
  rw [delaysNext, decide_eq_false h]
  rfl

theorem fallsThrough_of_isTerminal (ha : s.Alive) (h : s.fetchedStatus.isTerminal = true) :
    s.fallsThrough = false := by
  rw [fallsThrough_eq ha, decide_eq_false (opcode_ne_of_isTerminal h rfl), Bool.false_and]

theorem returns_of_isTerminal (ha : s.Alive) (h : s.fetchedStatus.isTerminal = true) :
    s.returns = false :=
  (returns_eq ha).trans (decide_eq_false (opcode_ne_of_isTerminal h rfl))

theorem delaysNext_of_isTerminal (h : s.fetchedStatus.isTerminal = true) :
    s.delaysNext = false :=
  delaysNext_of_ne (opcode_ne_of_isTerminal h rfl)

theorem gap_of_isTerminal (ha : s.Alive) (h : s.fetchedStatus.isTerminal = true) : s.gap = 0 := by
  rw [gap, fallsThrough_of_isTerminal ha h, returns_of_isTerminal ha h, delaysNext_of_isTerminal h]
  rfl

theorem finalFlags_of_isTerminal (h : s.fetchedStatus.isTerminal = true) :
    s.finalFlags = s.core.flags :=
  if_neg fun hb =>
    s.fetchedStatus_ne_badAddress ((status_writeSlot_of_isTerminal h).symm.trans hb.1)

/-- An instruction is only one of the three kinds. -/
theorem gap_eq (ha : s.Alive) : s.gap =
    s.delaysNext.toNat + s.returns.toNat + 2 * s.fallsThrough.toNat := by
  by_cases hb : s.executeSlot.opcode = .bCond
  · have hr : s.returns = false := by rw [returns_eq ha, hb]; rfl
    have hl := delaysNext_of_ne (s := s) (by rw [hb]; nofun)
    rw [gap, hr, hl]
    cases s.fallsThrough <;> rfl
  · have hf : s.fallsThrough = false := by
      rw [fallsThrough_eq ha, decide_eq_false hb]
      rfl
    by_cases hret : s.executeSlot.opcode = .ret
    · have hl := delaysNext_of_ne (s := s) (by rw [hret]; nofun)
      rw [gap, hf, hl]
      cases s.returns <;> rfl
    · have hr : s.returns = false := by
        rw [returns_eq ha]
        exact decide_eq_false hret
      rw [gap, hf, hr]
      cases s.delaysNext <;> rfl

/-- Behind a branch that is not taken come two bubbles. -/
theorem two_le_gap_of_mispredicted (ha : s.Alive)
    (h : s.memorySlot.opcode = .bCond ∧ s.memorySlot.condHolds = false) : 2 ≤ s.gap := by
  have hfall : s.fallsThrough = true := by
    rw [fallsThrough_eq ha, ← s.memorySlot_from.opcode, h.1, h.2]
    rfl
  exact Nat.le_of_eq (if_pos hfall).symm

end Sequential

end FiveStage
