import FiveStage.Proofs.Sequential.Program

/-!
# The window of instructions in flight

The pipeline registers hold consecutive instructions of the sequential machine, oldest last. How
many bubbles there are in front of an instruction depends on the one before it alone.

* `Outputs.AtDecode`, `Outputs.AtExecute`, `Outputs.AtMemory`, `Outputs.Front` : an instruction
  comes to a stage in so many cycles;
* `Outputs.Ending` : one that has ended the program is in writeback;
* `Sequential.detected`, `Simulation.detect_execute` : the hazards that are met, by what comes to
  execute.
-/

namespace FiveStage

namespace Outputs

/-- The instruction at the program counter of `τ` is about to be fetched. -/
def AtFetch (o : Outputs) (τ : Sequential) : Prop :=
  o.decode = {} ∧ o.fetch.status = .ok ∧ selectPc o.fetch o.execute o.memory = τ.core.pc

/-- The instruction at the program counter of `τ` is in decode. -/
def InDecode (o : Outputs) (τ : Sequential) : Prop :=
  o.decode = τ.decodeSlot ∧ (τ.fetchedStatus = .ok → o.fetch = τ.fetchedSlots.1)

/-- The instruction at the program counter of `τ` comes to decode in so many cycles. -/
def AtDecode (o : Outputs) (τ : Sequential) : Nat → Prop
  | 0 => o.InDecode τ
  | 1 => o.AtFetch τ
  | _ => False

/-- What comes after an instruction in execute. Behind a branch that is not taken, it is the wrong
instructions, of which only fetch must not believe that the program is over. Behind a return comes a
bubble, until execute knows the target. -/
def Behind (o : Outputs) (τ : Sequential) : Prop :=
  if τ.fallsThrough then τ.Clear → o.fetch.status = .ok ∧ o.fetch.predicted ≠ 0
  else o.AtDecode τ.beyond τ.returns.toNat

/-- The instruction at the program counter of `τ` comes to execute in so many cycles. -/
def AtExecute (o : Outputs) (flags : Flags) (τ : Sequential) : Nat → Prop
  | 0 => flags = τ.core.flags ∧ o.execute = τ.executeSlot ∧ o.Behind τ
  | d + 1 => flags = τ.core.flags ∧ o.execute = {} ∧ o.AtDecode τ d

/-- The instruction at the program counter of `τ` comes to memory in so many cycles. -/
def AtMemory (o : Outputs) (flags : Flags) (τ : Sequential) : Nat → Prop
  | 0 => o.memory = τ.memorySlot ∧ o.AtExecute flags τ.beyond τ.gap
  | d + 1 => (∃ c, o.memory = { condHolds := c }) ∧ o.AtExecute flags τ d

/-- The instruction at the program counter of `τ` has ended the program and is in writeback: nothing
changes memory or flags from now on. -/
structure Ending (o : Outputs) (flags : Flags) (bus : Bus) (τ : Sequential) : Prop where
  ended : ¬ τ.step.Alive
  memory : bus = τ.step.bus
  held : o.memory = τ.memorySlot
  final : flags = τ.finalFlags
  quiet : (executeStage o.execute flags).2 = flags
  again : τ.fetchedStatus.isTerminal = true → o.execute = τ.executeSlot ∧ o.decode = τ.decodeSlot

/-- The instruction at the program counter of `τ` comes to writeback in so many cycles. -/
def Front (o : Outputs) (flags : Flags) (bus : Bus) (τ : Sequential) : Nat → Prop
  | 0 => o.write = τ.writeSlot ∧
      (o.Ending flags bus τ ∨ τ.step.Alive ∧ bus = τ.step.bus ∧ o.AtMemory flags τ.step τ.gap)
  | d + 1 => o.write = {} ∧ bus = τ.bus ∧ o.AtMemory flags τ d

/-- Behind an instruction that ends the program before memory, it comes once more. -/
theorem behind_iff_of_isTerminal {o : Outputs} {τ : Sequential} (ha : τ.Alive)
    (hterm : τ.fetchedStatus.isTerminal = true) : o.Behind τ ↔ o.decode = τ.decodeSlot := by
  rw [Behind, Sequential.fallsThrough_of_isTerminal ha hterm,
    Sequential.returns_of_isTerminal ha hterm, Sequential.beyond_of_isTerminal hterm,
    if_neg Bool.false_ne_true]
  exact ⟨fun hD => hD.1, fun hD => ⟨hD, fun hok => absurd hok (Status.ne_ok_of_isTerminal hterm)⟩⟩

end Outputs

/-! ## Hazards -/

/-- The hazards that are met when the instruction at the program counter comes to execute in so many
cycles. One that is on its way there without a bubble before it is looked at together with the
instruction before it. -/
def Sequential.detected (s : Sequential) : Nat → Hazards
  | 0 =>
    { ret := s.gap = 0 && s.beyond.returns
      mispredict := s.fallsThrough
      loadUse := s.delaysNext
      missInFlight := false }
  | 1 => { ret := s.returns, mispredict := false, loadUse := false, missInFlight := false }
  | _ => { ret := false, mispredict := false, loadUse := false, missInFlight := false }

namespace Simulation

variable {s : Simulation} {τ : Sequential} {d : Nat}

theorem hazards_decodeOp (h : s.outputs.decode = τ.decodeSlot) :
    s.hazards.decodeOp = τ.decodeSlot.opcode :=
  congrArg DecodeSlot.opcode h

theorem hazards_decodeSources (h : s.outputs.decode = τ.decodeSlot) :
    s.hazards.decodeSources = τ.sources := by
  change (Instruction.decode s.outputs.decode.word s.outputs.decode.opcode).operands.sources = _
  rw [h, τ.sources_decodeSlot]

theorem executed_eq (hx : s.outputs.execute = τ.executeSlot)
    (hflags : s.core.flags = τ.core.flags) : s.executed.1 = τ.memorySlot := by
  rw [executed, hx, hflags]
  rfl

theorem mispredict_execute (ha : τ.Alive) (hx : s.outputs.execute = τ.executeSlot)
    (hflags : s.core.flags = τ.core.flags) : s.hazards.detect.mispredict = τ.fallsThrough := by
  have hop : s.hazards.executeOp = τ.executeSlot.opcode := congrArg ExecuteSlot.opcode hx
  have hcond : s.hazards.condHolds = τ.memorySlot.condHolds :=
    congrArg MemorySlot.condHolds (executed_eq hx hflags)
  rw [HazardInputs.mispredict_detect, hop, hcond, Sequential.fallsThrough_eq ha]

/-- What execute has in it ends the program only if it was fetched as its end. -/
theorem faulted_execute (hx : s.outputs.execute = τ.executeSlot)
    (hflags : s.core.flags = τ.core.flags) (hb : s.hazards.faulted.memory = false) :
    s.hazards.faulted.execute = τ.fetchedStatus.isTerminal := by
  change (s.executed.1.status.isTerminal || s.hazards.faulted.memory) = _
  rw [executed_eq hx hflags, hb, τ.status_memorySlot, Bool.or_false]

theorem faulted_execute_bubble (hx : s.outputs.execute = {})
    (hb : s.hazards.faulted.memory = false) : s.hazards.faulted.execute = false := by
  change (s.executed.1.status.isTerminal || s.hazards.faulted.memory) = false
  rw [executed, hx, executeStage_bubble, hb]
  rfl

theorem faulted_memory (hm : s.outputs.memory = τ.memorySlot) (hbus : s.bus = τ.bus)
    (hb : s.hazards.faulted.write = false) :
    s.hazards.faulted.memory = τ.writeSlot.status.isTerminal := by
  change (s.accessed.1.status.isTerminal || s.hazards.faulted.write) = _
  rw [accessed, hm, hbus, hb, Bool.or_false]
  rfl

theorem faulted_memory_bubble {c : Bool} (hm : s.outputs.memory = { condHolds := c })
    (hb : s.hazards.faulted.write = false) : s.hazards.faulted.memory = false := by
  change (s.accessed.1.status.isTerminal || s.hazards.faulted.write) = false
  rw [accessed, hm, memoryStage_idle, hb]
  rfl

/-- A return is waited for in decode, unless something else is. -/
theorem ret_decode (ha : τ.Alive) (hd : s.outputs.decode = τ.decodeSlot)
    (hm : s.hazards.detect.mispredict = false) (hload : s.hazards.detect.loadUse = false) :
    s.hazards.detect.ret = τ.returns := by
  rw [HazardInputs.ret_detect, hazards_decodeOp hd, hm, hload, Sequential.returns_eq ha]
  simp only [Bool.not_false, Bool.and_true]
  rfl

/-- No instruction in execute, no hazard from there. -/
theorem detect_bubble (hx : s.outputs.execute = {}) (hf : s.hazards.missInFlight = false) :
    s.hazards.detect =
      { ret := s.hazards.decodeOp = .ret, mispredict := false, loadUse := false,
        missInFlight := false } := by
  have hop : s.hazards.executeOp = .nop := by
    change s.outputs.execute.opcode = .nop
    rw [hx]
  simp only [HazardInputs.detect, hop, hf]
  simp

theorem hazards_of_parts {ret mispredict loadUse : Bool} (hr : s.hazards.detect.ret = ret)
    (hm : s.hazards.detect.mispredict = mispredict) (hl : s.hazards.detect.loadUse = loadUse)
    (hf : s.hazards.missInFlight = false) :
    s.hazards.detect = ⟨ret, mispredict, loadUse, false⟩ := by
  rw [← hr, ← hm, ← hl, ← hf]
  rfl

/-- The hazards that an instruction in execute meets, with the next one behind it in decode or on
its way there. -/
theorem detect_slot (ha : τ.Alive) (hx : s.outputs.execute = τ.executeSlot)
    (hflags : s.core.flags = τ.core.flags) (hD : s.outputs.Behind τ)
    (hf : s.hazards.missInFlight = false) : s.hazards.detect = τ.detected 0 := by
  have hmis := mispredict_execute ha hx hflags
  have hop : s.hazards.executeOp = τ.executeSlot.opcode := congrArg ExecuteSlot.opcode hx
  have hdst : s.hazards.executeDst = τ.executeSlot.dst := congrArg ExecuteSlot.dst hx
  have hnoload (hne : τ.executeSlot.opcode ≠ .ldur) : s.hazards.detect.loadUse = τ.delaysNext := by
    rw [HazardInputs.loadUse_detect, hop, Sequential.delaysNext_of_ne hne, decide_eq_false hne]
    rfl
  unfold Outputs.Behind at hD
  cases hfall : τ.fallsThrough with
  | true =>
    -- the misprediction hides whatever is behind the branch
    have hbranch : τ.executeSlot.opcode = .bCond := by
      rw [Sequential.fallsThrough_eq ha, Bool.and_eq_true, decide_eq_true_eq] at hfall
      exact hfall.1
    have hgap : τ.gap = 2 := if_pos hfall
    refine hazards_of_parts ?_ hmis (hnoload (by rw [hbranch]; decide)) hf
    rw [HazardInputs.ret_detect, hmis, hfall, hgap]
    simp
  | false =>
    rw [hfall, if_neg Bool.false_ne_true] at hD
    cases hret : τ.returns with
    | true =>
      rw [hret] at hD
      obtain ⟨hd, -, -⟩ := hD
      have hreturn : τ.executeSlot.opcode = .ret := by
        rw [Sequential.returns_eq ha, decide_eq_true_eq] at hret
        exact hret
      have hgap : τ.gap = 1 := by rw [Sequential.gap, hfall, hret]; rfl
      refine hazards_of_parts ?_ hmis (hnoload (by rw [hreturn]; decide)) hf
      have hdecode : s.hazards.decodeOp = .nop := congrArg DecodeSlot.opcode hd
      rw [HazardInputs.ret_detect, hdecode, hgap]
      rfl
    | false =>
      rw [hret] at hD
      have hload : s.hazards.detect.loadUse = τ.delaysNext := by
        rw [HazardInputs.loadUse_detect, hop, hdst, hmis, hfall, hazards_decodeSources hD.1]
        exact Bool.and_true _
      refine hazards_of_parts ?_ hmis hload hf
      have hgap : τ.gap = if τ.delaysNext then 1 else 0 := by
        rw [Sequential.gap, hfall, hret]
        rfl
      rw [HazardInputs.ret_detect, hazards_decodeOp hD.1, hmis, hfall, hload, hgap,
        Sequential.returns_eq (Sequential.alive_beyond ha)]
      change (decide (τ.beyond.decodeSlot.opcode = .ret) && !false && !τ.delaysNext) =
        (decide ((if τ.delaysNext then 1 else 0) = 0) &&
          decide (τ.beyond.decodeSlot.opcode = .ret))
      cases τ.delaysNext <;> simp

theorem detect_execute (ha : τ.Alive) (hX : s.outputs.AtExecute s.core.flags τ d)
    (hf : s.hazards.missInFlight = false) : s.hazards.detect = τ.detected d := by
  match d, hX with
  | 0, ⟨hflags, hx, hD⟩ => exact detect_slot ha hx hflags hD hf
  | 1, ⟨_, hx, hd, _⟩ =>
    rw [detect_bubble hx hf, hazards_decodeOp hd, Sequential.detected, Sequential.returns_eq ha]
    rfl
  | 2, ⟨_, hx, hd, _⟩ =>
    have hdecode : s.hazards.decodeOp = .nop := congrArg DecodeSlot.opcode hd
    rw [detect_bubble hx hf, hdecode]
    rfl

end Simulation

end FiveStage
