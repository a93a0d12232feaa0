import FiveStage.Pipeline.Simulation

/-!
# What one cycle does

* `Outputs` : what the five pipeline registers show;
* `Simulation.accessed` to `Simulation.fetched` : what the stages yield in a cycle, and
  `Simulation.staged` : all of it together;
* `Simulation.hazards` : what the hazard unit looks at;
* `HazardInputs.control_consistent` : no register is asked for two things;
* `Simulation.Healthy` : no register is in error, `Simulation.healthy_step` : nor is it later;
* `Simulation.steps` : some cycles;
* `Simulation.outputs_step` : every register holds, drops or takes over what was staged for it;
  `Simulation.step_of_calm` : so it is while no miss is in flight.
-/

namespace FiveStage

/-- What the five pipeline registers show. -/
structure Outputs where
  fetch : FetchSlot
  decode : DecodeSlot
  execute : ExecuteSlot
  memory : MemorySlot
  write : WriteSlot
  deriving DecidableEq, Repr

/-- What the registers show. -/
def Pipeline.outputs (p : Pipeline) : Outputs :=
  ⟨p.fetch.output, p.decode.output, p.execute.output, p.memory.output, p.write.output⟩

/-- Takes what the stages have made. -/
def Pipeline.stage (p : Pipeline) (o : Outputs) : Pipeline where
  fetch := p.fetch.stage o.fetch
  decode := p.decode.stage o.decode
  execute := p.execute.stage o.execute
  memory := p.memory.stage o.memory
  write := p.write.stage o.write

/-- What a register shows after a request: it holds, drops or takes over. -/
def Request.pick {α : Type} [Slot α] (r : Request) (old new : α) : α :=
  if r.stall then old else if r.bubble then Slot.bubble else new

theorem Request.pick_of {α : Type} [Slot α] {P : α → Prop} (r : Request) {old new : α}
    (hold : P old) (hnew : P new) (hbubble : P Slot.bubble) : P (r.pick old new) := by
  unfold pick
  split
  · exact hold
  · split
    · exact hbubble
    · exact hnew

/-- What the registers show after requests. -/
def Outputs.next (o staged : Outputs) (r : PerStage Request) : Outputs where
  fetch := r.fetch.pick o.fetch staged.fetch
  decode := r.decode.pick o.decode staged.decode
  execute := r.execute.pick o.execute staged.execute
  memory := r.memory.pick o.memory staged.memory
  write := r.write.pick o.write staged.write

/-- What the hazard unit sees of what the registers show and of what is staged. -/
def Outputs.hazards (o staged : Outputs) (missInFlight : Bool) : HazardInputs where
  decodeOp := o.decode.opcode
  decodeSources := (Instruction.decode o.decode.word o.decode.opcode).operands.sources
  executeOp := o.execute.opcode
  executeDst := o.execute.dst
  condHolds := staged.memory.condHolds
  statuses :=
    { fetch := staged.decode.status
      decode := staged.execute.status
      execute := staged.memory.status
      memory := staged.write.status
      write := o.write.status }
  missInFlight := missInFlight

namespace Simulation

/-! ## What the stages yield -/

/-- What the registers show. -/
def outputs (s : Simulation) : Outputs := s.pipeline.outputs

/-- The registers of the core after writeback. -/
def retiredTo (s : Simulation) : RegisterFile := writeStage s.outputs.write s.core.registers

/-- What memory yields, and the bus after it. -/
def accessed (s : Simulation) : WriteSlot × Bus := memoryStage s.outputs.memory s.bus

/-- What execute yields, and the flags after it. -/
def executed (s : Simulation) : MemorySlot × Flags := executeStage s.outputs.execute s.core.flags

/-- The producers that decode sees. -/
def supplied (s : Simulation) : Producers :=
  .collect s.outputs.execute s.executed.1 s.outputs.memory s.accessed.1 s.outputs.write

/-- What decode yields. -/
def decoded (s : Simulation) : ExecuteSlot :=
  decodeStage s.outputs.decode s.retiredTo s.supplied

/-- What fetch yields. -/
def fetched (s : Simulation) : FetchSlot × DecodeSlot :=
  fetchStage s.outputs.fetch s.outputs.execute s.outputs.memory s.accessed.2

/-- What the stages yield for the five registers. -/
def staged (s : Simulation) : Outputs :=
  ⟨s.fetched.1, s.fetched.2, s.decoded, s.executed.1, s.accessed.1⟩

/-- What the hazard unit looks at. -/
def hazards (s : Simulation) : HazardInputs :=
  s.outputs.hazards s.staged s.accessed.2.missInFlight

/-- All that a cycle does. -/
theorem step_eq (s : Simulation) : s.step =
    { s with
      core := ⟨s.fetched.1.predicted, s.retiredTo, s.executed.2, s.outputs.write.status⟩
      bus := s.accessed.2
      pipeline := ((s.pipeline.stage s.staged).judge s.hazards.control).tick
      counters := s.counters.count s.outputs.write.status s.hazards.detect } := by
  rfl

@[simp] theorem registers_step (s : Simulation) : s.step.core.registers = s.retiredTo := by
  rw [step_eq]

@[simp] theorem flags_step (s : Simulation) : s.step.core.flags = s.executed.2 := by
  rw [step_eq]

@[simp] theorem status_step (s : Simulation) : s.step.core.status = s.outputs.write.status := by
  rw [step_eq]

@[simp] theorem bus_step (s : Simulation) : s.step.bus = s.accessed.2 := by
  rw [step_eq]

@[simp] theorem pipeline_step (s : Simulation) : s.step.pipeline =
    ((s.pipeline.stage s.staged).judge s.hazards.control).tick := by
  rw [step_eq]

@[simp] theorem counters_step (s : Simulation) : s.step.counters =
    s.counters.count s.outputs.write.status s.hazards.detect := by
  rw [step_eq]

end Simulation

/-! ## Requests -/

namespace HazardInputs

theorem ret_detect (i : HazardInputs) : i.detect.ret =
    (i.decodeOp = .ret && !i.detect.mispredict && !i.detect.loadUse) := rfl

theorem mispredict_detect (i : HazardInputs) :
    i.detect.mispredict = (i.executeOp = .bCond && !i.condHolds) := rfl

theorem loadUse_detect (i : HazardInputs) : i.detect.loadUse =
    (i.executeOp = .ldur && i.executeDst != Reg.zero &&
      (i.decodeSources.1 == i.executeDst || i.decodeSources.2 == i.executeDst) &&
      !i.detect.mispredict) := rfl

/-- Only writeback can be asked for two things, and only if it is to retire the end of a run while a
miss is in flight. -/
theorem control_consistent (i : HazardInputs)
    (hw : i.missInFlight = true → i.statuses.write.isTerminal = false) :
    (i.control.fetch.bubble && i.control.fetch.stall) = false ∧
    (i.control.decode.bubble && i.control.decode.stall) = false ∧
    (i.control.execute.bubble && i.control.execute.stall) = false ∧
    (i.control.memory.bubble && i.control.memory.stall) = false ∧
    (i.control.write.bubble && i.control.write.stall) = false := by
  have hflight : i.detect.missInFlight = i.missInFlight := rfl
  have hbad : i.faulted.write = i.statuses.write.isTerminal := rfl
  -- a load hides a return, and a misprediction hides a load
  have hload : (i.detect.ret || i.detect.mispredict) = true → i.detect.loadUse = false := by
    intro h
    cases hl : i.detect.loadUse with
    | false => rfl
    | true =>
      have hm := hl
      rw [loadUse_detect, Bool.and_eq_true, Bool.not_eq_true'] at hm
      rw [ret_detect, hl, hm.2] at h
      simp at h
  simp only [control, hflight, hbad]
  refine ⟨rfl, ?_, ?_, rfl, ?_⟩
  · cases hr : (i.detect.ret || i.detect.mispredict) with
    | false => simp
    | true =>
      rw [hload hr]
      cases i.faulted.decode <;> cases i.missInFlight <;> rfl
  · cases i.faulted.execute <;> cases i.missInFlight <;> simp
  · cases hm : i.missInFlight with
    | false => rfl
    | true => rw [hw hm]; rfl

theorem faulted_memory_of_write {i : HazardInputs} (h : i.faulted.write = true) :
    i.faulted.memory = true := by
  change (_ || i.faulted.write) = true
  rw [h, Bool.or_true]

theorem faulted_execute_of_memory {i : HazardInputs} (h : i.faulted.memory = true) :
    i.faulted.execute = true := by
  change (_ || i.faulted.memory) = true
  rw [h, Bool.or_true]

theorem faulted_decode_of_execute {i : HazardInputs} (h : i.faulted.execute = true) :
    i.faulted.decode = true := by
  change (_ || i.faulted.execute) = true
  rw [h, Bool.or_true]

theorem faulted_fetch_of_decode {i : HazardInputs} (h : i.faulted.decode = true) :
    i.faulted.fetch = true := by
  change (_ || i.faulted.decode) = true
  rw [h, Bool.or_true]

end HazardInputs

/-! ## What the requests come to -/

namespace Outputs

variable {o staged : Outputs} {i : HazardInputs}

theorem next_write (hf : i.missInFlight = false) (hb : i.faulted.write = false) :
    (o.next staged i.control).write = staged.write := by
  have hflight : i.detect.missInFlight = false := hf
  simp [next, Request.pick, HazardInputs.control, hflight, hb]

theorem next_memory (hf : i.missInFlight = false) (hb : i.faulted.memory = false) :
    (o.next staged i.control).memory = staged.memory := by
  have hflight : i.detect.missInFlight = false := hf
  simp [next, Request.pick, HazardInputs.control, hflight, hb]

/-- Whatever ends the run stays where it is, with all that comes after it. -/
theorem next_memory_of_faulted (hb : i.faulted.memory = true) :
    (o.next staged i.control).memory = o.memory := by
  simp [next, Request.pick, HazardInputs.control, hb]

theorem next_execute_of_faulted (hb : i.faulted.execute = true) :
    (o.next staged i.control).execute = o.execute := by
  simp [next, Request.pick, HazardInputs.control, hb]

theorem next_decode_of_faulted (hb : i.faulted.execute = true) :
    (o.next staged i.control).decode = o.decode := by
  have hdecode := HazardInputs.faulted_decode_of_execute hb
  simp [next, Request.pick, HazardInputs.control, hdecode]

variable (o staged) in
/-- A misprediction throws away the two instructions behind the branch. -/
theorem next_of_mispredict (hf : i.missInFlight = false) (hb : i.faulted.execute = false)
    (hm : i.detect.mispredict = true) :
    (o.next staged i.control).fetch = staged.fetch ∧
    (o.next staged i.control).decode = {} ∧ (o.next staged i.control).execute = {} := by
  have hflight : i.detect.missInFlight = false := hf
  have hload : i.detect.loadUse = false := by rw [HazardInputs.loadUse_detect, hm]; simp
  have hret : i.detect.ret = false := by rw [HazardInputs.ret_detect, hm]; simp
  have hdecode : i.faulted.decode = i.faulted.execute := by
    change ((!i.detect.mispredict && _) || i.faulted.execute) = _
    rw [hm]
    rfl
  have hfetch : i.faulted.fetch = i.faulted.execute := by
    change ((!i.detect.mispredict && _) || i.faulted.decode) = _
    rw [hm, hdecode]
    rfl
  rw [hb] at hdecode hfetch
  simp only [next, Request.pick, HazardInputs.control, hflight, hload, hret, hm, hb, hdecode,
    hfetch]
  exact ⟨rfl, rfl, rfl⟩

variable (o staged) in
/-- Without a misprediction and an end in sight, decode waits for loads, and fetch for loads and
returns. -/
theorem next_of_clear (hf : i.missInFlight = false) (hb : i.faulted.execute = false)
    (hm : i.detect.mispredict = false) :
    (o.next staged i.control).execute = (if i.detect.loadUse then {} else staged.execute) ∧
    (o.next staged i.control).decode =
      (if i.detect.loadUse || i.statuses.decode.isTerminal then o.decode
        else if i.detect.ret then {} else staged.decode) ∧
    (o.next staged i.control).fetch =
      (if i.detect.ret || i.detect.loadUse || i.statuses.fetch.isTerminal ||
          i.statuses.decode.isTerminal then o.fetch
        else staged.fetch) := by
  have hflight : i.detect.missInFlight = false := hf
  have hdecode : i.faulted.decode = i.statuses.decode.isTerminal := by
    change ((!i.detect.mispredict && i.statuses.decode.isTerminal) || i.faulted.execute) = _
    rw [hm, hb]
    simp
  have hfetch : i.faulted.fetch =
      (i.statuses.fetch.isTerminal || i.statuses.decode.isTerminal) := by
    change ((!i.detect.mispredict && i.statuses.fetch.isTerminal) || i.faulted.decode) = _
    rw [hm, hdecode]
    simp
  simp only [next, Request.pick, HazardInputs.control, hflight, hm, hb, hdecode, hfetch]
  refine ⟨?_, ?_, ?_⟩
  · cases i.detect.loadUse <;> rfl
  · cases i.detect.loadUse <;> cases i.statuses.decode.isTerminal <;> cases i.detect.ret <;> rfl
  · simp [Bool.or_assoc]

end Outputs

/-- The end of a cycle for a register that is asked for one thing. -/
theorem Latch.output_tick {α : Type} [Slot α] (l : Latch α) (a : α) (r : Request)
    (h : l.verdict ≠ .error) (hr : (r.bubble && r.stall) = false) :
    (((l.stage a).judge r.bubble r.stall).tick).output = r.pick l.output a := by
  obtain ⟨bubble, stall⟩ := r
  match bubble, stall, hr with
  | false, false, _ => simp [judge, tick, Request.pick, stage, h]
  | false, true, _ => simp [judge, tick, Request.pick, stage, h]
  | true, false, _ => simp [judge, tick, Request.pick, stage, h]

theorem Latch.verdict_tick {α : Type} [Slot α] (l : Latch α) (a : α) (r : Request)
    (h : l.verdict ≠ .error) (hr : (r.bubble && r.stall) = false) :
    (((l.stage a).judge r.bubble r.stall).tick).verdict ≠ .error := by
  obtain ⟨bubble, stall⟩ := r
  match bubble, stall, hr with
  | false, false, _ => simp [judge, tick, stage, h]
  | false, true, _ => simp [judge, tick, stage, h]
  | true, false, _ => simp [judge, tick, stage, h]

namespace Simulation

/-- So many cycles. -/
def steps : Nat → Simulation → Simulation
  | 0, s => s
  | n + 1, s => (steps n s).step

theorem steps_add (s : Simulation) (i j : Nat) : s.steps (i + j) = (s.steps i).steps j := by
  induction j with
  | zero => rfl
  | succ j ih => exact congrArg step ih

theorem cycles_steps (s : Simulation) (n : Nat) :
    (s.steps n).counters.cycles = s.counters.cycles + n := by
  induction n with
  | zero => rfl
  | succ n ih => rw [steps, cycles_step, ih, Nat.add_assoc]

theorem steps_succ (s : Simulation) (n : Nat) : s.steps (n + 1) = s.step.steps n := by
  rw [Nat.add_comm, steps_add]
  rfl

/-- What holds of a machine and of the cycles after its next one holds of its cycles. -/
theorem forall_steps {P : Simulation → Prop} {s : Simulation} {n : Nat} (h : P s)
    (hstep : ∀ i, i < n → P (s.step.steps i)) : ∀ i, i < n + 1 → P (s.steps i) := by
  intro i hi
  cases i with
  | zero => exact h
  | succ i =>
    rw [steps_succ]
    exact hstep i (Nat.lt_of_succ_lt_succ hi)

/-- No pipeline register is in error. -/
structure Healthy (s : Simulation) : Prop where
  fetch : s.pipeline.fetch.verdict ≠ .error
  decode : s.pipeline.decode.verdict ≠ .error
  execute : s.pipeline.execute.verdict ≠ .error
  memory : s.pipeline.memory.verdict ≠ .error
  write : s.pipeline.write.verdict ≠ .error

theorem healthy_start (entry : Word) (bus : Bus) (backend : Backend) (limit : Nat) :
    (start entry bus backend limit).Healthy := by
  constructor <;> nofun

variable {s : Simulation}

theorem healthy_step (h : s.Healthy)
    (hw : s.accessed.2.missInFlight = true → s.outputs.write.status.isTerminal = false) :
    s.step.Healthy := by
  obtain ⟨hf, hd, hx, hm, hw'⟩ := s.hazards.control_consistent hw
  constructor
  · rw [pipeline_step]
    exact s.pipeline.fetch.verdict_tick s.fetched.1 s.hazards.control.fetch h.fetch hf
  · rw [pipeline_step]
    exact s.pipeline.decode.verdict_tick s.fetched.2 s.hazards.control.decode h.decode hd
  · rw [pipeline_step]
    exact s.pipeline.execute.verdict_tick s.decoded s.hazards.control.execute h.execute hx
  · rw [pipeline_step]
    exact s.pipeline.memory.verdict_tick s.executed.1 s.hazards.control.memory h.memory hm
  · rw [pipeline_step]
    exact s.pipeline.write.verdict_tick s.accessed.1 s.hazards.control.write h.write hw'

theorem outputs_step (h : s.Healthy)
    (hw : s.accessed.2.missInFlight = true → s.outputs.write.status.isTerminal = false) :
    s.step.outputs = s.outputs.next s.staged s.hazards.control := by
  obtain ⟨hf, hd, hx, hm, hw'⟩ := s.hazards.control_consistent hw
  have hfetch := s.pipeline.fetch.output_tick s.fetched.1 s.hazards.control.fetch h.fetch hf
  have hdecode := s.pipeline.decode.output_tick s.fetched.2 s.hazards.control.decode h.decode hd
  have hexecute := s.pipeline.execute.output_tick s.decoded s.hazards.control.execute h.execute hx
  have hmemory := s.pipeline.memory.output_tick s.executed.1 s.hazards.control.memory h.memory hm
  have hwrite := s.pipeline.write.output_tick s.accessed.1 s.hazards.control.write h.write hw'
  rw [outputs, pipeline_step]
  exact congr (congr (congr (congr (congrArg Outputs.mk hfetch) hdecode) hexecute) hmemory) hwrite

/-- While no miss is in flight, registers do as they are asked. -/
theorem step_of_calm (h : s.Healthy) (hf : s.accessed.2.missInFlight = false) :
    s.step.Healthy ∧ s.step.outputs = s.outputs.next s.staged s.hazards.control := by
  have hw : s.accessed.2.missInFlight = true → s.outputs.write.status.isTerminal = false := by
    intro hflight
    rw [hf] at hflight
    cases hflight
  exact ⟨healthy_step h hw, outputs_step h hw⟩

end Simulation

end FiveStage
