import FiveStage.Pipeline.Hazard
import FiveStage.Pipeline.Stages

/-!
# The machine, cycle by cycle

* `Simulation` : core, memory bus, pipeline registers and counters of one run;
* `Simulation.writeSection` to `Simulation.fetchSection` : what each stage does to the machine in a
  cycle; `Simulation.finishCycle` : the hazard unit, the counters and the clock;
* `Simulation.step` : one cycle;
* `Simulation.runSerially` : cycles until an instruction ends the run or the budget is spent;
* `Simulation.stepLogged`, `Simulation.runForLogged` : the same, with what the machine says.
-/

namespace FiveStage

/-- How the stages of a cycle are executed. -/
inductive Backend where
  /-- One after the other, the last stage first. -/
  | serial
  /-- Each by a thread of its own. -/
  | parallel
  deriving DecidableEq, Repr, Inhabited

/-- What a run counts. -/
structure RunCounters where
  cycles : Nat
  /-- Instructions, other than bubbles, that reached writeback. -/
  retired : Nat
  loadUseStalls : Nat
  returnStalls : Nat
  mispredictions : Nat
  /-- Cycles spent waiting for a miss. -/
  missStalls : Nat
  deriving DecidableEq, Repr, Inhabited

/-- Cycles for each instruction, zero before the first. -/
def RunCounters.cyclesPerInstruction (n : RunCounters) : Float :=
  if n.retired = 0 then 0 else n.cycles.toFloat / n.retired.toFloat

/-- The counters after a cycle that retired a status and met some hazards. -/
def RunCounters.count (n : RunCounters) (retired : Status) (h : Hazards) : RunCounters where
  cycles := n.cycles + 1
  retired := if retired = .bubble then n.retired else n.retired + 1
  loadUseStalls := n.loadUseStalls + h.loadUse.toNat
  returnStalls := n.returnStalls + h.ret.toNat
  mispredictions := n.mispredictions + h.mispredict.toNat
  missStalls := n.missStalls + h.missInFlight.toNat

/-- Everything that a run changes, and its budget of cycles. -/
structure Simulation where
  core : Core
  bus : Bus
  pipeline : Pipeline
  counters : RunCounters
  backend : Backend
  /-- The run ends after this many cycles even if no instruction ends it. -/
  limit : Nat

/-- The budget of a run that asks for none. -/
def defaultLimit : Nat := 500

namespace Simulation

/-- A machine about to enter a program. -/
def start (entry : Word) (bus : Bus) (backend : Backend) (limit : Nat) : Simulation where
  core := Core.start entry bus.segments.stack.stop
  bus := bus
  pipeline := Pipeline.start entry
  counters := ⟨0, 0, 0, 0, 0, 0⟩
  backend := backend
  limit := limit

/-- An instruction that ends the run has reached writeback. -/
def finished (s : Simulation) : Bool := s.core.status.isTerminal

/-- There is another cycle to run. -/
def continues (s : Simulation) : Bool := !s.finished && s.counters.cycles < s.limit

/-! ## The sections of a cycle -/

/-- Writeback. -/
def writeSection (s : Simulation) : Simulation :=
  { s with core.registers := writeStage s.pipeline.write.output s.core.registers }

/-- Memory. -/
def memorySection (s : Simulation) : Simulation :=
  let (w, bus) := memoryStage s.pipeline.memory.output s.bus
  { s with bus := bus, pipeline.write := s.pipeline.write.stage w }

/-- Execute. -/
def executeSection (s : Simulation) : Simulation :=
  let (m, flags) := executeStage s.pipeline.execute.output s.core.flags
  { s with core.flags := flags, pipeline.memory := s.pipeline.memory.stage m }

/-- The producers of a cycle in which execute and memory are done. -/
def producers (s : Simulation) : Producers :=
  .collect s.pipeline.execute.output s.pipeline.memory.input s.pipeline.memory.output
    s.pipeline.write.input s.pipeline.write.output

/-- Decode, after execute and memory. -/
def decodeSection (s : Simulation) : Simulation :=
  let x := decodeStage s.pipeline.decode.output s.core.registers s.producers
  { s with pipeline.execute := s.pipeline.execute.stage x }

/-- Fetch. -/
def fetchSection (s : Simulation) : Simulation :=
  let p := s.pipeline
  let (f, d) := fetchStage p.fetch.output p.execute.output p.memory.output s.bus
  { s with pipeline.fetch := p.fetch.stage f, pipeline.decode := p.decode.stage d }

/-- The end of a cycle in which every stage is done, given whether a miss is in flight: the core
takes over what writeback retires and what fetch predicts, the hazard unit judges the registers, and
the clock ticks. -/
def finishWith (s : Simulation) (missInFlight : Bool) : Simulation :=
  let status := s.pipeline.write.output.status
  let (hazards, judged) := s.pipeline.handleHazards missInFlight
  { s with
    core.status := status
    core.pc := s.pipeline.fetch.input.predicted
    counters := s.counters.count status hazards
    pipeline := judged.tick }

/-- The end of a cycle in which every stage is done. -/
def finishCycle (s : Simulation) : Simulation := s.finishWith s.bus.missInFlight

/-- The five stages of a cycle, the last one first. -/
def stages (s : Simulation) : Simulation :=
  s.writeSection.memorySection.executeSection.decodeSection.fetchSection

/-- One cycle. -/
def step (s : Simulation) : Simulation := s.stages.finishCycle

/-! ## Running -/

/-- At most `n` cycles, as long as there is another one to run. -/
def runFor : Nat → Simulation → Simulation
  | 0, s => s
  | n + 1, s => if s.continues then runFor n s.step else s

/-- The cycles that are left of the budget. -/
def budget (s : Simulation) : Nat := s.limit - s.counters.cycles

/-- Cycles until there is no other one to run. -/
def runSerially (s : Simulation) : Simulation := runFor s.budget s

@[simp] theorem cycles_step (s : Simulation) : s.step.counters.cycles = s.counters.cycles + 1 :=
  rfl

@[simp] theorem limit_step (s : Simulation) : s.step.limit = s.limit := rfl

/-- A run goes on until there is no other cycle: its budget never cuts it short. -/
theorem continues_runSerially (s : Simulation) : s.runSerially.continues = false := by
  have key : ∀ n (s : Simulation), s.budget ≤ n → (runFor n s).continues = false := by
    intro n
    induction n with
    | zero =>
      intro s h
      simp only [budget] at h
      rw [runFor, continues, Bool.and_eq_false_iff]
      exact Or.inr (decide_eq_false (by omega))
    | succ n ih =>
      intro s h
      rw [runFor]
      split
      · apply ih
        simp only [budget, cycles_step, limit_step] at h ⊢
        omega
      · simpa using ‹¬ s.continues = true›
  exact key _ s (Nat.le_refl _)

/-! ## The log -/

private def note (level : LogLevel) (text : String) : LogRecord := ⟨level, .pipeline, text⟩

/-- What the stages of a cycle say: memory, then fetch, which sees of memory only the layout. -/
def stagesLog (s : Simulation) : Log :=
  let p := s.pipeline
  memoryLog p.memory.output s.bus ++
    fetchLog p.fetch.output p.execute.output p.memory.output s.bus

/-- What the end of a cycle says about the cycle. -/
def finishLog (s : Simulation) : Log :=
  let w := s.pipeline.write.output
  note .debug ("cycle " ++ decimal s.counters.cycles ++ ": pc " ++
      s.pipeline.fetch.input.predicted.hex ++ ", W " ++ w.opcode.mnemonic ++ " " ++
      w.status.text) ::
    (HazardInputs.collect s.pipeline s.bus.missInFlight).foundLog

/-- What the end of a cycle says about registers asked for two things. Each of them is in error
afterwards, so that nothing has to be looked at while no register is. -/
def conflictLog (s next : Simulation) : Log :=
  if next.pipeline.inError then
    (HazardInputs.collect s.pipeline s.bus.missInFlight).conflictLog
  else []

theorem conflictLog_finishCycle (s : Simulation) :
    s.conflictLog s.finishCycle =
      (HazardInputs.collect s.pipeline s.bus.missInFlight).conflictLog := by
  rw [conflictLog]
  split
  · rfl
  · rename_i h
    simp only [finishCycle, finishWith, Pipeline.handleHazards, Pipeline.inError, Pipeline.tick,
      Latch.tick, Pipeline.judge, List.contains_cons, List.contains_nil, Bool.or_eq_true,
      beq_iff_eq, not_or, Bool.false_eq_true] at h
    obtain ⟨hf, hd, hx, hm, hw, -⟩ := h
    simp only [HazardInputs.conflictLog, Latch.verdict_judge_ne_error (Ne.symm hf),
      Latch.verdict_judge_ne_error (Ne.symm hd), Latch.verdict_judge_ne_error (Ne.symm hx),
      Latch.verdict_judge_ne_error (Ne.symm hm), Latch.verdict_judge_ne_error (Ne.symm hw)]
    rfl

/-- One cycle, with what it says. In detail, each stage and the end of the cycle speak; otherwise
only what is out of order is mentioned. -/
def stepLogged (detailed : Bool) (s : Simulation) : Log × Simulation :=
  let early := if detailed then s.stagesLog else []
  let done := s.stages
  let next := done.finishCycle
  let late := if detailed then done.finishLog else []
  (early ++ late ++ done.conflictLog next, next)

/-- At most `n` cycles after some have spoken already, the last one first. -/
def runForLogged (detailed : Bool) : Nat → Log → Simulation → Log × Simulation
  | 0, said, s => (said.reverse, s)
  | n + 1, said, s =>
    if s.continues then
      let (log, next) := s.stepLogged detailed
      runForLogged detailed n (log.reverse ++ said) next
    else (said.reverse, s)

/-- The machine that speaks runs like the one that does not. -/
theorem runForLogged_snd (detailed : Bool) (n : Nat) (said : Log) (s : Simulation) :
    (runForLogged detailed n said s).2 = runFor n s := by
  induction n generalizing said s with
  | zero => rfl
  | succ n ih =>
    rw [runForLogged, runFor]
    split
    · exact ih _ _
    · rfl

/-- What a run says before its first cycle. -/
def startLog (s : Simulation) : Log :=
  let backend := match s.backend with
    | .serial => "Serial"
    | .parallel => "Parallel"
  let cache := if s.bus.cached.isSome then "enabled" else "disabled"
  [note .info ("starting " ++ backend ++ " run at " ++ s.pipeline.fetch.output.predicted.hex ++
    ", cache " ++ cache)]

/-- What a run says after its last cycle. -/
def stopLog (s : Simulation) : Log :=
  (if s.finished then []
    else [note .warn ("cycle budget of " ++ decimal s.limit ++ " exhausted")]) ++
  [note .info ("stopped with status " ++ s.core.status.text ++ " after " ++
    decimal s.counters.cycles ++ " cycles, " ++ decimal s.counters.retired ++ " instructions")]

end Simulation

end FiveStage
