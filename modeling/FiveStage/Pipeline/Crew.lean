import FiveStage.Pipeline.Simulation

/-!
# One thread for each stage

Five workers and a driver share one machine. Each worker takes what it needs, works, and stages what
it has made, each in one atomic move; three barriers keep the cycle together.

* `start` : everybody begins the cycle;
* `stagesDone` : fetch, execute, memory and writeback are done;
* `decoded` : decode, which needs what execute and memory have made in the same cycle, is done.

After the last barrier the driver alone ends the cycle and says whether there is another one.

* `Crew` : the machine, the stop flag, and where each thread is;
* `Crew.move?` : the state after a move, if the move is possible;
* `Simulation.runInThreads` : a run in which the first thread that can move does.
-/

namespace FiveStage

/-- The places where threads wait for each other. -/
inductive Barrier where
  | start | stagesDone | decoded
  deriving DecidableEq, Repr

/-- Where a worker is. It works on an `α` and stages a `β`. -/
inductive WorkerPoint (α β : Type) where
  | waiting (b : Barrier)
  /-- Past the first barrier, about to look at the stop flag. -/
  | checking
  | reading
  | working (a : α)
  | staging (b : β)
  | gone
  deriving DecidableEq, Repr

/-- Where the driver is. -/
inductive DriverPoint where
  | waiting (b : Barrier)
  /-- About to see whether a miss is in flight. -/
  | inspecting
  | finishing (missInFlight : Bool)
  | deciding
  | stopping
  /-- At the first barrier for the last time. -/
  | leaving
  | gone
  deriving DecidableEq, Repr

/-- What fetch works on. -/
abbrev FetchWork := FetchSlot × ExecuteSlot × MemorySlot

/-- A machine with its threads. -/
structure Crew where
  machine : Simulation
  running : Bool
  fetch : WorkerPoint FetchWork (FetchSlot × DecodeSlot)
  decode : WorkerPoint (DecodeSlot × Producers) ExecuteSlot
  execute : WorkerPoint ExecuteSlot MemorySlot
  memory : WorkerPoint MemorySlot WriteSlot
  write : WorkerPoint WriteSlot Unit
  driver : DriverPoint

/-- One atomic move: of a thread, or of a barrier that lets everybody through. -/
inductive Move where
  | fetch | decode | execute | memory | write | driver
  | pass (b : Barrier)
  deriving DecidableEq, Repr

namespace Move

/-- All moves. -/
def all : List Move :=
  [fetch, decode, execute, memory, write, driver, pass .start, pass .stagesDone, pass .decoded]

end Move

namespace Crew

/-- Threads about to begin their first cycle. -/
def start (s : Simulation) : Crew where
  machine := s
  running := true
  fetch := .waiting .start
  decode := .waiting .start
  execute := .waiting .start
  memory := .waiting .start
  write := .waiting .start
  driver := .waiting .start

/-- Every thread has come to its end. -/
def allGone (c : Crew) : Bool :=
  c.fetch = .gone && c.decode = .gone && c.execute = .gone && c.memory = .gone &&
    c.write = .gone && c.driver = .gone

/-! ## Moves of the threads -/

/-- A move of fetch. -/
def moveFetch (c : Crew) : Option Crew :=
  let p := c.machine.pipeline
  match c.fetch with
  | .checking => some { c with fetch := if c.running then .reading else .gone }
  | .reading =>
    some { c with fetch := .working (p.fetch.output, p.execute.output, p.memory.output) }
  | .working (f, x, m) => some { c with fetch := .staging (fetchStage f x m c.machine.bus) }
  | .staging (f, d) =>
    some
      { c with
        machine.pipeline := { p with fetch := p.fetch.stage f, decode := p.decode.stage d }
        fetch := .waiting .stagesDone }
  | .waiting _ | .gone => none

/-- A move of decode, which works after the second barrier. -/
def moveDecode (c : Crew) : Option Crew :=
  let p := c.machine.pipeline
  match c.decode with
  | .checking => some { c with decode := if c.running then .waiting .stagesDone else .gone }
  | .reading => some { c with decode := .working (p.decode.output, c.machine.producers) }
  | .working (d, producers) =>
    some { c with decode := .staging (decodeStage d c.machine.core.registers producers) }
  | .staging x =>
    some
      { c with
        machine.pipeline := { p with execute := p.execute.stage x }
        decode := .waiting .decoded }
  | .waiting _ | .gone => none

/-- A move of execute. -/
def moveExecute (c : Crew) : Option Crew :=
  let p := c.machine.pipeline
  match c.execute with
  | .checking => some { c with execute := if c.running then .reading else .gone }
  | .reading => some { c with execute := .working p.execute.output }
  | .working x =>
    let (m, flags) := executeStage x c.machine.core.flags
    some { c with machine.core.flags := flags, execute := .staging m }
  | .staging m =>
    some
      { c with
        machine.pipeline := { p with memory := p.memory.stage m }
        execute := .waiting .stagesDone }
  | .waiting _ | .gone => none

/-- A move of memory. -/
def moveMemory (c : Crew) : Option Crew :=
  let p := c.machine.pipeline
  match c.memory with
  | .checking => some { c with memory := if c.running then .reading else .gone }
  | .reading => some { c with memory := .working p.memory.output }
  | .working m =>
    let (w, bus) := memoryStage m c.machine.bus
    some { c with machine.bus := bus, memory := .staging w }
  | .staging w =>
    some
      { c with
        machine.pipeline := { p with write := p.write.stage w }
        memory := .waiting .stagesDone }
  | .waiting _ | .gone => none

/-- A move of writeback, which stages nothing. -/
def moveWrite (c : Crew) : Option Crew :=
  match c.write with
  | .checking => some { c with write := if c.running then .reading else .gone }
  | .reading => some { c with write := .working c.machine.pipeline.write.output }
  | .working w =>
    some
      { c with
        machine.core.registers := writeStage w c.machine.core.registers
        write := .waiting .stagesDone }
  | .staging () | .waiting _ | .gone => none

/-- A move of the driver: it ends the cycle, and after the last one it clears the flag and goes to
the first barrier once more, so that the workers see it. -/
def moveDriver (c : Crew) : Option Crew :=
  match c.driver with
  | .inspecting => some { c with driver := .finishing c.machine.bus.missInFlight }
  | .finishing missInFlight =>
    some { c with machine := c.machine.finishWith missInFlight, driver := .deciding }
  | .deciding =>
    some { c with driver := if c.machine.continues then .waiting .start else .stopping }
  | .stopping => some { c with running := false, driver := .leaving }
  | .waiting _ | .leaving | .gone => none

/-! ## Barriers -/

/-- The first barrier opens when all six threads are there. -/
def passStart (c : Crew) : Option Crew :=
  let here := c.fetch = .waiting .start && c.decode = .waiting .start &&
    c.execute = .waiting .start && c.memory = .waiting .start && c.write = .waiting .start
  let opened (driver : DriverPoint) : Crew :=
    { c with
      fetch := .checking
      decode := .checking
      execute := .checking
      memory := .checking
      write := .checking
      driver := driver }
  if here then
    match c.driver with
    | .waiting .start => some (opened (.waiting .stagesDone))
    | .leaving => some (opened .gone)
    | _ => none
  else none

/-- The second barrier opens when all six threads are there. -/
def passStagesDone (c : Crew) : Option Crew :=
  if c.fetch = .waiting .stagesDone && c.decode = .waiting .stagesDone &&
      c.execute = .waiting .stagesDone && c.memory = .waiting .stagesDone &&
      c.write = .waiting .stagesDone && c.driver = .waiting .stagesDone then
    some
      { c with
        fetch := .waiting .start
        decode := .reading
        execute := .waiting .start
        memory := .waiting .start
        write := .waiting .start
        driver := .waiting .decoded }
  else none

/-- The third barrier opens when decode and the driver are there. -/
def passDecoded (c : Crew) : Option Crew :=
  if c.decode = .waiting .decoded && c.driver = .waiting .decoded then
    some { c with decode := .waiting .start, driver := .inspecting }
  else none

/-- The state after a move, if the move is possible. -/
def move? (c : Crew) : Move → Option Crew
  | .fetch => c.moveFetch
  | .decode => c.moveDecode
  | .execute => c.moveExecute
  | .memory => c.moveMemory
  | .write => c.moveWrite
  | .driver => c.moveDriver
  | .pass .start => c.passStart
  | .pass .stagesDone => c.passStagesDone
  | .pass .decoded => c.passDecoded

/-! ## Running -/

/-- At most `n` moves, each by the first that can. -/
def runFor : Nat → Crew → Crew
  | 0, c => c
  | n + 1, c =>
    match Move.all.findSome? c.move? with
    | some d => runFor n d
    | none => c

/-- The moves of one cycle: three barriers, five looks at the flag, three moves each of four
workers and of the driver, two of writeback. -/
def movesPerCycle : Nat := 25

/-- The moves after the last cycle: the driver clears the flag, the first barrier opens, and every
worker sees the flag. -/
def movesAtEnd : Nat := 7

end Crew

namespace Simulation

/-- Cycles until there is no other one to run, each stage in a thread of its own. No threads are
made if there is nothing to run. -/
def runInThreads (s : Simulation) : Simulation :=
  if s.continues then
    ((Crew.start s).runFor (Crew.movesPerCycle * s.budget + Crew.movesAtEnd)).machine
  else s

/-- Cycles until there is no other one to run, under the machine's own backend. -/
def run (s : Simulation) : Simulation :=
  match s.backend with
  | .serial => s.runSerially
  | .parallel => s.runInThreads

/-- A run under the machine's own backend, with what it says. Threads say what the stages say one
after the other. -/
def runLogged (detailed : Bool) (s : Simulation) : Log × Simulation :=
  let before := s.startLog
  let backend := s.backend
  let threaded := if backend = .parallel then some s.runInThreads else none
  let (during, serial) := runForLogged detailed s.budget [] s
  let after := threaded.getD serial
  (before ++ during ++ after.stopLog, after)

theorem runLogged_snd (detailed : Bool) (s : Simulation) : (s.runLogged detailed).2 = s.run := by
  rw [runLogged, run]
  cases h : s.backend <;> simp [runForLogged_snd, runSerially]

end Simulation

end FiveStage
