import FiveStage.Pipeline.Stages

/-!
# One instruction at a time

The machine that programs are written for. It is done with an instruction before it looks at the
next one, so nothing is forwarded, predicted or stalled, and its memory has no cache.

* `Sequential` : core, memory and layout; `Sequential.start` : about to enter a program;
* `Sequential.fetched`, `Sequential.operands`, `Sequential.next` : the instruction at the program
  counter, what it works on, and where the program goes on;
* `Sequential.step` : one instruction, `Sequential.run` : some of them.
-/

namespace FiveStage

/-- A machine that executes one instruction at a time. Its status is that of the instruction it
executed last. -/
structure Sequential where
  core : Core
  memory : Memory
  segments : SegmentMap

namespace Sequential

/-- A machine about to enter a program. -/
def start (entry : Word) (m : Memory) (map : SegmentMap) : Sequential :=
  ⟨Core.start entry map.stack.stop, m, map⟩

/-- The memory as the stages see it. -/
def bus (s : Sequential) : Bus := ⟨s.memory, s.segments, none⟩

/-- The word and the opcode at the program counter. -/
def fetched (s : Sequential) : InstrWord × Opcode := fetchedWord s.bus s.core.pc

/-- The status of the instruction at the program counter before it is executed. Zero is the address
of no instruction: the program has returned from its entry function. -/
def fetchedStatus (s : Sequential) : Status :=
  if s.core.pc = 0 then .halt else s.fetched.2.initialStatus

/-- What the instruction at the program counter works on, all of it from the registers. -/
def operands (s : Sequential) : ExecuteSlot :=
  let (word, op) := s.fetched
  decodeStage
    { word := word
      opcode := op
      following := s.core.pc.sum 4
      page := s.core.pc &&& highMask 12
      status := .ok }
    s.core.registers {}

/-- What the instruction at the program counter computes, and the flags it leaves. -/
def computed (s : Sequential) : MemorySlot × Flags := executeStage s.operands s.core.flags

/-- What the instruction at the program counter brings from memory or leaves in it. -/
def accessed (s : Sequential) : WriteSlot × Bus := memoryStage s.computed.1 s.bus

/-- Where the program goes on after the instruction at the program counter. -/
def next (s : Sequential) : Word :=
  let (word, op) := s.fetched
  let beyond := s.core.pc + 4
  let target := s.core.pc + word.branchOffset op
  match op with
  | .b | .bl => target
  | .bCond => if s.computed.1.condHolds then target else beyond
  | .ret => if s.operands.valA = returnFromEntry then 0 else s.operands.valA
  | _ => beyond

/-- Executes the instruction at the program counter. A refused access changes nothing. -/
def execute (s : Sequential) : Sequential :=
  if s.accessed.1.status = .badAddress then { s with core.status := .badAddress }
  else
    { s with
      core.pc := s.next
      core.registers := writeStage s.accessed.1 s.core.registers
      core.flags := s.computed.2
      core.status := .ok
      memory := s.accessed.2.memory }

/-- One instruction, unless the last one ended the program. One that ends the program changes
nothing but the status. -/
def step (s : Sequential) : Sequential :=
  if s.core.status.isTerminal then s
  else if s.fetchedStatus.isTerminal then { s with core.status := s.fetchedStatus }
  else s.execute

/-- So many instructions. -/
def run : Nat → Sequential → Sequential
  | 0, s => s
  | n + 1, s => run n s.step

/-! ## How a program ends -/

theorem step_of_isTerminal {s : Sequential} (h : s.core.status.isTerminal = true) : s.step = s := by
  rw [step, if_pos h]

theorem run_of_isTerminal {s : Sequential} (h : s.core.status.isTerminal = true) (n : Nat) :
    s.run n = s := by
  induction n with
  | zero => rfl
  | succ n ih => rw [run, step_of_isTerminal h, ih]

theorem run_add (s : Sequential) (m n : Nat) : s.run (m + n) = (s.run m).run n := by
  induction m generalizing s with
  | zero => rw [Nat.zero_add, run]
  | succ m ih => rw [Nat.succ_add, run, ih, run]

@[simp] theorem segments_step (s : Sequential) : s.step.segments = s.segments := by
  rw [step, execute]
  repeat' split
  all_goals rfl

end Sequential

end FiveStage
