import FiveStage.Sequential.Machine

/-!
# What costs cycles

The instructions of a program that a five-stage pipeline cannot finish at the rate of one a cycle.

* `Sequential.usesLoad`, `Sequential.returns`, `Sequential.fallsThrough` : the three kinds;
* `Events`, `Sequential.events` : how many of each there are among the first instructions;
* `Events.cycles` : how many cycles they take.
-/

namespace FiveStage

/-- How many instructions of each kind a program has executed. -/
structure Events where
  /-- All instructions, the one that ended the program included. -/
  executed : Nat
  /-- Instructions that read what the one before them loaded. -/
  loadUses : Nat
  returns : Nat
  /-- Conditional branches that were not taken. -/
  fallThroughs : Nat
  deriving DecidableEq, Repr, Inhabited

namespace Sequential

/-- The instruction at the program counter is going to be executed: the program has not ended, and
the instruction is not one that ends it. -/
def proceeds (s : Sequential) : Bool :=
  !s.core.status.isTerminal && !s.fetchedStatus.isTerminal

/-- The registers that the instruction at the program counter reads. -/
def sources (s : Sequential) : Nat × Nat :=
  if s.core.pc = 0 then Operands.sources {}
  else (Instruction.decode s.fetched.1 s.fetched.2).operands.sources

/-- The instruction at the program counter loads a register that the one after it reads. -/
def usesLoad (s : Sequential) : Bool :=
  s.proceeds && s.fetched.2 = .ldur && !s.step.core.status.isTerminal &&
    s.operands.dst != Reg.zero &&
    (s.step.sources.1 == s.operands.dst || s.step.sources.2 == s.operands.dst)

/-- The instruction at the program counter is a return. -/
def returns (s : Sequential) : Bool := s.proceeds && s.fetched.2 = .ret

/-- The instruction at the program counter is a conditional branch that is not taken. -/
def fallsThrough (s : Sequential) : Bool :=
  s.proceeds && s.fetched.2 = .bCond && !s.computed.1.condHolds

/-- The events of one step. -/
def eventsOfStep (s : Sequential) : Events where
  executed := if s.core.status.isTerminal then 0 else 1
  loadUses := s.usesLoad.toNat
  returns := s.returns.toNat
  fallThroughs := s.fallsThrough.toNat

end Sequential

namespace Events

/-- No events. -/
def none : Events := ⟨0, 0, 0, 0⟩

/-- The events of two stretches of a program. -/
def add (a b : Events) : Events where
  executed := a.executed + b.executed
  loadUses := a.loadUses + b.loadUses
  returns := a.returns + b.returns
  fallThroughs := a.fallThroughs + b.fallThroughs

/-- The cycles that a whole program takes, with a cycle for each instruction, four until the first
one is through, and `misses` waits of `latency` cycles. -/
def cycles (e : Events) (latency misses : Nat) : Nat :=
  e.executed + 4 + e.loadUses + e.returns + 2 * e.fallThroughs + latency * misses

end Events

/-- The events of the first so many instructions. -/
def Sequential.events : Nat → Sequential → Events
  | 0, _ => .none
  | n + 1, s => s.eventsOfStep.add (events n s.step)

/-- A program that has ended has no more events. -/
theorem Sequential.events_of_isTerminal {s : Sequential} (h : s.core.status.isTerminal = true)
    (n : Nat) : s.events n = .none := by
  induction n with
  | zero => rfl
  | succ n ih =>
    rw [events, step_of_isTerminal h, ih]
    simp [eventsOfStep, usesLoad, returns, fallsThrough, proceeds, h, Events.add, Events.none]

end FiveStage
