import FiveStage.Machine.Core

/-!
# Pipeline registers

* `Slot` : what a pipeline register can hold: it has a bubble and a status;
* `Verdict` : what becomes of a register when the clock ticks;
* `Latch` : input, output and verdict of one register; `Latch.stage`, `Latch.judge`, `Latch.tick`.
-/

namespace FiveStage

/-- Contents of a pipeline register. -/
class Slot (α : Type) where
  /-- The inert value that takes the place of what is thrown away. -/
  bubble : α
  status : α → Status
  setStatus : α → Status → α

/-- What becomes of a pipeline register at the end of a cycle. -/
inductive Verdict where
  | load | bubble | stall
  /-- Two verdicts at once; never left again. -/
  | error
  deriving DecidableEq, Repr, Inhabited

/-- A pipeline register: what the stage before it produced this cycle, what the stage behind it
consumes, and what the next tick will do. -/
structure Latch (α : Type) where
  input : α
  output : α
  verdict : Verdict
  deriving DecidableEq, Repr

namespace Latch

variable {α : Type} [Slot α]

/-- A register that shows a value. -/
def holding (a : α) : Latch α := ⟨Slot.bubble, a, .load⟩

/-- Takes what the stage before produced. -/
def stage (l : Latch α) (a : α) : Latch α := { l with input := a }

/-- Takes what the hazard unit asks for. To ask for a bubble and a stall at once is an error, and
an error stays. -/
def judge (l : Latch α) (bubble stall : Bool) : Latch α :=
  { l with
    verdict :=
      if l.verdict = .error then .error
      else
        match bubble, stall with
        | true, true => .error
        | true, false => .bubble
        | false, true => .stall
        | false, false => .load }

/-- The end of a cycle. A register in error shows a halted bubble. -/
def tick (l : Latch α) : Latch α :=
  { l with
    output :=
      match l.verdict with
      | .load => l.input
      | .bubble => Slot.bubble
      | .stall => l.output
      | .error => Slot.setStatus Slot.bubble .halt }

end Latch

/-- A register asked for two things shows it in its verdict. -/
theorem Latch.verdict_judge_ne_error {α : Type} {l : Latch α} {bubble stall : Bool}
    (h : (l.judge bubble stall).verdict ≠ .error) : (bubble && stall) = false := by
  cases bubble <;> cases stall <;> simp_all [Latch.judge]

end FiveStage
