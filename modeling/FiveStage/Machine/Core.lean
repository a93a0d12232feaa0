import FiveStage.Machine.Registers

/-!
# The processor core

* `Status` : what every instruction carries through the pipeline;
* `Core` : program counter, registers, flags and status; `Core.start` : its state at power-on.
-/

namespace FiveStage

/-- The condition of an instruction, and of the core that retires it. -/
inductive Status where
  /-- No instruction at all. -/
  | bubble
  /-- All is well. -/
  | ok
  /-- A halt instruction, or a return from the entry function. -/
  | halt
  /-- A data address that cannot be accessed. -/
  | badAddress
  /-- A word that is no instruction or cannot be fetched. -/
  | badInstruction
  deriving DecidableEq, Repr, Inhabited

namespace Status

/-- The statuses that end a run once they reach writeback. -/
def isTerminal : Status → Bool
  | bubble | ok => false
  | halt | badAddress | badInstruction => true

/-- Three letters, as reports show them. -/
def text : Status → String
  | bubble => "BUB"
  | ok => "AOK"
  | halt => "HLT"
  | badAddress => "ADR"
  | badInstruction => "INS"

end Status

/-- The address in the link register at power-on; a return to it ends the program. -/
def returnFromEntry : Word := 0x0000DEADBEEF0000

/-- The state of the processor core. -/
structure Core where
  /-- The address fetch has predicted to come next. -/
  pc : Word
  registers : RegisterFile
  flags : Flags
  status : Status
  deriving DecidableEq

/-- A core about to enter a program, with its stack growing down from `top`. -/
def Core.start (entry top : Word) : Core where
  pc := entry
  registers := (RegisterFile.blank.write Reg.sp (top - 8)).write Reg.link returnFromEntry
  flags := .initial
  status := .ok

end FiveStage
