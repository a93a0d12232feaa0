import FiveStage.Pipeline.Slots

/-!
# Forwarding

* `Producer` : a stage that may be about to write a register, and the value it will write;
* `Producers.collect` : the three producers of a cycle; `Producers.forward` : the freshest value of
  a register.
-/

namespace FiveStage

/-- A stage that may be about to write a register. -/
structure Producer where
  dst : Nat := 0
  enable : Bool := false
  value : Word := 0
  deriving DecidableEq, Repr

/-- Whether a producer is about to write a register. -/
def Producer.supplies (p : Producer) (src : Nat) : Bool := p.enable && p.dst == src

/-- The results that are not in the register file yet. -/
structure Producers where
  execute : Producer := {}
  memory : Producer := {}
  write : Producer := {}
  deriving DecidableEq, Repr

namespace Producers

/-- The producers of a cycle in which execute has produced `executed` and memory `accessed`. -/
def collect (x : ExecuteSlot) (executed m : MemorySlot) (accessed w : WriteSlot) : Producers where
  execute := ⟨x.dst, x.writeSignals.enable, executed.result⟩
  memory :=
    ⟨m.dst, m.writeSignals.enable,
      if m.writeSignals.fromMemory then accessed.loaded else m.result⟩
  write :=
    ⟨w.dst, w.writeSignals.enable, if w.writeSignals.fromMemory then w.loaded else w.result⟩

/-- The freshest value of a register: from the nearest producer that is about to write it, else
what the register file holds. The zero register is never forwarded. -/
def forward (p : Producers) (src : Nat) (held : Word) : Word :=
  if src = Reg.zero then held
  else if p.execute.supplies src then p.execute.value
  else if p.memory.supplies src then p.memory.value
  else if p.write.supplies src then p.write.value
  else held

end Producers

end FiveStage
