import FiveStage.Proofs.Pipeline.Cycle
import FiveStage.Proofs.Sequential.Slots

/-!
# Forwarded operands

* `Producer.Carries` : a producer offers what its instruction is going to change in the registers;
* `Producer.Redundant` : what a producer offers is in the registers already;
* `Producers.forward_eq` : the freshest value of a register is the one it will have;
* `decodeStage_eq` : decode then works as if everything before it were done;
* `Sequential.carries_writeSlot`, `Sequential.carries_executeSlot` : what memory and execute offer.
-/

namespace FiveStage

/-- A producer offers exactly what the registers after its instruction have other than before. -/
def Producer.Carries (p : Producer) (before after : RegisterFile) (r : Nat) : Prop :=
  r ≠ Reg.zero → after.read r = if p.supplies r then p.value else before.read r

/-- What a producer offers is in the registers already. -/
def Producer.Redundant (p : Producer) (rf : RegisterFile) : Prop :=
  ∀ r, r ≠ Reg.zero → p.supplies r = true → rf.read r = p.value

theorem Producer.carries_of_disabled {p : Producer} (h : p.enable = false) (rf : RegisterFile)
    (r : Nat) : p.Carries rf rf r := by
  intro _
  rw [supplies, h, Bool.false_and, if_neg Bool.false_ne_true]

theorem Producer.redundant_of_disabled {p : Producer} (h : p.enable = false) (rf : RegisterFile) :
    p.Redundant rf := by
  intro r _ hs
  rw [supplies, h] at hs
  cases hs

/-- The instruction in writeback has written what it offers. -/
theorem WriteSlot.redundant_producer {w : WriteSlot} (hw : w.writeSignals.Wired w.dst w.status)
    (hs : w.status = .ok) (rf : RegisterFile) : w.producer.Redundant (writeStage w rf) := by
  intro r hr hsup
  rw [read_writeStage hw hs rf hr, if_pos hsup]

/-- The freshest value of a register is the one it has once all producers are done. -/
theorem Producers.forward_eq {p : Producers} {rf₀ rf₁ rf₂ : RegisterFile} {r : Nat}
    (hw : p.write.Redundant rf₀) (hm : p.memory.Carries rf₀ rf₁ r)
    (hx : p.execute.Carries rf₁ rf₂ r) : p.forward r (rf₀.read r) = rf₂.read r := by
  unfold forward
  by_cases hr : r = Reg.zero
  · rw [if_pos hr, hr]
    rfl
  · rw [if_neg hr, hx hr]
    split
    · rfl
    · rw [hm hr]
      split
      · rfl
      · split
        · rename_i hs
          exact (hw r hr hs).symm
        · rfl

theorem Producers.forward_none (r : Nat) (held : Word) :
    ({} : Producers).forward r held = held := by
  unfold forward
  split <;> rfl

/-- What is in the registers already need not be offered. -/
theorem Producers.forward_of_redundant {p : Producers} {rf : RegisterFile}
    (h : p.write.Redundant rf) (r : Nat) :
    p.forward r (rf.read r) = ({ p with write := {} } : Producers).forward r (rf.read r) := by
  unfold forward
  by_cases hr : r = Reg.zero
  · rw [if_pos hr, if_pos hr]
  · rw [if_neg hr, if_neg hr]
    by_cases hs : p.write.supplies r = true
    · rw [if_pos hs, h r hr hs]
      rfl
    · rw [if_neg hs]
      rfl

/-- Decode depends on the two registers it reads. -/
theorem decodeStage_eq {d : DecodeSlot} {rf rf' : RegisterFile} {p p' : Producers}
    (h : ∀ r, r = (Instruction.decode d.word d.opcode).operands.src1 ∨
      r = (Instruction.decode d.word d.opcode).operands.src2 →
      p.forward r (rf.read r) = p'.forward r (rf'.read r)) :
    decodeStage d rf p = decodeStage d rf' p' := by
  unfold decodeStage
  simp only [h _ (.inl rfl), h _ (.inr rfl)]

/-! ## What the instructions of a program offer -/

namespace Sequential

variable {s : Sequential}

/-- Memory offers what the instruction in it is going to change. -/
theorem carries_writeSlot (ha : s.Alive) (h : s.step.Alive) (r : Nat) :
    s.writeSlot.producer.Carries s.core.registers s.step.core.registers r := by
  intro hr
  rw [registers_step ha]
  exact read_writeStage s.wired_writeSlot (status_writeSlot_of_alive_step ha h) _ hr

/-- Execute offers what the instruction in it is going to change, unless that is yet to be
loaded. -/
theorem carries_executeSlot (ha : s.Alive) (h : s.step.Alive) {r : Nat}
    (hload : s.executeSlot.opcode = .ldur → s.executeSlot.dst ≠ r) :
    Producer.Carries ⟨s.executeSlot.dst, s.executeSlot.writeSignals.enable, s.memorySlot.result⟩
      s.core.registers s.step.core.registers r := by
  intro hr
  rw [carries_writeSlot ha h r hr]
  have hsig : s.writeSlot.writeSignals = s.executeSlot.writeSignals :=
    s.writeSlot_from.writeSignals.trans s.memorySlot_from.writeSignals
  have hdst : s.writeSlot.dst = s.executeSlot.dst :=
    s.writeSlot_from.dst.trans s.memorySlot_from.dst
  simp only [Producer.supplies, WriteSlot.producer, hsig, hdst, Bool.and_eq_true, beq_iff_eq]
  split
  · rename_i hs
    have hmem : s.executeSlot.writeSignals.fromMemory = false := by
      have hop : s.executeSlot.opcode ≠ .ldur := fun hop => hload hop hs.2
      exact decide_eq_false hop
    rw [if_neg (by rw [hmem]; exact Bool.false_ne_true), s.writeSlot_from.result]
  · rfl

end Sequential

end FiveStage
