import FiveStage.Proofs.Pipeline.Conclusion

/-!
# How precise a fault is

An access that memory refuses ends a run before anything behind it has come to memory or to
writeback. But the instruction right behind it is executed in the same cycle.

* `Sequential.finalFlags_of_badAddress` : the flags that are left;
* `Simulation.flags_of_badAddress` : registers, memory and flags of a run that ends so.
-/

namespace FiveStage

namespace Sequential

variable {s : Sequential}

/-- The machine at the instruction behind the one at the program counter. -/
def skip (s : Sequential) : Sequential := { s with core.pc := s.core.pc + 4 }

theorem beyond_eq_skip (h : s.fetchedStatus = .ok) (hb : s.writeSlot.status = .badAddress) :
    s.beyond = s.skip := by
  have hnext : s.next = s.core.pc + 4 := by
    have hop := opcode_of_badAddress h hb
    rw [opcode_decodeSlot h] at hop
    unfold next
    rcases hop with hop | hop <;> simp only [hop]
  rw [beyond_of_badAddress h hb, skip, hnext]

/-- The instruction behind a refused access has set the flags, unless it waits for what was to be
loaded. -/
theorem finalFlags_of_badAddress (ha : s.Alive) (h : s.fetchedStatus = .ok)
    (hb : s.writeSlot.status = .badAddress) : s.finalFlags =
      if s.delaysNext then s.core.flags else (executeStage s.skip.executeSlot s.core.flags).2 := by
  have hgap : s.gap = s.delaysNext.toNat := by
    obtain ⟨hreturns, hfall⟩ := no_branch_of_badAddress ha h hb
    rw [gap_eq ha, hreturns, hfall]
    rfl
  rw [finalFlags, hgap, beyond_eq_skip h hb]
  cases s.delaysNext with
  | true => exact if_neg fun hboth => by cases hboth.2
  | false => exact if_pos ⟨hb, rfl⟩

theorem of_step_badAddress (ha : s.Alive) (h : s.step.core.status = .badAddress) :
    s.fetchedStatus = .ok ∧ s.writeSlot.status = .badAddress := by
  have hb : s.writeSlot.status = .badAddress := (status_step ha).symm.trans h
  exact ⟨s.fetchedStatus_cases.resolve_right fun ht =>
    s.fetchedStatus_ne_badAddress ((status_writeSlot_of_isTerminal ht).symm.trans hb), hb⟩

end Sequential

namespace Simulation

/-- A run that ends with a refused access leaves the registers and the memory that the sequential
machine has in front of it. So it is with the flags only if the instruction behind it sets none, or
waits for what was to be loaded. -/
theorem flags_of_badAddress (entry : Word) (m : Memory) (map : SegmentMap)
    (cache : Option Geometry) (backend : Backend) (limit : Nat) (hcode : map.ProtectsCode)
    (hspecial : ∀ g, cache = some g → g.AvoidsSpecial map)
    (hclear : (Sequential.start entry m map).StaysClear)
    (hbad : (start entry (Bus.start m map cache) backend limit).run.core.status = .badAddress) :
    let s := (start entry (Bus.start m map cache) backend limit).run
    ∃ k, let τ := (Sequential.start entry m map).run k
      τ.core.status.isTerminal = false ∧ τ.step.core.status = .badAddress ∧
      s.core.registers = τ.core.registers ∧
      (∀ x, s.bus.coherent.byte x = τ.memory.byte x) ∧
      s.core.flags = (if τ.delaysNext then τ.core.flags
        else (executeStage τ.skip.executeSlot τ.core.flags).2) ∧
      (τ.skip.decodeSlot.opcode.setsFlags = false → s.core.flags = τ.core.flags) := by
  intro s
  have hfin : s.finished = true := by rw [finished, hbad]; rfl
  obtain ⟨k, ha, hover, hconcluded⟩ :=
    exists_of_run_finished hcode hspecial entry hclear backend limit hfin
  have hstatus := hconcluded.status.symm.trans hbad
  have hregisters := hconcluded.registers
  have hmemory := hconcluded.memory
  rw [Sequential.run_succ] at hover hstatus hregisters hmemory
  obtain ⟨hok, hb⟩ := Sequential.of_step_badAddress ha hstatus
  have hflags := hconcluded.flags.trans (Sequential.finalFlags_of_badAddress ha hok hb)
  -- a refused access changes nothing but the status
  rw [Sequential.step_eq_of_ok ha hok, Sequential.execute_of_badAddress hok hb]
    at hregisters hmemory
  refine ⟨k, ha, hstatus, hregisters, hmemory, hflags, fun hset => ?_⟩
  rw [flags_executeStage hset, ite_self] at hflags
  exact hflags

/-- A store to the text segment, and a comparison behind it. -/
theorem flags_of_badAddress_store :
    let m := (Memory.empty.setWord textStart 0xF8000040D2A00802).setWord (textStart + 8)
      0xD4400000EB1F005F
    let s := (start textStart (Bus.start m .default none) .serial 500).run
    s.core.status = .badAddress ∧
    ∃ k, let τ := (Sequential.start textStart m .default).run k
      τ.step.core.status = .badAddress ∧ s.core.registers = τ.core.registers ∧
      s.core.flags = (if τ.delaysNext then τ.core.flags
        else (executeStage τ.skip.executeSlot τ.core.flags).2) := by
  intro m
  have hclear : (Sequential.start textStart m .default).StaysClear :=
    Sequential.staysClear_of_end (n := 2) (by decide +kernel) (by decide +kernel)
  have hbad : (start textStart (Bus.start m .default none) .serial 500).run.core.status =
      .badAddress := by decide +kernel
  obtain ⟨k, -, hstep, hregisters, -, hflags, -⟩ := flags_of_badAddress textStart m .default none
    .serial 500 SegmentMap.protectsCode_default nofun hclear hbad
  exact ⟨hbad, k, hstep, hregisters, hflags⟩

/-- That comparison, which the sequential machine never comes to, has changed the flags. -/
theorem flags_ne_of_badAddress :
    let m := (Memory.empty.setWord textStart 0xF8000040D2A00802).setWord (textStart + 8)
      0xD4400000EB1F005F
    let s := (start textStart (Bus.start m .default none) .serial 500).run
    let τ := (Sequential.start textStart m .default).run 1
    s.core.status = .badAddress ∧ τ.core.status.isTerminal = false ∧
    τ.step.core.status = .badAddress ∧ s.core.flags.toBits = 2 ∧ τ.core.flags.toBits = 4 := by
  decide +kernel

end Simulation

end FiveStage
