import FiveStage.Proofs.Pipeline.Paced

/-!
# The pipeline refines the sequential machine

* `Simulation.window_steps` : as long as no end of the program is retired, the window moves along
  the sequential machine, one instruction for each that is retired;
* `Simulation.refines_sequential` : the registers are those of the sequential machine after the
  instructions that were retired, and both end alike.
-/

namespace FiveStage

theorem Sequential.registers_step_of_not_alive {s : Sequential} (ha : s.Alive)
    (h : ¬ s.step.Alive) : s.step.core.registers = s.core.registers := by
  rw [alive_step_iff ha] at h
  rw [registers_step ha, writeStage_of_ne_ok]
  intro hok
  rw [hok] at h
  exact h rfl

namespace Simulation

variable {map : SegmentMap} {m : Memory}

theorem window_steps (hcode : map.ProtectsCode)
    (hzero : (Bus.start m map none).PredictsNonzero) (entry : Word) (backend : Backend)
    (limit n : Nat)
    (hrun : ∀ i, i ≤ n →
      ((start entry (Bus.start m map none) backend limit).steps i).finished = false) :
    ((start entry (Bus.start m map none) backend limit).steps n).Window m map
      ((Sequential.start entry m map).run
        ((start entry (Bus.start m map none) backend limit).steps n).counters.retired) := by
  induction n with
  | zero => exact window_start hcode entry m backend limit
  | succ n ih =>
    have hwindow := ih fun i hi => hrun i (Nat.le_succ_of_le hi)
    have hlast := hrun (n + 1) (Nat.le_refl _)
    rw [steps] at hlast ⊢
    generalize (start entry (Bus.start m map none) backend limit).steps n = s at hwindow hlast ⊢
    rw [finished, status_step] at hlast
    rw [counters_step, RunCounters.count]
    rcases hwindow.step (hwindow.runs.staysClear hzero) hlast with ⟨hw, hnext⟩ | ⟨hw, hnext⟩
    · rw [hw]
      exact hnext
    · rw [hw, if_neg (by decide), Sequential.run_succ]
      exact hnext

/-- The machine without a cache refines the sequential machine: as long as it runs, and also when it
stops, its registers are those of the sequential machine after the instructions that were retired,
the one that ended the program not counted. That one is where the sequential machine ends, too, and
leaves the same status, registers and memory, and the same flags unless it accessed a bad address:
the instruction behind it is in execute by then. -/
theorem refines_sequential (entry : Word) (m : Memory) (map : SegmentMap) (backend : Backend)
    (limit : Nat) (hcode : map.ProtectsCode) (hzero : (Bus.start m map none).PredictsNonzero)
    (n : Nat)
    (hrun : ∀ i, i < n →
      ((start entry (Bus.start m map none) backend limit).steps i).finished = false) :
    let s := (start entry (Bus.start m map none) backend limit).steps n
    let σ := Sequential.start entry m map
    let k := if s.finished then s.counters.retired - 1 else s.counters.retired
    s.core.registers = (σ.run k).core.registers ∧
    (σ.run k).core.status.isTerminal = false ∧
    (s.finished = true →
      s.counters.retired = k + 1 ∧
      (σ.run (k + 1)).core.status = s.core.status ∧
      (σ.run (k + 1)).core.registers = s.core.registers ∧
      (σ.run (k + 1)).memory = s.bus.memory ∧
      (s.core.status ≠ .badAddress → (σ.run (k + 1)).core.flags = s.core.flags)) := by
  intro s σ
  cases hfin : s.finished with
  | false =>
    have hwindow := window_steps hcode hzero entry backend limit n fun i hi => by
      rcases Nat.lt_or_eq_of_le hi with hlt | rfl
      · exact hrun i hlt
      · exact hfin
    exact ⟨hwindow.registers, hwindow.alive, fun h => by cases h⟩
  | true =>
    -- the window is that before the last cycle, which retires the end of the program
    cases n with
    | zero => cases hfin
    | succ n =>
      have hwindow := window_steps hcode hzero entry backend limit n fun i hi =>
        hrun i (Nat.lt_succ_of_le hi)
      have hs : s = ((start entry (Bus.start m map none) backend limit).steps n).step := rfl
      rw [hs] at hfin ⊢
      generalize (start entry (Bus.start m map none) backend limit).steps n = t at hwindow hfin ⊢
      rw [finished, status_step] at hfin
      obtain ⟨hover, hstatus, hregisters, hbus, hflags⟩ := hwindow.finish hfin
      have hretired : t.step.counters.retired = t.counters.retired + 1 := by
        rw [counters_step, RunCounters.count, if_neg]
        intro hb
        rw [hb] at hfin
        cases hfin
      simp only [if_true, hretired, Nat.add_sub_cancel, Sequential.run_succ]
      refine ⟨?_, hwindow.alive,
        fun _ => ⟨trivial, hstatus.symm, hregisters.symm, ?_, fun hne => ?_⟩⟩
      · rw [hregisters, Sequential.registers_step_of_not_alive hwindow.alive hover]
      · rw [hbus]
        rfl
      · exact (hflags (hstatus ▸ hne)).symm

end Simulation

/-- Under the default layout, only a branch can be predicted to go to address zero. -/
theorem Bus.predictsNonzero_of_branches {m : Memory}
    (h : ∀ pc, pc.toNat % 4 = 0 → (Opcode.ofWord (m.instrWord pc)).isBranch = true →
      nextPredicted pc (m.instrWord pc) (Opcode.ofWord (m.instrWord pc)) ≠ 0) :
    (Bus.start m .default none).PredictsNonzero := by
  intro pc w hf _ hzero
  cases hc : SegmentMap.default.checkFetch pc with
  | error e =>
    rw [fetch, start, hc] at hf
    cases hf
  | ok u =>
    rw [fetch, start, hc] at hf
    obtain rfl : m.instrWord pc = w := Except.ok.inj hf
    cases hb : (Opcode.ofWord (m.instrWord pc)).isBranch with
    | true => exact h pc (SegmentMap.of_checkFetch hc).1 hb hzero
    | false =>
      have hlt := SegmentMap.lt_of_checkFetch_default hc
      rw [nextPredicted, hb] at hzero
      have htext : dataStart.toNat + 4 < 2 ^ 64 := by decide
      have hnat := congrArg BitVec.toNat hzero
      rw [Word.sum_eq, BitVec.toNat_add] at hnat
      change (pc.toNat + 4) % 2 ^ 64 = 0 at hnat
      omega

theorem Bus.predictsNonzero_default {m : Memory}
    (h : ∀ pc, pc.toNat % 4 = 0 → (Opcode.ofWord (m.instrWord pc)).isBranch = false) :
    (Bus.start m .default none).PredictsNonzero :=
  predictsNonzero_of_branches fun pc hpc hb => by
    rw [h pc hpc] at hb
    cases hb

namespace Simulation

/-- Three instructions: 42 goes to a register, one more to the next register, halt. -/
theorem refines_sequential_sum :
    let m := (Memory.empty.setWord textStart 0x91000401D2800540).setWord (textStart + 8) 0xD4400000
    let s := (start textStart (Bus.start m .default none) .serial 500).steps 7
    let σ := (Sequential.start textStart m .default).run 3
    s.finished = true ∧ s.core.registers.read 1 = 43 ∧ s.core.registers = σ.core.registers ∧
    s.core.status = σ.core.status ∧ s.bus.memory = σ.memory := by
  intro m
  have hzero : (Bus.start m .default none).PredictsNonzero := by
    refine Bus.predictsNonzero_default fun pc hpc => ?_
    by_cases h8 : pc = textStart + 8
    · rw [h8]
      decide +kernel
    by_cases h12 : pc = textStart + 8 + 4
    · rw [h12]
      decide +kernel
    rw [Memory.instrWord_setWord_of_ne (by decide) hpc h8 h12]
    by_cases h0 : pc = textStart
    · rw [h0]
      decide +kernel
    by_cases h4 : pc = textStart + 4
    · rw [h4]
      decide +kernel
    rw [Memory.instrWord_setWord_of_ne (by decide) hpc h0 h4, Memory.instrWord_empty]
    decide
  have hrun : ∀ i, i < 7 →
      ((start textStart (Bus.start m .default none) .serial 500).steps i).finished = false := by
    decide +kernel
  have hrefines := refines_sequential textStart m .default .serial 500
    SegmentMap.protectsCode_default hzero 7 hrun
  simp only at hrefines ⊢
  have hruns : let s := (start textStart (Bus.start m .default none) .serial 500).steps 7
      s.finished = true ∧ s.counters.retired = 3 ∧ s.core.registers.read 1 = 43 := by
    decide +kernel
  simp only at hruns
  generalize (start textStart (Bus.start m .default none) .serial 500).steps 7 = s
    at hruns hrefines ⊢
  obtain ⟨hfin, hretired, hsum⟩ := hruns
  obtain ⟨-, hstatus, hregisters, hmemory, -⟩ := hrefines.2.2 hfin
  rw [hfin, hretired] at hstatus hregisters hmemory
  exact ⟨hfin, hsum, hregisters.symm, hstatus.symm, hmemory.symm⟩

end Simulation

end FiveStage
