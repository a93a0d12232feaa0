import FiveStage.Proofs.Pipeline.Conclusion
import FiveStage.Proofs.Sequential.Reads

/-!
# What is fetched on a wrong path

Behind a conditional branch that is not taken, fetch has read words that the program never comes to.

* `Simulation.speculation_invisible` : they make no difference, unless they lead to address zero;
* `Simulation.speculation_halts` : a wrong path that leads there ends the run.
-/

namespace FiveStage

namespace Simulation

variable {s s' : Simulation} {σ σ' : Sequential} {k : Nat} {m m' : Memory}

/-- Programs that read alike and end with a halt leave alike what they are run on. -/
theorem Concluded.eq_of_alike {held held' : Hazard → Nat} (h : s.Concluded σ 0 k held)
    (h' : s'.Concluded σ' 0 k held') (halike : Sequential.Alike m m' σ σ')
    (hreads : ∀ k x, (σ.run k).Reads x → m.byte x = m'.byte x) (ha : (σ.run k).Alive)
    (hover : ¬ (σ.run (k + 1)).Alive) (hhalt : s.core.status = .halt) :
    s'.core.status = .halt ∧ s'.core.registers = s.core.registers ∧
    s'.core.flags = s.core.flags ∧ s'.counters.retired = s.counters.retired ∧
    s'.counters.cycles = s.counters.cycles ∧
    ∀ x, m.byte x = m'.byte x → s.bus.coherent.byte x = s'.bus.coherent.byte x := by
  have hend := halike.run hreads (k + 1)
  have hlast := halike.run hreads k
  -- a halt is known before memory, so that what is behind it is never executed
  have hterm : (σ.run k).fetchedStatus.isTerminal = true := by
    rw [Sequential.run_succ] at hover
    refine Sequential.fetchedStatus_of_end ha hover ?_
    rw [← Sequential.run_succ, ← h.status, hhalt]
    nofun
  have hterm' : (σ'.run k).fetchedStatus.isTerminal = true := by
    rw [hlast.fetchedStatus ha (hreads k)]
    exact hterm
  refine ⟨?_, ?_, ?_, h'.retired.trans h.retired.symm, ?_, fun x hx => ?_⟩
  · rw [h'.status, hend.core, ← h.status, hhalt]
  · rw [h'.registers, hend.core, h.registers]
  · rw [h'.flags, Sequential.finalFlags_of_isTerminal hterm', hlast.core, h.flags,
      Sequential.finalFlags_of_isTerminal hterm]
  · rw [h'.cycles, halike.events hreads, h.cycles, Events.cycles, Events.cycles, Nat.zero_mul,
      Nat.zero_mul]
  · rw [h.memory, h'.memory]
    exact hend.memory x hx

theorem cached_run {code : Memory} (h : s.bus.KeepsCode code) (hplain : s.bus.cached = none) :
    s.run.bus.cached = none := by
  obtain ⟨j, hj, -⟩ := exists_steps_of_run h
  rw [hj]
  exact cached_steps hplain j

/-- Two images that agree on what a program reads, and may differ in everything else that is
fetched, make no difference to a run, unless a branch that is not taken was predicted to lead to
address zero. -/
theorem speculation_invisible (entry : Word) (m m' : Memory) (backend : Backend)
    (hreads : ∀ k x, ((Sequential.start entry m .default).run k).Reads x → m.byte x = m'.byte x)
    (hclear : (Sequential.start entry m .default).StaysClear)
    (hclear' : (Sequential.start entry m' .default).StaysClear) (n : Nat)
    (hhalt : ((Sequential.start entry m .default).run n).core.status = .halt) :
    ∃ budget, ∀ limit, budget ≤ limit →
      let s := (start entry (Bus.start m .default none) backend limit).run
      let s' := (start entry (Bus.start m' .default none) backend limit).run
      s.core.status = .halt ∧ s'.core.status = .halt ∧
      s'.core.registers = s.core.registers ∧ s'.core.flags = s.core.flags ∧
      s'.counters.retired = s.counters.retired ∧ s'.counters.cycles = s.counters.cycles ∧
      ∀ x, m.byte x = m'.byte x → s.bus.memory.byte x = s'.bus.memory.byte x := by
  have hcode := SegmentMap.protectsCode_default
  have hspecial : ∀ g : Geometry, none = some g → g.AvoidsSpecial .default := nofun
  have halike := Sequential.Alike.start entry m m' .default
  obtain ⟨k, ha, hover, hlast, -⟩ :=
    Sequential.exists_last (Sequential.alive_start entry m .default) (by rw [hhalt]; rfl)
  have ha' := (halike.run hreads k).alive ha
  have hover' : ¬ ((Sequential.start entry m' .default).run (k + 1)).Alive := by
    rw [Sequential.Alive, (halike.run hreads (k + 1)).core]
    exact hover
  obtain ⟨budget, hbudget⟩ := exists_budget hcode hspecial entry hclear backend k ha hover
  obtain ⟨budget', hbudget'⟩ := exists_budget hcode hspecial entry hclear' backend k ha' hover'
  refine ⟨max budget budget', fun limit hlimit => ?_⟩
  obtain ⟨-, h⟩ := hbudget limit (by omega)
  obtain ⟨-, h'⟩ := hbudget' limit (by omega)
  have hstatus := h.status
  rw [← hlast, hhalt] at hstatus
  obtain ⟨hs, hregisters, hflags, hretired, hcycles, hmemory⟩ :=
    h.eq_of_alike h' halike hreads ha hover hstatus
  refine ⟨hstatus, hs, hregisters, hflags, hretired, hcycles, fun x hx => ?_⟩
  have hbytes := hmemory x hx
  rw [Bus.coherent, Bus.coherent, cached_run (Bus.keepsCode_start hcode m none) rfl,
    cached_run (Bus.keepsCode_start hcode m' none) rfl] at hbytes
  exact hbytes

/-- A branch that is not taken, a move to a register and a halt; the branch would lead to `w`. -/
def branchOver (w : Word) : Memory :=
  ((Memory.empty.setWord textStart 0xD280002154000081).setWord (textStart + 8)
    0xD503201FD4400000).setWord (textStart + 16) w

theorem byte_branchOver (v w : Word) (h : ∀ k, k < 3 →
      ((Sequential.start textStart (branchOver v) .default).run k).memorySlot.accessKind? = none ∧
      ((Sequential.start textStart (branchOver v) .default).run k).core.pc.toNat < 0x40000C)
    (hend : ((Sequential.start textStart (branchOver v) .default).run 3).core.status.isTerminal =
      true) {k : Nat} {x : Word}
    (hx : ((Sequential.start textStart (branchOver v) .default).run k).Reads x) :
    (branchOver v).byte x = (branchOver w).byte x := by
  obtain ⟨hk, hin⟩ := Sequential.fetches_of_reads hend (fun k hk => (h k hk).1) hx
  have hpc := (h k hk).2
  rw [Word.within_iff (by omega)] at hin
  have hout : ¬ Word.Within (textStart + 16) 8 x := by
    rw [Word.within_iff (by decide)]
    have htarget : (textStart + 16 : Word).toNat = 0x400010 := by decide
    omega
  have hsame : ∀ u, (branchOver u).byte x = ((Memory.empty.setWord textStart
      0xD280002154000081).setWord (textStart + 8) 0xD503201FD4400000).byte x := fun u => by
    rw [branchOver, Memory.byte_setWord, if_neg hout]
  rw [hsame, hsame]

/-- On the wrong path is a halt, or a return. -/
theorem speculation_invisible_halt :
    ∃ budget, ∀ limit, budget ≤ limit →
      let s := (start textStart (Bus.start (branchOver 0xD4400000) .default none) .serial limit).run
      let s' :=
        (start textStart (Bus.start (branchOver 0xD65F03C0) .default none) .serial limit).run
      s.core.status = .halt ∧ s'.core.registers = s.core.registers ∧
      s'.counters.cycles = s.counters.cycles := by
  have hclear : (Sequential.start textStart (branchOver 0xD4400000) .default).StaysClear :=
    Sequential.staysClear_of_end (n := 3) (by decide +kernel) (by decide +kernel)
  have hclear' : (Sequential.start textStart (branchOver 0xD65F03C0) .default).StaysClear :=
    Sequential.staysClear_of_end (n := 3) (by decide +kernel) (by decide +kernel)
  have hhalt : ((Sequential.start textStart (branchOver 0xD4400000) .default).run 3).core.status =
      .halt := by decide +kernel
  obtain ⟨budget, hbudget⟩ := speculation_invisible textStart (branchOver 0xD4400000)
    (branchOver 0xD65F03C0) .serial
    (fun k x hx => byte_branchOver _ _ (by decide +kernel) (by decide +kernel) hx)
    hclear hclear' 3 hhalt
  refine ⟨budget, fun limit hlimit => ?_⟩
  obtain ⟨hs, -, hregisters, -, -, hcycles, -⟩ := hbudget limit hlimit
  exact ⟨hs, hregisters, hcycles⟩

/-- On the wrong path is a branch to address zero: fetch believes that the program is over, and the
run ends without the move. -/
theorem speculation_halts :
    let m := branchOver 0xD503201F
    let m' := branchOver 0x17EFFFFC
    let s := (start textStart (Bus.start m .default none) .serial 500).run
    let s' := (start textStart (Bus.start m' .default none) .serial 500).run
    (∀ k x, ((Sequential.start textStart m .default).run k).Reads x → m.byte x = m'.byte x) ∧
    ((Sequential.start textStart m .default).run 3).core.status = .halt ∧
    s.core.status = .halt ∧ s.core.registers.read 1 = 1 ∧ s.counters.retired = 3 ∧
    s'.core.status = .halt ∧ s'.core.registers.read 1 = 0 ∧ s'.counters.retired = 2 := by
  intro m m'
  refine ⟨fun k x hx => byte_branchOver _ _ (by decide +kernel) (by decide +kernel) hx, ?_⟩
  decide +kernel

end Simulation

end FiveStage
