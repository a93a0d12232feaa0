import FiveStage.Proofs.Pipeline.Conclusion
import FiveStage.Proofs.Pipeline.Refinement

/-!
# What a program costs

* `Simulation.exact_timing` : the cycles of a run are those of the events of its program and of the
  misses of its cache;
* `Simulation.held_le_missStalls` : a hazard is not met more often while a miss is in flight than
  there are cycles of waiting;
* `Simulation.counters_of_halt` : the counters of a run are the events of its program, and hazards
  that are met again while a miss is in flight.
-/

namespace FiveStage

namespace Simulation

/-- A program that the sequential machine comes to the end of takes a cycle for each instruction,
four until the first one is through, one for each load whose value is used at once, one for each
return, two for each conditional branch that is not taken, and the latency of each miss. -/
theorem exact_timing (entry : Word) (m : Memory) (map : SegmentMap) (cache : Option Geometry)
    (backend : Backend) (hcode : map.ProtectsCode)
    (hzero : (Bus.start m map none).PredictsNonzero)
    (hspecial : ∀ g, cache = some g → g.AvoidsSpecial map) (n : Nat)
    (hend : ((Sequential.start entry m map).run n).core.status.isTerminal = true) :
    ∃ budget, ∀ limit, budget ≤ limit →
      let s := (start entry (Bus.start m map cache) backend limit).run
      let e := (Sequential.start entry m map).events n
      s.finished = true ∧ s.core.status = ((Sequential.start entry m map).run n).core.status ∧
      s.counters.retired = e.executed ∧
      s.counters.cycles =
        e.executed + 4 + e.loadUses + e.returns + 2 * e.fallThroughs +
          latency cache * s.misses := by
  obtain ⟨k, ha, hover, hrun, hevents⟩ :=
    Sequential.exists_last (Sequential.alive_start entry m map) hend
  have hclear := (Sequential.runs_start hcode entry m).staysClear hzero
  obtain ⟨budget, hbudget⟩ := exists_budget hcode hspecial entry hclear backend k ha hover
  refine ⟨budget, fun limit hlimit => ?_⟩
  obtain ⟨hfin, hconcluded⟩ := hbudget limit hlimit
  rw [hrun, hevents]
  exact ⟨hfin, hconcluded.status, hconcluded.retired.trans (Sequential.executed_events _ ha).symm,
    hconcluded.cycles⟩

/-- A load from the top of the stack, a comparison of what it brought, a branch that is not taken
and the return from the entry function, with a miss that takes three cycles. -/
theorem exact_timing_return :
    let g : Geometry := ⟨1, 3, 0, 3, by decide, by decide, by decide⟩
    let m := (Memory.empty.setWord textStart 0xEB1F001FF84003E0).setWord (textStart + 8)
      0xD65F03C054000041
    (Sequential.start textStart m .default).events 5 = ⟨5, 1, 1, 1⟩ ∧
    ∃ budget, ∀ limit, budget ≤ limit →
      let s := (start textStart (Bus.start m .default (some g)) .parallel limit).run
      s.core.status = .halt ∧ s.counters.cycles = 13 + 3 * s.misses := by
  intro g m
  have hzero : (Bus.start m .default none).PredictsNonzero := by
    refine Bus.predictsNonzero_of_branches fun pc hpc => ?_
    rcases Memory.instrWord_pair (a := textStart) (b := textStart + 8) (by decide) (by decide) hpc
      with h | h | h | h | h
    · rw [h]
      decide +kernel
    · rw [h]
      decide +kernel
    · rw [h]
      decide +kernel
    · rw [h]
      decide +kernel
    · have hnot : (Opcode.ofWord 0).isBranch = false := by decide
      rw [h, hnot]
      nofun
  have hevents : (Sequential.start textStart m .default).events 5 = ⟨5, 1, 1, 1⟩ := by
    decide +kernel
  have hhalt : ((Sequential.start textStart m .default).run 5).core.status = .halt := by
    decide +kernel
  obtain ⟨budget, hbudget⟩ := exact_timing textStart m .default (some g) .parallel
    SegmentMap.protectsCode_default hzero (fun g _ => SegmentMap.avoidsSpecial_default g) 5
    (by rw [hhalt]; rfl)
  refine ⟨hevents, budget, fun limit hlimit => ?_⟩
  obtain ⟨-, hstatus, -, hcycles⟩ := hbudget limit hlimit
  rw [hevents] at hcycles
  exact ⟨hstatus.trans hhalt, hcycles⟩

/-! ## Counters -/

theorem held_le_missStalls (s : Simulation) (z : Hazard) (n : Nat) :
    s.held z n + s.counters.missStalls ≤ (s.steps n).counters.missStalls := by
  induction n with
  | zero => exact Nat.le_of_eq (Nat.zero_add _)
  | succ n ih =>
    have hstep : (s.steps (n + 1)).counters.missStalls =
        (s.steps n).counters.missStalls + (s.steps n).hazards.missInFlight.toNat := rfl
    have hle : ((s.steps n).hazards.missInFlight && (s.steps n).hazards.detect.has z).toNat ≤
        (s.steps n).hazards.missInFlight.toNat := by
      cases (s.steps n).hazards.missInFlight with
      | false => exact Nat.le_refl 0
      | true => exact Bool.toNat_le _
    rw [hstep, held]
    omega

/-- What is counted in a run that ends with a halt. The hazard unit looks at the registers also
while a miss is in flight, and counts what it sees once more in every such cycle: only without
misses are the counters those of the events, while the cycles always are. -/
theorem counters_of_halt (entry : Word) (m : Memory) (map : SegmentMap) (cache : Option Geometry)
    (backend : Backend) (limit : Nat) (hcode : map.ProtectsCode)
    (hspecial : ∀ g, cache = some g → g.AvoidsSpecial map)
    (hclear : (Sequential.start entry m map).StaysClear)
    (hhalt : (start entry (Bus.start m map cache) backend limit).run.core.status = .halt) :
    let s := start entry (Bus.start m map cache) backend limit
    let counters := s.run.counters
    ∃ n, ((Sequential.start entry m map).run n).core.status = .halt ∧
      let e := (Sequential.start entry m map).events n
      (∀ z, counters.of z = e.of z + s.held z counters.cycles) ∧
      (∀ z, s.held z counters.cycles ≤ counters.missStalls) ∧
      counters.missStalls = latency cache * s.run.misses ∧
      counters.cycles = counters.retired + 4 + e.loadUses + e.returns + 2 * e.fallThroughs +
        counters.missStalls := by
  intro s
  have hfin : s.run.finished = true := by rw [finished, hhalt]; rfl
  obtain ⟨k, ha, hover, hconcluded⟩ :=
    exists_of_run_finished hcode hspecial entry hclear backend limit hfin
  have hne : s.run.core.status ≠ .badAddress := by
    rw [hhalt]
    decide
  refine ⟨k + 1, hconcluded.status.symm.trans hhalt, hconcluded.counted hne, fun z => ?_,
    hconcluded.missStalls, ?_⟩
  · obtain ⟨j, hj, -⟩ := exists_steps_of_run (s := s) (Bus.keepsCode_start hcode m cache)
    have hcycles : (s.steps j).counters.cycles = j := cycles_start _ _ _ _ j
    rw [hj, hcycles]
    exact Nat.le_of_add_right_le (held_le_missStalls s z j)
  · rw [hconcluded.cycles, hconcluded.retired, hconcluded.missStalls, Events.cycles,
      Sequential.executed_events _ ha]

/-- A load, with a miss that takes four cycles, and a branch behind it that is not taken: the branch
waits in execute as long as the load waits in memory. -/
theorem counters_of_halt_waiting :
    let g : Geometry := ⟨1, 3, 0, 4, by decide, by decide, by decide⟩
    let m := (Memory.empty.setWord textStart 0xF8400041D2A01002).setWord (textStart + 8)
      0xD440000054000041
    let s := start textStart (Bus.start m .default (some g)) .serial 500
    s.run.core.status = .halt ∧
    ∃ n, ((Sequential.start textStart m .default).run n).core.status = .halt ∧
      ∀ z, s.run.counters.of z = ((Sequential.start textStart m .default).events n).of z +
        s.held z s.run.counters.cycles := by
  intro g m
  have hclear : (Sequential.start textStart m .default).StaysClear :=
    Sequential.staysClear_of_end (n := 4) (by decide +kernel) (by decide +kernel)
  have hhalt : (start textStart (Bus.start m .default (some g)) .serial 500).run.core.status =
      .halt := by decide +kernel
  obtain ⟨n, hn, hcounters, -⟩ := counters_of_halt textStart m .default (some g) .serial 500
    SegmentMap.protectsCode_default (fun g _ => SegmentMap.avoidsSpecial_default g) hclear hhalt
  exact ⟨hhalt, n, hn, hcounters⟩

/-- With the cache, the one branch of that program is counted five times, without it once. -/
theorem mispredictions_ne_fallThroughs :
    let g : Geometry := ⟨1, 3, 0, 4, by decide, by decide, by decide⟩
    let m := (Memory.empty.setWord textStart 0xF8400041D2A01002).setWord (textStart + 8)
      0xD440000054000041
    let plain := (start textStart (Bus.start m .default none) .serial 500).run
    let cached := (start textStart (Bus.start m .default (some g)) .serial 500).run
    let e := (Sequential.start textStart m .default).events 4
    ((Sequential.start textStart m .default).run 4).core.status = .halt ∧
    plain.core.status = .halt ∧ cached.core.status = .halt ∧
    e.fallThroughs = 1 ∧ plain.counters.mispredictions = 1 ∧
    cached.counters.mispredictions = 5 := by
  decide +kernel

end Simulation

end FiveStage
