import FiveStage.Proofs.Pipeline.Advance

/-!
# The window as an invariant

* `Simulation.Paced` : the first instruction of the window comes to writeback in so many cycles;
* `Simulation.Paced.wait`, `Simulation.Paced.retire`, `Simulation.Paced.finish` : it comes nearer,
  the window moves on, or the program is over;
* `Simulation.Window` : the window, however many cycles its first instruction has to go.
-/

namespace FiveStage

namespace Simulation

variable {s : Simulation} {code : Memory} {map : SegmentMap} {d : Nat}

/-- The registers hold the instructions from the program counter of `σ` on, of which the first one
comes to writeback in `d` cycles, and the core what `σ` has. -/
structure Paced (s : Simulation) (code : Memory) (map : SegmentMap) (σ : Sequential) (d : Nat) :
    Prop where
  healthy : s.Healthy
  alive : σ.Alive
  runs : σ.Runs code map
  registers : s.core.registers = σ.core.registers
  front : s.outputs.Front s.core.flags s.bus σ d

variable {σ : Sequential}

/-- It takes four cycles until the first instruction is in writeback. -/
theorem paced_start (h : map.ProtectsCode) (entry : Word) (m : Memory) (backend : Backend)
    (limit : Nat) :
    (start entry (Bus.start m map none) backend limit).Paced m map (.start entry m map) 4 := by
  refine ⟨healthy_start _ _ _ _, rfl, Sequential.runs_start h entry m, rfl, rfl, rfl, ?_⟩
  exact ⟨⟨false, rfl⟩, rfl, rfl, rfl, rfl, rfl⟩

namespace Paced

/-- What is in writeback has no effect any more that decode does not see. -/
theorem redundant (h : s.Paced code map σ d) (hw : s.outputs.write.status.isTerminal = false) :
    s.supplied.write.Redundant s.retiredTo := by
  cases d with
  | succ d =>
    refine Producer.redundant_of_disabled ?_ _
    change s.outputs.write.writeSignals.enable = false
    rw [h.front.1]
  | zero =>
    have hwrite := h.front.1
    have hwired := σ.wired_writeSlot
    rw [← hwrite] at hwired
    rw [hwrite, ← Sequential.status_step h.alive] at hw
    have hs := Sequential.status_writeSlot_of_alive_step h.alive hw
    exact WriteSlot.redundant_producer hwired (hwrite ▸ hs) _

/-- The bus is that of the instruction in memory or of the one behind it. -/
theorem bus_eq (h : s.Paced code map σ d) : s.bus = σ.bus ∨ s.bus = σ.step.bus := by
  cases d with
  | succ d => exact .inl h.front.2.1
  | zero =>
    rcases h.front.2 with hend | ⟨-, hb, -⟩
    · exact .inr hend.memory
    · exact .inr hb

/-- Nothing comes between the pipeline and its program. -/
theorem flows (h : s.Paced code map σ d) : s.Flows code map := by
  have hcached : s.bus.cached = none := by rcases h.bus_eq with hb | hb <;> rw [hb] <;> rfl
  have hkeeps : s.bus.KeepsCode code := by
    rcases h.bus_eq with hb | hb
    · exact hb ▸ h.runs.keeps
    · exact hb ▸ h.runs.step.keeps
  have hsegments : s.bus.segments = map := by
    rcases h.bus_eq with hb | hb
    · exact hb ▸ h.runs.segments
    · exact hb ▸ h.runs.step.segments
  have hflight : s.accessed.2.missInFlight = false := by
    have := cached_memoryStage hcached s.outputs.memory
    rw [Bus.missInFlight, Simulation.accessed, this]
    rfl
  refine ⟨(step_of_calm h.healthy hflight).2, hflight, Bus.keepsCode_memoryStage hkeeps _, ?_⟩
  rw [Simulation.accessed, Bus.segments_memoryStage, hsegments]

/-- The first instruction comes nearer to writeback, which retires a bubble. -/
theorem wait (h : s.Paced code map σ (d + 1)) (hclear : σ.StaysClear) :
    s.outputs.write.status = .bubble ∧ s.step.Paced code map σ d := by
  obtain ⟨hwrite, hbus, hM⟩ := h.front
  have hw : s.outputs.write.status.isTerminal = false := by
    rw [hwrite]
    rfl
  have hretired : s.retiredTo = σ.core.registers := by
    rw [retiredTo, hwrite, writeStage_of_ne_ok (by nofun), h.registers]
  refine ⟨by rw [hwrite], healthy_step h.healthy fun _ => hw, h.alive, h.runs, hretired, ?_⟩
  exact h.flows.memory_step h.runs h.alive (hclear 0) (hclear 1) hw hbus hM hretired
    (h.redundant hw)

/-- The first instruction is retired and does not end the program, so the next one is first. -/
theorem retire (h : s.Paced code map σ 0) (hnext : σ.step.Alive)
    (hclear : σ.StaysClear) :
    s.outputs.write.status = .ok ∧ s.step.Paced code map σ.step σ.gap := by
  obtain ⟨hwrite, hend⟩ := h.front
  obtain ⟨-, hbus, hM⟩ := hend.resolve_left fun hend => hend.ended hnext
  have hok := Sequential.status_writeSlot_of_alive_step h.alive hnext
  have hw : s.outputs.write.status.isTerminal = false := by
    rw [hwrite, hok]
    rfl
  have hretired : s.retiredTo = σ.step.core.registers := by
    rw [retiredTo, hwrite, h.registers, Sequential.registers_step h.alive]
  refine ⟨by rw [hwrite, hok], healthy_step h.healthy fun _ => hw, hnext, h.runs.step, hretired, ?_⟩
  exact h.flows.memory_step h.runs.step hnext (hclear 1) (hclear 2) hw hbus hM hretired
    (h.redundant hw)

/-- If what is in writeback ends the program, it is the first instruction. -/
theorem ending (h : s.Paced code map σ d) (hw : s.outputs.write.status.isTerminal = true) :
    d = 0 ∧ s.outputs.write = σ.writeSlot ∧ s.outputs.Ending s.core.flags s.bus σ := by
  cases d with
  | succ d =>
    rw [h.front.1] at hw
    cases hw
  | zero =>
    obtain ⟨hwrite, hend⟩ := h.front
    refine ⟨rfl, hwrite, hend.resolve_right fun hn => ?_⟩
    rw [hwrite, (Sequential.alive_step_iff h.alive).1 hn.1] at hw
    cases hw

/-- A cycle in which the end of the program is retired. -/
theorem finish (h : s.Paced code map σ d) (hw : s.outputs.write.status.isTerminal = true) :
    ¬ σ.step.Alive ∧ s.step.core.status = σ.step.core.status ∧
    s.step.core.registers = σ.step.core.registers ∧ s.step.bus = σ.step.bus ∧
    s.step.core.flags = σ.finalFlags := by
  obtain ⟨-, hwrite, hend⟩ := h.ending hw
  refine ⟨hend.ended, ?_, ?_, ?_, ?_⟩
  · rw [status_step, hwrite, Sequential.status_step h.alive]
  · rw [registers_step, retiredTo, hwrite, h.registers, Sequential.registers_step h.alive]
  · have hover := hend.ended
    rw [Sequential.alive_step_iff h.alive] at hover
    have hne : (memoryStage σ.memorySlot σ.bus).1.status ≠ .ok := fun hok => hover (by
      change (memoryStage σ.memorySlot σ.bus).1.status.isTerminal = false
      rw [hok]
      rfl)
    have hstill := bus_memoryStage_of_ne_ok hne
    rw [bus_step, accessed, hend.held, hend.memory, Sequential.bus_step h.alive, hstill, hstill]
  · rw [flags_step, executed, hend.quiet, hend.final]

end Paced

/-- The registers hold the instructions from the program counter of `σ` on, and the core what `σ`
has. -/
def Window (s : Simulation) (code : Memory) (map : SegmentMap) (σ : Sequential) : Prop :=
  ∃ d, s.Paced code map σ d

theorem window_start {map : SegmentMap} (h : map.ProtectsCode) (entry : Word) (m : Memory)
    (backend : Backend) (limit : Nat) :
    (start entry (Bus.start m map none) backend limit).Window m map (.start entry m map) :=
  ⟨4, paced_start h entry m backend limit⟩

namespace Window

theorem alive (h : s.Window code map σ) : σ.Alive := h.elim fun _ hd => hd.alive

theorem runs (h : s.Window code map σ) : σ.Runs code map := h.elim fun _ hd => hd.runs

theorem registers (h : s.Window code map σ) : s.core.registers = σ.core.registers :=
  h.elim fun _ hd => hd.registers

/-- A cycle in which no end of the program is retired: either the window stays where it is, and a
bubble is retired, or an instruction is retired, and the window moves on by one. -/
theorem step (h : s.Window code map σ) (hclear : σ.StaysClear)
    (hw : s.outputs.write.status.isTerminal = false) :
    (s.outputs.write.status = .bubble ∧ s.step.Window code map σ) ∨
    (s.outputs.write.status = .ok ∧ s.step.Window code map σ.step) := by
  obtain ⟨d, h⟩ := h
  cases d with
  | succ d =>
    obtain ⟨hb, hnext⟩ := h.wait hclear
    exact .inl ⟨hb, d, hnext⟩
  | zero =>
    have hnext : σ.step.Alive := by
      rw [h.front.1] at hw
      exact (Sequential.alive_step_iff h.alive).2 hw
    obtain ⟨hb, hnext⟩ := h.retire hnext hclear
    exact .inr ⟨hb, _, hnext⟩

/-- A cycle in which the end of the program is retired. -/
theorem finish (h : s.Window code map σ) (hw : s.outputs.write.status.isTerminal = true) :
    ¬ σ.step.Alive ∧ s.step.core.status = σ.step.core.status ∧
    s.step.core.registers = σ.step.core.registers ∧ s.step.bus = σ.step.bus ∧
    (σ.step.core.status ≠ .badAddress → s.step.core.flags = σ.step.core.flags) := by
  obtain ⟨d, h⟩ := h
  obtain ⟨hover, hstatus, hregisters, hbus, hflags⟩ := h.finish hw
  refine ⟨hover, hstatus, hregisters, hbus, fun hne => ?_⟩
  rw [Sequential.status_step h.alive] at hne
  rw [hflags, Sequential.finalFlags, if_neg fun hb => hne hb.1,
    Sequential.flags_step_of_not_alive h.alive hover]

end Window

end Simulation

end FiveStage
