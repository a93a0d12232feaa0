import FiveStage.Proofs.Pipeline.Delay
import FiveStage.Proofs.Pipeline.Threads
import FiveStage.Proofs.Pipeline.Timing

/-!
# How a run ends

* `Simulation.run_eq_steps`, `Simulation.exists_steps_of_run` : a run is cycles until an instruction
  ends it, under either backend;
* `Simulation.held` : the cycles in which a hazard is met while a miss is in flight;
* `Simulation.Concluded` : what the end of a run has to do with the end of its program;
* `Simulation.exists_abreast_steps` : a machine with a cache, cycle by cycle;
* `Simulation.exists_concluded`, `Simulation.exists_end` : a run ends if and only if its program
  does.
-/

namespace FiveStage

namespace Simulation

variable {s : Simulation}

/-! ## Runs -/

@[simp] theorem limit_steps (s : Simulation) (n : Nat) : (s.steps n).limit = s.limit := by
  induction n with
  | zero => rfl
  | succ n ih => rw [steps, limit_step, ih]

/-- The budget plays no role in a cycle. -/
theorem steps_limit (s : Simulation) (limit n : Nat) :
    { s with limit := limit }.steps n = { s.steps n with limit := limit } := by
  induction n with
  | zero => rfl
  | succ n ih =>
    rw [steps, ih]
    rfl

/-- Cycles are counted from the start. -/
theorem cycles_start (entry : Word) (bus : Bus) (backend : Backend) (limit n : Nat) :
    ((start entry bus backend limit).steps n).counters.cycles = n :=
  (cycles_steps _ n).trans (Nat.zero_add n)

/-- Nothing ends a machine as long as it runs. -/
theorem le_of_finished {n j : Nat} (hbefore : ∀ i, i < n → (s.steps i).finished = false)
    (hfin : (s.steps j).finished = true) : n ≤ j := by
  refine Nat.le_of_not_lt fun hlt => ?_
  rw [hbefore j hlt] at hfin
  cases hfin

theorem run_eq_runSerially {code : Memory} (h : s.bus.KeepsCode code) : s.run = s.runSerially := by
  unfold run
  cases s.backend with
  | serial => rfl
  | parallel =>
    change s.runInThreads = _
    rw [runInThreads]
    cases hs : s.continues with
    | true => exact (Crew.stands_start hs h).runFor (Nat.le_refl _)
    | false => exact (runSerially_of_not_continues hs).symm

theorem exists_steps_of_runFor (n : Nat) (s : Simulation) :
    ∃ j, runFor n s = s.steps j ∧ ∀ i, i < j → (s.steps i).continues = true := by
  induction n generalizing s with
  | zero => exact ⟨0, rfl, nofun⟩
  | succ n ih =>
    cases hs : s.continues with
    | false => exact ⟨0, by rw [runFor, hs]; rfl, nofun⟩
    | true =>
      obtain ⟨j, hj, hbefore⟩ := ih s.step
      refine ⟨j + 1, ?_, forall_steps (P := fun s => s.continues = true) hs hbefore⟩
      rw [runFor, hs, steps_succ, ← hj]
      rfl

/-- A run is some cycles. It ends before an instruction has ended it only if its budget is spent. -/
theorem exists_steps_of_run {code : Memory} (h : s.bus.KeepsCode code) :
    ∃ j, s.run = s.steps j ∧ (∀ i, i < j → (s.steps i).finished = false) ∧
      ((s.steps j).finished = true ∨ s.limit ≤ s.counters.cycles + j) := by
  obtain ⟨j, hj, hbefore⟩ := exists_steps_of_runFor s.budget s
  have hrun : s.run = s.steps j := (run_eq_runSerially h).trans hj
  refine ⟨j, hrun, fun i hi => ?_, ?_⟩
  · have hcontinues := hbefore i hi
    simp only [continues, Bool.and_eq_true, Bool.not_eq_true'] at hcontinues
    exact hcontinues.1
  · have hstop := s.continues_runSerially
    rw [← run_eq_runSerially h, hrun, continues, limit_steps, cycles_steps] at hstop
    cases hfin : (s.steps j).finished with
    | true => exact .inl rfl
    | false => exact .inr (by simpa [hfin] using hstop)

/-- A run with a budget that is large enough goes on until an instruction ends it. -/
theorem run_eq_steps {code : Memory} (h : s.bus.KeepsCode code) {n : Nat}
    (hbefore : ∀ i, i < n → (s.steps i).finished = false) (hfin : (s.steps n).finished = true)
    (hlimit : s.counters.cycles + n ≤ s.limit) : s.run = s.steps n := by
  obtain ⟨j, hj, hrunning, hstop⟩ := exists_steps_of_run h
  have hnj : n ≤ j := by
    rcases hstop with hstop | hspent
    · exact le_of_finished hbefore hstop
    · omega
  rw [hj, Nat.le_antisymm (le_of_finished hrunning hfin) hnj]

/-! ## Hazards while a miss is in flight -/

/-- In how many of the first cycles a hazard is met while a miss is in flight. The hazard unit then
asks for nothing, and it will look at the same instructions again. -/
def held (s : Simulation) (z : Hazard) : Nat → Nat
  | 0 => 0
  | n + 1 =>
    s.held z n + ((s.steps n).hazards.missInFlight && (s.steps n).hazards.detect.has z).toNat

theorem held_add (s : Simulation) (z : Hazard) (m n : Nat) :
    s.held z (m + n) = s.held z m + (s.steps m).held z n := by
  induction n with
  | zero => rfl
  | succ n ih => rw [← Nat.add_assoc, held, held, ih, steps_add, Nat.add_assoc]

theorem cached_steps (h : s.bus.cached = none) (n : Nat) : (s.steps n).bus.cached = none := by
  induction n with
  | zero => exact h
  | succ n ih => exact cached_memoryStage ih _

/-- Without misses, no hazard is met while one is in flight. -/
theorem held_of_plain (h : s.bus.cached = none) (z : Hazard) (n : Nat) : s.held z n = 0 := by
  induction n with
  | zero => rfl
  | succ n ih =>
    have hflight : (s.steps n).hazards.missInFlight = false := by
      change (memoryStage (s.steps n).outputs.memory (s.steps n).bus).2.missInFlight = false
      rw [Bus.missInFlight, cached_memoryStage (cached_steps h n)]
      rfl
    rw [held, ih, hflight]
    rfl

/-- While a miss is in flight, whatever hazard is met is counted, and nothing else happens. -/
theorem of_steps_of_flight {n : Nat}
    (hflight : ∀ i, i < n → (s.steps i).hazards.missInFlight = true) (z : Hazard) :
    (s.steps n).counters.of z = s.counters.of z + s.held z n := by
  induction n with
  | zero => rfl
  | succ n ih =>
    rw [steps, counters_step, RunCounters.of_count, ih fun i hi => hflight i (Nat.lt_succ_of_lt hi),
      held, hflight n (Nat.lt_succ_self n), Bool.true_and, Nat.add_assoc]

/-! ## The end of a program -/

/-- The misses that were counted, none without a cache. -/
def misses (s : Simulation) : Nat := s.bus.counters.elim 0 (·.misses)

/-- A run has ended with the instruction that the sequential machine `σ` ends with after `k` others.
Of the hazards, those in `held` were counted that were met while a miss was in flight. -/
structure Concluded (s : Simulation) (σ : Sequential) (latency k : Nat) (held : Hazard → Nat) :
    Prop where
  status : s.core.status = (σ.run (k + 1)).core.status
  registers : s.core.registers = (σ.run (k + 1)).core.registers
  flags : s.core.flags = (σ.run k).finalFlags
  memory : ∀ x, s.bus.coherent.byte x = (σ.run (k + 1)).memory.byte x
  retired : s.counters.retired = k + 1
  cycles : s.counters.cycles = (σ.events (k + 1)).cycles latency s.misses
  missStalls : s.counters.missStalls = latency * s.misses
  counted : s.core.status ≠ .badAddress →
    ∀ z, s.counters.of z = (σ.events (k + 1)).of z + held z

variable {code : Memory} {map : SegmentMap} {σ : Sequential} {k : Nat}

theorem cycles_events {e : Events} {k : Nat} (h : e.executed = k) (latency misses : Nat) :
    e.cycles latency misses = k + 4 + e.bubbles + latency * misses := by
  rw [Events.cycles, Events.bubbles, h]
  omega

theorem Underway.detect_end (h : s.Underway code map σ k 0)
    (hend : s.outputs.Ending s.core.flags s.bus (σ.run k))
    (hterm : (σ.run k).fetchedStatus.isTerminal = true) (z : Hazard) :
    s.hazards.detect.has z = false := by
  have ha := h.paced.alive
  obtain ⟨hexecute, hdecode⟩ := hend.again hterm
  have hflags := hend.final
  rw [Sequential.finalFlags_of_isTerminal hterm] at hflags
  rw [detect_slot ha hexecute hflags ((Outputs.behind_iff_of_isTerminal ha hterm).2 hdecode)
    h.paced.flows.flight]
  exact Sequential.detected_of_isTerminal ha hterm z

/-- The last cycle without a cache. -/
theorem Underway.conclude (h : s.Underway code map σ k 0) (hover : ¬ (σ.run (k + 1)).Alive) :
    s.step.finished = true ∧ s.step.Concluded σ 0 k fun _ => 0 := by
  rw [Sequential.run_succ] at hover
  have ha := h.paced.alive
  have hw : s.outputs.write.status.isTerminal = true := by
    rw [h.paced.front.1]
    rw [Sequential.alive_step_iff ha] at hover
    exact eq_true_of_ne_false hover
  obtain ⟨-, -, hend⟩ := h.paced.ending hw
  obtain ⟨-, hstatus, hregisters, hbus, hflags⟩ := h.paced.finish hw
  obtain ⟨hbubbles, hevents⟩ := σ.events_succ_of_end ha hover
  have hplain : s.step.bus.cached = none := by
    rw [hbus]
    rfl
  rw [← Sequential.run_succ] at hstatus hregisters
  refine ⟨by rw [finished, status_step, hw], ?_⟩
  refine
    { status := hstatus
      registers := hregisters
      flags := hflags
      memory := fun x => ?_
      retired := ?_
      cycles := ?_
      missStalls := by rw [h.missStalls_step, Nat.zero_mul]
      counted := fun hne z => ?_ }
  · rw [Bus.coherent, hplain, hbus, Sequential.run_succ]
    rfl
  · rw [counters_step, RunCounters.count, if_neg, h.retired]
    intro hb
    rw [hb] at hw
    cases hw
  · have hclock := h.clock
    rw [cycles_step, cycles_events (σ.executed_events ha), hbubbles, Nat.zero_mul]
    omega
  · have hterm := Sequential.fetchedStatus_of_end ha hover (by
      rw [← Sequential.run_succ, ← hstatus]
      exact hne)
    rw [counters_step, RunCounters.of_count, h.counted, h.detect_end hend hterm, hevents,
      Sequential.metByWrite_of_isTerminal ha hterm]
    rfl

/-! ## With a cache -/

variable {u c : Simulation} {g : Geometry}

theorem Abreast.finished_eq (h : u.Abreast c code g) : c.finished = u.finished := by
  have hterm : ∀ t : Status, t.settled.isTerminal = t.isTerminal := fun t => by cases t <;> rfl
  rw [finished, finished, ← hterm, h.status, hterm]

/-- A machine with a cache that has caught up has done so cycle by cycle. -/
theorem Trails.WaitsOut.catchUp {j : Nat} (h : Trails.WaitsOut u c code g j) :
    u.step.Abreast (c.steps (j + 1)) code g ∧
    ∀ z, (c.steps (j + 1)).counters.of z + u.counters.of z =
      u.step.counters.of z + c.counters.of z + c.held z (j + 1) := by
  obtain ⟨last, hlast, hdone⟩ := h.done
  refine ⟨hlast.catchUp hdone, fun z => ?_⟩
  have hflight : (c.steps j).hazards.missInFlight = false := (hlast.calm_of_done hdone).2
  rw [steps, counters_step, counters_step, RunCounters.of_count, RunCounters.of_count,
    hlast.detect_eq hdone, of_steps_of_flight (fun i hi => (h.waiting i hi).1), held, hflight]
  simp only [Bool.false_and, Bool.toNat_false]
  omega

/-- The machine with a cache comes to every state of the one without, and is not over before. -/
theorem exists_abreast_steps (hcode : map.ProtectsCode) (hspecial : g.AvoidsSpecial map)
    (entry : Word) (m : Memory) (backend : Backend) (limit n : Nat)
    (hrun : ∀ i, i < n →
      ((start entry (Bus.start m map none) backend limit).steps i).finished = false) :
    let u := start entry (Bus.start m map none) backend limit
    let c := start entry (Bus.start m map (some g)) backend limit
    ∃ j, n ≤ j ∧ (∀ i, i < j → (c.steps i).finished = false) ∧
      (u.steps n).Abreast (c.steps j) m g ∧
      ∀ z, (c.steps j).counters.of z = (u.steps n).counters.of z + c.held z j := by
  intro u c
  -- for each cycle of the one without a cache, the other one waits out what it misses
  induction n with
  | zero =>
    exact ⟨0, Nat.le_refl 0, nofun, abreast_start hcode hspecial entry m backend limit,
      fun _ => rfl⟩
  | succ n ih =>
    obtain ⟨j, hnj, hbefore, habreast, hcount⟩ := ih fun i hi => hrun i (Nat.lt_succ_of_lt hi)
    obtain ⟨i, hwaits⟩ := habreast.trails.exists_waitsOut
    obtain ⟨hnext, hcount'⟩ := hwaits.catchUp
    have hfin : (c.steps j).finished = false :=
      habreast.finished_eq.trans (hrun n (Nat.lt_succ_self n))
    have hbetween : ∀ l, l < i + 1 → ((c.steps j).steps l).finished = false := by
      intro l hl
      cases l with
      | zero => exact hfin
      | succ l => exact (hwaits.waiting l (Nat.lt_of_succ_lt_succ hl)).2
    have hsteps : c.steps (j + (i + 1)) = (c.steps j).steps (i + 1) := steps_add _ _ _
    refine ⟨j + (i + 1), by omega, fun l hl => ?_, by rw [hsteps]; exact hnext, fun z => ?_⟩
    · rcases Nat.lt_or_ge l j with hlt | hge
      · exact hbefore l hlt
      · obtain ⟨l, rfl⟩ := Nat.exists_eq_add_of_le hge
        rw [steps_add]
        exact hbetween l (by omega)
    · have h := hcount z
      have h' := hcount' z
      have hu : u.steps (n + 1) = (u.steps n).step := rfl
      rw [hsteps, held_add, hu]
      omega

/-- What the end of a run without a cache is, the end of the one with a cache is, too. -/
theorem Concluded.delayed {held : Hazard → Nat} (h : u.Concluded σ 0 k fun _ => 0)
    (hfin : u.finished = true) (habreast : u.Abreast c code g)
    (hcount : ∀ z, c.counters.of z = u.counters.of z + held z) :
    c.Concluded σ g.latency k held := by
  have hstatus : c.core.status = u.core.status := Status.eq_of_settled habreast.status hfin
  obtain ⟨side, hside, -, -, hstalls⟩ := habreast.trails.clock
  have hmisses : c.misses = side.misses := by
    rw [misses, Bus.counters, hside]
    rfl
  have hstalls : c.counters.missStalls = g.latency * c.misses := by
    rw [hmisses]
    exact hstalls
  refine
    { status := hstatus.trans h.status
      registers := habreast.registers.trans h.registers
      flags := habreast.flags.trans h.flags
      memory := fun x => ?_
      retired := habreast.retired.trans h.retired
      cycles := ?_
      missStalls := hstalls
      counted := fun hne z => ?_ }
  · rw [← h.memory, habreast.trails.twins.mirrors.coherent, Bus.coherent,
      habreast.trails.twins.plain]
  · rw [habreast.trails.cycles, h.cycles, hstalls, Events.cycles, Events.cycles]
    omega
  · rw [hcount, h.counted (hstatus ▸ hne), Nat.add_zero]

/-! ## With or without a cache -/

variable {m : Memory} {cache : Option Geometry}

/-- The cycles that a miss takes, none without a cache. -/
def latency (cache : Option Geometry) : Nat := cache.elim 0 (·.latency)

section

variable (hcode : map.ProtectsCode) (hspecial : ∀ g, cache = some g → g.AvoidsSpecial map)
  (entry : Word) (hclear : (Sequential.start entry m map).StaysClear) (backend : Backend)
include hcode hspecial hclear

/-- Where the sequential machine comes to the end of its program, so does a run. -/
theorem exists_concluded (limit k : Nat)
    (ha : ((Sequential.start entry m map).run k).Alive)
    (hover : ¬ ((Sequential.start entry m map).run (k + 1)).Alive) :
    let s := start entry (Bus.start m map cache) backend limit
    ∃ n, (∀ i, i < n → (s.steps i).finished = false) ∧ (s.steps n).finished = true ∧
      (s.steps n).Concluded (.start entry m map) (latency cache) k fun z => s.held z n := by
  intro s
  obtain ⟨n, hbefore, hunderway⟩ := exists_underway hcode entry hclear backend limit k ha
  obtain ⟨hfin, hconcluded⟩ := hunderway.conclude hover
  cases cache with
  | none =>
    refine ⟨n + 1, hbefore, hfin, ?_⟩
    have hheld : (fun z => s.held z (n + 1)) = fun _ => 0 :=
      funext fun z => held_of_plain rfl z (n + 1)
    rw [hheld]
    exact hconcluded
  | some g =>
    obtain ⟨j, -, hbefore', habreast, hcount⟩ :=
      exists_abreast_steps hcode (hspecial g rfl) entry m backend limit (n + 1) hbefore
    exact ⟨j, hbefore', habreast.finished_eq.trans hfin, hconcluded.delayed hfin habreast hcount⟩

/-- A run ends only with its program. -/
theorem exists_end (limit n : Nat)
    (hfin : ((start entry (Bus.start m map cache) backend limit).steps n).finished = true) :
    ∃ k, ((Sequential.start entry m map).run k).Alive ∧
      ¬ ((Sequential.start entry m map).run (k + 1)).Alive := by
  false_or_by_contra
  rename_i hnone
  have halive : ∀ k, ((Sequential.start entry m map).run k).Alive := by
    intro k
    induction k with
    | zero => rfl
    | succ k ih =>
      false_or_by_contra
      rename_i hover
      exact hnone ⟨k, ih, hover⟩
  -- the instruction that is retired after `n` others is retired after more than `n` cycles
  obtain ⟨i, hbefore, hunderway⟩ := exists_underway hcode entry hclear backend limit n (halive n)
  have hcycles := hunderway.clock
  rw [cycles_start] at hcycles
  have hin : i ≤ n := by
    cases cache with
    | none => exact le_of_finished (fun l hl => hbefore l (Nat.lt_succ_of_lt hl)) hfin
    | some g =>
      obtain ⟨j, hij, hbefore', -, -⟩ := exists_abreast_steps hcode (hspecial g rfl) entry m backend
        limit i fun l hl => hbefore l (Nat.lt_succ_of_lt hl)
      exact Nat.le_trans hij (le_of_finished hbefore' hfin)
  omega

/-- With a budget that is large enough, a run concludes its program. -/
theorem exists_budget (k : Nat)
    (ha : ((Sequential.start entry m map).run k).Alive)
    (hover : ¬ ((Sequential.start entry m map).run (k + 1)).Alive) :
    ∃ budget, ∀ limit, budget ≤ limit →
      let s := start entry (Bus.start m map cache) backend limit
      s.run.finished = true ∧
      s.run.Concluded (.start entry m map) (latency cache) k fun z =>
        s.held z s.run.counters.cycles := by
  obtain ⟨budget, hbefore, hfin, -⟩ := exists_concluded hcode hspecial entry hclear
    backend 0 k ha hover
  refine ⟨budget, fun limit hlimit => ?_⟩
  intro s
  obtain ⟨n, hbefore', hfin', hconcluded⟩ := exists_concluded hcode hspecial entry
    hclear backend limit k ha hover
  -- the budget decides only how many cycles there are
  have hsame : ∀ i, (s.steps i).finished =
      ((start entry (Bus.start m map cache) backend 0).steps i).finished := fun i => by
    have hs := steps_limit (start entry (Bus.start m map cache) backend 0) limit i
    exact congrArg (·.core.status.isTerminal) hs
  have hn : n ≤ budget := le_of_finished hbefore' ((hsame budget).trans hfin)
  have hrun : s.run = s.steps n := by
    refine run_eq_steps (Bus.keepsCode_start hcode m cache) hbefore' hfin' ?_
    have hzero : s.counters.cycles = 0 := rfl
    have hlimit' : s.limit = limit := rfl
    omega
  have hcycles : (s.steps n).counters.cycles = n := cycles_start _ _ _ _ n
  rw [hrun, hcycles]
  exact ⟨hfin', hconcluded⟩

/-- A run that an instruction has ended has concluded its program. -/
theorem exists_of_run_finished (limit : Nat)
    (hfin : (start entry (Bus.start m map cache) backend limit).run.finished = true) :
    let s := start entry (Bus.start m map cache) backend limit
    ∃ k, ((Sequential.start entry m map).run k).Alive ∧
      ¬ ((Sequential.start entry m map).run (k + 1)).Alive ∧
      s.run.Concluded (.start entry m map) (latency cache) k fun z =>
        s.held z s.run.counters.cycles := by
  intro s
  obtain ⟨j, hj, hrunning, -⟩ := exists_steps_of_run (s := s) (Bus.keepsCode_start hcode m cache)
  have hfin' : (s.steps j).finished = true := hj ▸ hfin
  obtain ⟨k, ha, hover⟩ := exists_end hcode hspecial entry hclear backend limit j hfin'
  obtain ⟨n, hbefore, hfinished, hconcluded⟩ := exists_concluded hcode hspecial
    entry hclear backend limit k ha hover
  obtain rfl : n = j :=
    Nat.le_antisymm (le_of_finished hbefore hfin') (le_of_finished hrunning hfinished)
  have hcycles : (s.steps n).counters.cycles = n := cycles_start _ _ _ _ n
  rw [hj, hcycles]
  exact ⟨k, ha, hover, hconcluded⟩

end

end Simulation

end FiveStage
