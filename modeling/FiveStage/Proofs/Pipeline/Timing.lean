import FiveStage.Proofs.Pipeline.Paced

/-!
# How long a program takes, and what is counted

Without a cache, it is known for every instruction in which cycle it is in writeback, and which
hazards have been met by then.

* `Hazard` : the hazards that are counted; `RunCounters.of`, `Events.of` : how many of them;
* `Sequential.metByExecute`, `Sequential.metByMemory`, `Sequential.metByWrite` : the hazards that
  have been met when an instruction comes to a stage in so many cycles;
* `Simulation.Underway` : cycles and counters of a run, as an invariant;
* `Simulation.exists_underway` : every instruction comes to writeback.
-/

namespace FiveStage

/-- A hazard that is counted. -/
inductive Hazard where
  | loadUse | ret | mispredict
  deriving DecidableEq, Repr

/-- Whether a hazard is met in a cycle. -/
def Hazards.has (h : Hazards) : Hazard → Bool
  | .loadUse => h.loadUse
  | .ret => h.ret
  | .mispredict => h.mispredict

/-- How often a hazard was counted. -/
def RunCounters.of (n : RunCounters) : Hazard → Nat
  | .loadUse => n.loadUseStalls
  | .ret => n.returnStalls
  | .mispredict => n.mispredictions

/-- How many instructions of a program there are that meet a hazard. -/
def Events.of (e : Events) : Hazard → Nat
  | .loadUse => e.loadUses
  | .ret => e.returns
  | .mispredict => e.fallThroughs

/-- How many bubbles there are in front of the instructions of a program. -/
def Events.bubbles (e : Events) : Nat := e.loadUses + e.returns + 2 * e.fallThroughs

theorem RunCounters.of_count (n : RunCounters) (t : Status) (h : Hazards) (z : Hazard) :
    (n.count t h).of z = n.of z + (h.has z).toNat := by
  cases z <;> rfl

theorem Events.of_add (a b : Events) (z : Hazard) : (a.add b).of z = a.of z + b.of z := by
  cases z <;> rfl

/-! ## Instructions and their hazards -/

namespace Sequential

variable {s : Sequential}

/-- Whether the instruction at the program counter meets a hazard. -/
def meets (s : Sequential) : Hazard → Bool
  | .loadUse => s.delaysNext
  | .ret => s.returns
  | .mispredict => s.fallsThrough

/-- The hazards of the instruction at the program counter, and of those behind it, that have been
met when it comes to execute in so many cycles. A return is one before it is there. -/
def metByExecute (s : Sequential) : Hazard → Nat → Nat
  | .ret, 0 => s.returns.toNat
  | _, _ => 0

/-- The same for memory. -/
def metByMemory (s : Sequential) (z : Hazard) : Nat → Nat
  | 0 => (s.meets z).toNat + s.beyond.metByExecute z s.gap
  | d + 1 => s.metByExecute z d

/-- The same for writeback. -/
def metByWrite (s : Sequential) (z : Hazard) : Nat → Nat
  | 0 => (s.meets z).toNat + s.beyond.metByMemory z s.gap
  | d + 1 => s.metByMemory z d

theorem detected_execute (s : Sequential) (z : Hazard) (d : Nat) :
    ((s.detected d).has z).toNat + s.metByExecute z d = s.metByMemory z d := by
  match d with
  | 0 =>
    cases z with
    | loadUse => rfl
    | mispredict => rfl
    | ret =>
      change (decide (s.gap = 0) && s.beyond.returns).toNat + s.returns.toNat =
        s.returns.toNat + s.beyond.metByExecute .ret s.gap
      rw [Nat.add_comm]
      cases s.gap <;> rfl
  | 1 => cases z <;> rfl
  | d + 2 => cases z <;> rfl

theorem metByWrite_of_isTerminal (ha : s.Alive) (h : s.fetchedStatus.isTerminal = true)
    (z : Hazard) : s.metByWrite z 0 = 0 := by
  have hmeets : s.meets z = false := by
    cases z with
    | loadUse => exact delaysNext_of_isTerminal h
    | ret => exact returns_of_isTerminal ha h
    | mispredict => exact fallsThrough_of_isTerminal ha h
  have hexecute : s.metByExecute z 0 = 0 := by
    cases z with
    | ret => rw [metByExecute, returns_of_isTerminal ha h]; rfl
    | _ => rfl
  rw [metByWrite, gap_of_isTerminal ha h, beyond_of_isTerminal h, metByMemory,
    gap_of_isTerminal ha h, beyond_of_isTerminal h, hmeets, hexecute]
  rfl

theorem detected_of_isTerminal (ha : s.Alive) (h : s.fetchedStatus.isTerminal = true)
    (z : Hazard) : (s.detected 0).has z = false := by
  have hreturns : s.beyond.returns = false := by
    rw [beyond_of_isTerminal h]
    exact returns_of_isTerminal ha h
  cases z with
  | loadUse => exact delaysNext_of_isTerminal h
  | ret =>
    change (_ && s.beyond.returns) = false
    rw [hreturns, Bool.and_false]
  | mispredict => exact fallsThrough_of_isTerminal ha h

theorem of_eventsOfStep (ha : s.Alive) (h : s.step.Alive) (z : Hazard) :
    s.eventsOfStep.of z = (s.meets z).toNat := by
  cases z with
  | loadUse =>
    change s.usesLoad.toNat = _
    rw [usesLoad_eq ha h]
    rfl
  | ret => rfl
  | mispredict => rfl

theorem bubbles_events_succ (s : Sequential) {k : Nat} (ha : (s.run k).Alive)
    (h : (s.run k).step.Alive) :
    (s.events (k + 1)).bubbles = (s.events k).bubbles + (s.run k).gap := by
  rw [events_succ, gap_eq ha, ← usesLoad_eq ha h]
  simp only [Events.bubbles, Events.add, eventsOfStep]
  omega

/-- The instruction that ends a program leaves no bubbles. -/
theorem events_succ_of_end (s : Sequential) {k : Nat} (ha : (s.run k).Alive)
    (h : ¬ (s.run k).step.Alive) :
    (s.events (k + 1)).bubbles = (s.events k).bubbles ∧
    ∀ z, (s.events (k + 1)).of z = (s.events k).of z := by
  have hload : (s.run k).usesLoad = false := by
    have hover : (s.run k).step.core.status.isTerminal = true := eq_true_of_ne_false h
    rw [usesLoad, hover]
    simp
  have hother : (s.run k).returns = false ∧ (s.run k).fallsThrough = false := by
    rcases end_cases ha h with ⟨hok, hbad⟩ | ht
    · exact no_branch_of_badAddress ha hok hbad
    · exact ⟨returns_of_isTerminal ha ht, fallsThrough_of_isTerminal ha ht⟩
  obtain ⟨hreturns, hfall⟩ := hother
  rw [events_succ]
  refine ⟨?_, fun z => ?_⟩
  · simp only [Events.bubbles, Events.add, eventsOfStep, hload, hreturns, hfall, Bool.toNat_false,
      Nat.add_zero]
  · rw [Events.of_add]
    cases z <;> simp only [Events.of, eventsOfStep, hload, hreturns, hfall, Bool.toNat_false,
      Nat.add_zero]

end Sequential

/-! ## The run -/

namespace Simulation

variable {s : Simulation} {τ : Sequential} {code : Memory} {map : SegmentMap} {d : Nat}

theorem detect_memory (ha : τ.Alive) (hM : s.outputs.AtMemory s.core.flags τ d)
    (hf : s.hazards.missInFlight = false) (z : Hazard) :
    τ.metByMemory z d + (s.hazards.detect.has z).toNat = τ.metByWrite z d := by
  cases d with
  | zero =>
    rw [detect_execute (Sequential.alive_beyond ha) hM.2 hf, Sequential.metByMemory,
      Sequential.metByWrite, ← Sequential.detected_execute]
    omega
  | succ d =>
    rw [detect_execute ha hM.2 hf, Sequential.metByMemory, Sequential.metByWrite,
      ← Sequential.detected_execute]
    exact Nat.add_comm _ _

/-- A run of the program of `σ` has retired `k` instructions, and the next one comes to writeback in
`d` cycles. -/
structure Underway (s : Simulation) (code : Memory) (map : SegmentMap) (σ : Sequential)
    (k d : Nat) : Prop where
  paced : s.Paced code map (σ.run k) d
  retired : s.counters.retired = k
  clock : s.counters.cycles + d = k + 4 + (σ.events k).bubbles
  missStalls : s.counters.missStalls = 0
  counted : ∀ z, s.counters.of z = (σ.events k).of z + (σ.run k).metByWrite z d

theorem underway_start (h : map.ProtectsCode) (entry : Word) (m : Memory) (backend : Backend)
    (limit : Nat) :
    (start entry (Bus.start m map none) backend limit).Underway m map (.start entry m map) 0 4 :=
  ⟨paced_start h entry m backend limit, rfl, rfl, rfl, fun z => by cases z <;> rfl⟩

namespace Underway

variable {σ : Sequential} {k : Nat}

theorem missStalls_step (h : s.Underway code map σ k d) : s.step.counters.missStalls = 0 := by
  have hflight : s.hazards.detect.missInFlight = false := h.paced.flows.flight
  rw [counters_step, RunCounters.count, h.missStalls, hflight]
  rfl

theorem wait (h : s.Underway code map σ k (d + 1)) (hclear : σ.StaysClear) :
    s.step.finished = false ∧ s.step.Underway code map σ k d := by
  obtain ⟨hw, hnext⟩ := h.paced.wait (hclear.run k)
  refine ⟨by rw [finished, status_step, hw]; rfl, hnext, ?_, ?_, h.missStalls_step, fun z => ?_⟩
  · rw [counters_step, RunCounters.count, hw]
    exact h.retired
  · rw [cycles_step, ← h.clock]
    omega
  · rw [counters_step, RunCounters.of_count, h.counted, Nat.add_assoc]
    exact congrArg _ (detect_memory h.paced.alive h.paced.front.2.2 h.paced.flows.flight z)

theorem retire (h : s.Underway code map σ k 0) (hclear : σ.StaysClear)
    (ha : (σ.run (k + 1)).Alive) :
    s.step.finished = false ∧ s.step.Underway code map σ (k + 1) (σ.run k).gap := by
  rw [Sequential.run_succ] at ha
  obtain ⟨hw, hnext⟩ := h.paced.retire ha (hclear.run k)
  obtain ⟨-, -, hM⟩ := h.paced.front.2.resolve_left fun hend => hend.ended ha
  refine ⟨by rw [finished, status_step, hw]; rfl, ?_, ?_, ?_, h.missStalls_step, fun z => ?_⟩
  · rw [Sequential.run_succ]
    exact hnext
  · rw [counters_step, RunCounters.count, hw, if_neg (by nofun), h.retired]
  · have hclock := h.clock
    rw [cycles_step, σ.bubbles_events_succ h.paced.alive ha]
    omega
  · have hmet := detect_memory ha hM h.paced.flows.flight z
    rw [counters_step, RunCounters.of_count, h.counted, Sequential.events_succ, Events.of_add,
      Sequential.of_eventsOfStep h.paced.alive ha, Sequential.run_succ, ← hmet,
      Sequential.metByWrite, Sequential.beyond_of_alive_step h.paced.alive ha]
    omega

theorem exists_arrival (h : s.Underway code map σ k d) (hclear : σ.StaysClear)
    (hs : s.finished = false) : (∀ i, i < d + 1 → (s.steps i).finished = false) ∧
      (s.steps d).Underway code map σ k 0 := by
  induction d generalizing s with
  | zero => exact ⟨forall_steps (P := fun s => s.finished = false) hs nofun, h⟩
  | succ d ih =>
    obtain ⟨hfin, hnext⟩ := h.wait hclear
    obtain ⟨hbefore, harrival⟩ := ih hnext hfin
    rw [steps_succ]
    exact ⟨forall_steps (P := fun s => s.finished = false) hs hbefore, harrival⟩

end Underway

/-- Every instruction that the sequential machine executes comes to writeback, and the run is not
over before. -/
theorem exists_underway {map : SegmentMap} {m : Memory} (hcode : map.ProtectsCode) (entry : Word)
    (hclear : (Sequential.start entry m map).StaysClear) (backend : Backend) (limit k : Nat)
    (ha : ((Sequential.start entry m map).run k).Alive) :
    ∃ n, (∀ i, i < n + 1 →
        ((start entry (Bus.start m map none) backend limit).steps i).finished = false) ∧
      ((start entry (Bus.start m map none) backend limit).steps n).Underway m map
        (.start entry m map) k 0 := by
  generalize hσ : Sequential.start entry m map = σ at hclear ha
  -- each instruction is retired in writeback, and the next one arrives there behind its bubbles
  induction k with
  | zero =>
    obtain ⟨hbefore, h⟩ := (underway_start hcode entry m backend limit).exists_arrival
      (hσ ▸ hclear) rfl
    exact ⟨4, hbefore, hσ ▸ h⟩
  | succ k ih =>
    obtain ⟨n, hbefore, h⟩ := ih (σ.alive_of_le (Nat.le_succ k) ha)
    obtain ⟨hfin, hnext⟩ := h.retire hclear ha
    obtain ⟨hbetween, harrival⟩ := hnext.exists_arrival hclear hfin
    refine ⟨n + 1 + (σ.run k).gap, fun i hi => ?_, by rw [steps_add]; exact harrival⟩
    rcases Nat.lt_or_ge i (n + 1) with hlt | hge
    · exact hbefore i hlt
    · obtain ⟨j, rfl⟩ := Nat.exists_eq_add_of_le hge
      rw [steps_add]
      exact hbetween j (by omega)

end Simulation

end FiveStage
