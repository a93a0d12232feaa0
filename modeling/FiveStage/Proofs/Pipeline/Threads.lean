import FiveStage.Pipeline.Crew
import FiveStage.Proofs.Memory.Code
import FiveStage.Proofs.Pipeline.Cycle

/-!
# A thread for each stage

* `WorkerPoint.Does`, `WorkerPoint.next` : what one worker does between two barriers;
* `WorkerPoint.leaves` : what it leaves behind, wherever it is;
* `Crew.inCycle`, `Crew.decoding`, `Crew.resting`, `Crew.closing` : a crew before and after the
  second barrier, with every worker at the first barrier, and at the end;
* `Crew.Stands` : where a crew can be on its way to a final machine, and how many moves are left;
  `Crew.Stands.move` : every move keeps it, `Crew.Stands.exists_move` : some move is possible;
* `Crew.follow` : a schedule; `Simulation.threads_agree` : all schedules end like a serial run.
-/

namespace FiveStage

/-! ## One worker -/

namespace WorkerPoint

variable {α β γ : Type} {b : Barrier} {work : α} {yield : Option β} {p p' : WorkerPoint α β}

/-- Where a worker can be that takes `work`, stages `yield`, if anything, and waits at `b` then. -/
def Does (b : Barrier) (work : α) (yield : Option β) : WorkerPoint α β → Prop
  | waiting b' => b' = b
  | checking | reading => True
  | working a => a = work
  | staging y => yield = some y
  | gone => False

/-- Where it goes from there. -/
def next (b : Barrier) (work : α) (yield : Option β) : WorkerPoint α β → Option (WorkerPoint α β)
  | checking => some reading
  | reading => some (working work)
  | working _ => some (yield.elim (waiting b) staging)
  | staging _ => some (waiting b)
  | waiting _ | gone => none

/-- The moves before it waits. -/
def left (stages : Bool) : WorkerPoint α β → Nat
  | checking => 3 + stages.toNat
  | reading => 2 + stages.toNat
  | working _ => 1 + stages.toNat
  | staging _ => 1
  | waiting _ | gone => 0

/-- A piece of the machine that it changes when it works, and when it stages. -/
def leaves (before between after : γ) : WorkerPoint α β → γ
  | checking | reading | working _ | gone => before
  | staging _ => between
  | waiting _ => after

/-- A thread that has only to see the stop flag. -/
def Quits (p : WorkerPoint α β) : Prop := p = checking ∨ p = gone

/-- The moves before it is gone. -/
def exits : WorkerPoint α β → Nat
  | checking => 1
  | _ => 0

theorem Does.next (h : p.Does b work yield) (stages : Bool) (hs : yield.isSome = stages)
    (hn : p.next b work yield = some p') :
    p'.Does b work yield ∧ p' ≠ checking ∧ p'.left stages < p.left stages := by
  cases p with
  | checking =>
    cases hn
    exact ⟨trivial, nofun, Nat.add_lt_add_right (by decide) _⟩
  | reading =>
    cases hn
    exact ⟨rfl, nofun, Nat.add_lt_add_right (by decide) _⟩
  | working a =>
    cases hn
    cases yield with
    | none => exact ⟨rfl, nofun, Nat.lt_of_lt_of_le Nat.zero_lt_one (Nat.le_add_right _ _)⟩
    | some y =>
      obtain rfl := hs
      exact ⟨rfl, nofun, Nat.one_lt_two⟩
  | staging y =>
    cases hn
    exact ⟨rfl, nofun, Nat.zero_lt_one⟩
  | waiting b' => cases hn
  | gone => cases hn

/-- The same, for a crew that only this worker changes. -/
theorem Does.next_map {δ : Type} {crew : WorkerPoint α β → δ} {d : δ} (h : p.Does b work yield)
    (stages : Bool) (hs : yield.isSome = stages)
    (hd : (p.next b work yield).map crew = some d) :
    ∃ p', d = crew p' ∧ p'.Does b work yield ∧ p' ≠ checking ∧
      p'.left stages < p.left stages := by
  obtain ⟨p', hn, rfl⟩ := Option.map_eq_some_iff.mp hd
  exact ⟨p', rfl, h.next stages hs hn⟩

theorem Does.next_or (h : p.Does b work yield) :
    (∃ p', p.next b work yield = some p') ∨ p = waiting b := by
  cases p with
  | checking => exact .inl ⟨_, rfl⟩
  | reading => exact .inl ⟨_, rfl⟩
  | working a => exact .inl ⟨_, rfl⟩
  | staging y => exact .inl ⟨_, rfl⟩
  | waiting b' => exact .inr (congrArg waiting h)
  | gone => exact h.elim

theorem leaves_of {P : γ → Prop} {before between after : γ} (hbefore : P before)
    (hbetween : P between) (hafter : P after) (p : WorkerPoint α β) :
    P (p.leaves before between after) := by
  cases p with
  | staging y => exact hbetween
  | waiting b => exact hafter
  | checking => exact hbefore
  | reading => exact hbefore
  | working a => exact hbefore
  | gone => exact hbefore

end WorkerPoint

/-! ## The machine in the middle of a cycle -/

/-- What the stages of a cycle change. -/
structure Changes where
  registers : RegisterFile
  flags : Flags
  bus : Bus
  staged : Outputs

namespace Simulation

variable {s : Simulation}

/-- The machine after some changes. -/
def put (s : Simulation) (y : Changes) : Simulation :=
  { s with
    core.registers := y.registers
    core.flags := y.flags
    bus := y.bus
    pipeline := s.pipeline.stage y.staged }

/-- What fetch works on. -/
def fetchWork (s : Simulation) : FetchWork :=
  (s.outputs.fetch, s.outputs.execute, s.outputs.memory)

/-- What the stages have changed when decode is still to come. -/
def undecoded (s : Simulation) (x : ExecuteSlot) : Changes :=
  ⟨s.retiredTo, s.executed.2, s.accessed.2, { s.staged with execute := x }⟩

/-- Nothing else has changed when every stage is done. -/
theorem stages_eq_put (s : Simulation) : s.stages = s.put (s.undecoded s.decoded) := by
  rfl

/-! ## Runs -/

theorem runSerially_of_not_continues (h : s.continues = false) : s.runSerially = s := by
  unfold runSerially
  cases s.budget with
  | zero => rfl
  | succ n => rw [runFor, h]; rfl

theorem budget_step (h : s.continues = true) : s.budget = s.step.budget + 1 := by
  rw [continues, Bool.and_eq_true] at h
  have hlt := of_decide_eq_true h.2
  rw [budget, budget, cycles_step, limit_step]
  omega

theorem runSerially_step (h : s.continues = true) : s.step.runSerially = s.runSerially := by
  rw [runSerially, runSerially, budget_step h, runFor, if_pos h]

theorem keepsCode_steps {code : Memory} (h : s.bus.KeepsCode code) (n : Nat) :
    (s.steps n).bus.KeepsCode code := by
  induction n with
  | zero => exact h
  | succ n ih => exact Bus.keepsCode_memoryStage ih _

end Simulation

theorem Move.mem_all (move : Move) : move ∈ Move.all := by
  cases move with
  | pass b => cases b <;> decide
  | _ => decide

namespace Crew

open Barrier

/-! ## Crews -/

/-- Every worker is at the first barrier. -/
def resting (s : Simulation) (running : Bool) (driver : DriverPoint) : Crew :=
  { start s with running := running, driver := driver }

/-- What four workers have changed, wherever they are, while decode waits for them. -/
def changes (s : Simulation) (f : WorkerPoint FetchWork (FetchSlot × DecodeSlot))
    (x : WorkerPoint ExecuteSlot MemorySlot) (m : WorkerPoint MemorySlot WriteSlot)
    (w : WorkerPoint WriteSlot Unit) : Changes where
  registers := w.leaves s.core.registers s.core.registers s.retiredTo
  flags := x.leaves s.core.flags s.executed.2 s.executed.2
  bus := m.leaves s.bus s.accessed.2 s.accessed.2
  staged :=
    { fetch := f.leaves s.pipeline.fetch.input s.pipeline.fetch.input s.fetched.1
      decode := f.leaves s.pipeline.decode.input s.pipeline.decode.input s.fetched.2
      execute := s.pipeline.execute.input
      memory := x.leaves s.pipeline.memory.input s.pipeline.memory.input s.executed.1
      write := m.leaves s.pipeline.write.input s.pipeline.write.input s.accessed.1 }

/-- Before the second barrier. -/
def inCycle (s : Simulation) (f : WorkerPoint FetchWork (FetchSlot × DecodeSlot))
    (e : WorkerPoint (DecodeSlot × Producers) ExecuteSlot)
    (x : WorkerPoint ExecuteSlot MemorySlot) (m : WorkerPoint MemorySlot WriteSlot)
    (w : WorkerPoint WriteSlot Unit) : Crew :=
  ⟨s.put (changes s f x m w), true, f, e, x, m, w, .waiting stagesDone⟩

/-- Between the second barrier and the third. -/
def decoding (s : Simulation) (e : WorkerPoint (DecodeSlot × Producers) ExecuteSlot) : Crew :=
  { start (s.put (s.undecoded
      (e.leaves s.pipeline.execute.input s.pipeline.execute.input s.decoded))) with
    decode := e
    driver := .waiting decoded }

/-- After the driver. -/
def closing (s : Simulation) (f : WorkerPoint FetchWork (FetchSlot × DecodeSlot))
    (e : WorkerPoint (DecodeSlot × Producers) ExecuteSlot)
    (x : WorkerPoint ExecuteSlot MemorySlot) (m : WorkerPoint MemorySlot WriteSlot)
    (w : WorkerPoint WriteSlot Unit) : Crew :=
  ⟨s, false, f, e, x, m, w, .gone⟩

/-! ## Where a crew stands -/

/-- A machine from which a serial run ends in `final`. -/
structure Due (final : Simulation) (code : Memory) (s : Simulation) : Prop where
  final : s.runSerially = final
  code : s.bus.KeepsCode code

theorem Due.step {final s : Simulation} {code : Memory} (h : Due final code s)
    (hs : s.continues = true) : Due final code s.step :=
  ⟨(Simulation.runSerially_step hs).trans h.final, Bus.keepsCode_memoryStage h.code _⟩

/-- The moves that a machine in front of the first barrier has still to make. -/
def movesFrom (s : Simulation) : Nat := movesPerCycle * s.budget + movesAtEnd

/-- A crew on its way to `final`, and how many moves are left at most. -/
inductive Stands (final : Simulation) (code : Memory) : Crew → Nat → Prop where
  | ready {s} (h : Due final code s) (hs : s.continues = true) :
      Stands final code (resting s true (.waiting .start)) (movesFrom s)
  | inCycle {s f e x m w} (h : Due final code s) (hs : s.continues = true)
      (hf : f.Does stagesDone s.fetchWork (some s.fetched))
      (he : e = .checking ∨ e = .waiting stagesDone)
      (hx : x.Does stagesDone s.outputs.execute (some s.executed.1))
      (hm : m.Does stagesDone s.outputs.memory (some s.accessed.1))
      (hw : w.Does stagesDone s.outputs.write none) :
      Stands final code (inCycle s f e x m w)
        (f.left true + e.exits + x.left true + m.left true + w.left false + 8 + movesFrom s.step)
  | decoding {s e} (h : Due final code s) (hs : s.continues = true)
      (he : e.Does decoded (s.outputs.decode, s.supplied) (some s.decoded))
      (hne : e ≠ .checking) :
      Stands final code (decoding s e) (e.left true + 4 + movesFrom s.step)
  | inspecting {s} (h : Due final code s) (hs : s.continues = true) :
      Stands final code (resting s.stages true .inspecting) (3 + movesFrom s.step)
  | finishing {s} (h : Due final code s) (hs : s.continues = true) :
      Stands final code (resting s.stages true (.finishing s.stages.bus.missInFlight))
        (2 + movesFrom s.step)
  | deciding {s} (h : Due final code s) :
      Stands final code (resting s true .deciding) (1 + movesFrom s)
  | stopping : Stands final code (resting final true .stopping) movesAtEnd
  | leaving : Stands final code (resting final false .leaving) 6
  | closing {f e x m w} (hf : f.Quits) (he : e.Quits) (hx : x.Quits) (hm : m.Quits) (hw : w.Quits) :
      Stands final code (closing final f e x m w)
        (f.exits + e.exits + x.exits + m.exits + w.exits)

variable {final s : Simulation} {code : Memory} {c d : Crew} {k : Nat}
  {f : WorkerPoint FetchWork (FetchSlot × DecodeSlot)}
  {e : WorkerPoint (DecodeSlot × Producers) ExecuteSlot}
  {x : WorkerPoint ExecuteSlot MemorySlot} {m : WorkerPoint MemorySlot WriteSlot}
  {w : WorkerPoint WriteSlot Unit}

theorem stands_start (hs : s.continues = true) (hcode : s.bus.KeepsCode code) :
    Stands s.runSerially code (start s) (movesFrom s) :=
  .ready ⟨rfl, hcode⟩ hs

/-- A crew that stands nearer to the end. -/
def Nearer (final : Simulation) (code : Memory) (d : Crew) (k : Nat) : Prop :=
  ∃ j, j < k ∧ Stands final code d j

/-! ## Moves within a cycle -/

theorem moveFetch_inCycle (hcode : s.bus.KeepsCode code)
    (hf : f.Does stagesDone s.fetchWork (some s.fetched)) :
    (inCycle s f e x m w).moveFetch =
      (f.next stagesDone s.fetchWork (some s.fetched)).map fun f' => inCycle s f' e x m w := by
  cases f with
  | checking => rfl
  | reading => rfl
  | working a =>
    obtain rfl := hf
    -- fetch does not see whether memory has worked
    have hbus : fetchStage s.outputs.fetch s.outputs.execute s.outputs.memory
        (m.leaves s.bus s.accessed.2 s.accessed.2) = s.fetched := by
      refine m.leaves_of (P := fun bus => fetchStage _ _ _ bus = s.fetched) ?_ rfl rfl
      exact (hcode.fetchStage_memoryStage _ _ _ _).symm
    exact congrArg (fun y => some { inCycle s .checking e x m w with fetch := .staging y }) hbus
  | staging y =>
    obtain rfl := Option.some.inj hf
    rfl
  | waiting b => rfl
  | gone => rfl

theorem moveExecute_inCycle
    (hx : x.Does stagesDone s.outputs.execute (some s.executed.1)) :
    (inCycle s f e x m w).moveExecute =
      (x.next stagesDone s.outputs.execute (some s.executed.1)).map
        fun x' => inCycle s f e x' m w := by
  cases x with
  | checking => rfl
  | reading => rfl
  | working a => obtain rfl := hx; rfl
  | staging y => obtain rfl := Option.some.inj hx; rfl
  | waiting b => rfl
  | gone => rfl

theorem moveMemory_inCycle (hm : m.Does stagesDone s.outputs.memory (some s.accessed.1)) :
    (inCycle s f e x m w).moveMemory =
      (m.next stagesDone s.outputs.memory (some s.accessed.1)).map
        fun m' => inCycle s f e x m' w := by
  cases m with
  | checking => rfl
  | reading => rfl
  | working a => obtain rfl := hm; rfl
  | staging y => obtain rfl := Option.some.inj hm; rfl
  | waiting b => rfl
  | gone => rfl

theorem moveWrite_inCycle (hw : w.Does stagesDone s.outputs.write none) :
    (inCycle s f e x m w).moveWrite =
      (w.next stagesDone s.outputs.write none).map fun w' => inCycle s f e x m w' := by
  cases w with
  | checking => rfl
  | reading => rfl
  | working a => obtain rfl := hw; rfl
  | staging y => cases hw
  | waiting b => rfl
  | gone => rfl

/-- Decode sees what execute, memory and writeback have made in the same cycle. -/
theorem moveDecode_decoding (he : e.Does decoded (s.outputs.decode, s.supplied) (some s.decoded))
    (hne : e ≠ .checking) :
    (decoding s e).moveDecode =
      (e.next decoded (s.outputs.decode, s.supplied) (some s.decoded)).map (decoding s) := by
  cases e with
  | checking => exact absurd rfl hne
  | reading => rfl
  | working a => obtain rfl := he; rfl
  | staging y => obtain rfl := Option.some.inj he; rfl
  | waiting b => rfl
  | gone => rfl

/-! ## One move -/

theorem move?_resting (s : Simulation) (running : Bool) (driver : DriverPoint) (move : Move) :
    (resting s running driver).move? move =
      match move with
      | .driver => (resting s running driver).moveDriver
      | .pass .start => (resting s running driver).passStart
      | _ => none := by
  cases move with
  | pass b =>
    cases b with
    | start => rfl
    | stagesDone => rfl
    | decoded => rfl
  | _ => rfl

theorem move_resting {running : Bool} {driver : DriverPoint} {move : Move}
    (h : (resting s running driver).move? move = some d) :
    (resting s running driver).moveDriver = some d ∨
      (resting s running driver).passStart = some d := by
  rw [move?_resting] at h
  split at h
  · exact .inl h
  · exact .inr h
  · cases h

theorem nearer_of_ready (h : Due final code s) (hs : s.continues = true) {move : Move}
    (hd : (resting s true (.waiting .start)).move? move = some d) :
    Nearer final code d (movesFrom s) := by
  rcases move_resting hd with hd | hd
  · cases hd
  · obtain rfl : inCycle s .checking .checking .checking .checking .checking = d :=
      Option.some.inj hd
    refine ⟨_, ?_, .inCycle h hs trivial (.inl rfl) trivial trivial trivial⟩
    have hbudget := Simulation.budget_step hs
    simp only [movesFrom, movesPerCycle, WorkerPoint.left, WorkerPoint.exits, Bool.toNat_true,
      Bool.toNat_false]
    omega

theorem of_passStagesDone (h : c.passStagesDone = some d) :
    c.fetch = .waiting stagesDone ∧ c.decode = .waiting stagesDone ∧
    c.execute = .waiting stagesDone ∧ c.memory = .waiting stagesDone ∧
    c.write = .waiting stagesDone ∧
    d = { resting c.machine c.running (.waiting decoded) with decode := .reading } := by
  unfold passStagesDone at h
  split at h
  · rename_i hall
    simp only [Bool.and_eq_true, decide_eq_true_eq] at hall
    obtain ⟨⟨⟨⟨⟨hf, he⟩, hx⟩, hm⟩, hw⟩, -⟩ := hall
    exact ⟨hf, he, hx, hm, hw, (Option.some.inj h).symm⟩
  · cases h

theorem of_passDecoded (h : c.passDecoded = some d) :
    c.decode = .waiting decoded ∧ c.driver = .waiting decoded ∧
    d = { c with decode := .waiting .start, driver := .inspecting } := by
  unfold passDecoded at h
  split at h
  · rename_i hall
    simp only [Bool.and_eq_true, decide_eq_true_eq] at hall
    exact ⟨hall.1, hall.2, (Option.some.inj h).symm⟩
  · cases h

theorem nearer_of_inCycle (h : Due final code s) (hs : s.continues = true)
    (hf : f.Does stagesDone s.fetchWork (some s.fetched))
    (he : e = .checking ∨ e = .waiting stagesDone)
    (hx : x.Does stagesDone s.outputs.execute (some s.executed.1))
    (hm : m.Does stagesDone s.outputs.memory (some s.accessed.1))
    (hw : w.Does stagesDone s.outputs.write none) {move : Move}
    (hd : (inCycle s f e x m w).move? move = some d) :
    Nearer final code d (f.left true + e.exits + x.left true + m.left true + w.left false + 8 +
      movesFrom s.step) := by
  cases move with
  | fetch =>
    obtain ⟨f', rfl, hf', -, hlt⟩ := hf.next_map true rfl
      ((moveFetch_inCycle h.code hf).symm.trans hd)
    exact ⟨_, by omega, .inCycle h hs hf' he hx hm hw⟩
  | execute =>
    obtain ⟨x', rfl, hx', -, hlt⟩ := hx.next_map true rfl ((moveExecute_inCycle hx).symm.trans hd)
    exact ⟨_, by omega, .inCycle h hs hf he hx' hm hw⟩
  | memory =>
    obtain ⟨m', rfl, hm', -, hlt⟩ := hm.next_map true rfl ((moveMemory_inCycle hm).symm.trans hd)
    exact ⟨_, by omega, .inCycle h hs hf he hx hm' hw⟩
  | write =>
    obtain ⟨w', rfl, hw', -, hlt⟩ := hw.next_map false rfl ((moveWrite_inCycle hw).symm.trans hd)
    exact ⟨_, by omega, .inCycle h hs hf he hx hm hw'⟩
  | decode =>
    rcases he with rfl | rfl
    · obtain rfl : inCycle s f (.waiting stagesDone) x m w = d := Option.some.inj hd
      refine ⟨_, ?_, .inCycle h hs hf (.inr rfl) hx hm hw⟩
      simp only [WorkerPoint.exits]
      omega
    · cases hd
  | driver => cases hd
  | pass b =>
    cases b with
    | start =>
      have hnone : (inCycle s f e x m w).passStart = none := ite_self none
      cases hnone.symm.trans hd
    | stagesDone =>
      obtain ⟨hf', he', hx', hm', hw', rfl⟩ := of_passStagesDone hd
      change f = _ at hf'
      change e = _ at he'
      change x = _ at hx'
      change m = _ at hm'
      change w = _ at hw'
      subst hf' he' hx' hm' hw'
      have hnext : Stands final code (Crew.decoding s .reading) _ := .decoding h hs trivial nofun
      refine ⟨_, ?_, hnext⟩
      simp only [WorkerPoint.left, WorkerPoint.exits, Bool.toNat_true]
      omega
    | decoded =>
      obtain ⟨-, hdriver, -⟩ := of_passDecoded hd
      cases hdriver

theorem nearer_of_decoding (h : Due final code s) (hs : s.continues = true)
    (he : e.Does decoded (s.outputs.decode, s.supplied) (some s.decoded)) (hne : e ≠ .checking)
    {move : Move} (hd : (decoding s e).move? move = some d) :
    Nearer final code d (e.left true + 4 + movesFrom s.step) := by
  cases move with
  | decode =>
    obtain ⟨e', rfl, he', hne', hlt⟩ :=
      he.next_map true rfl ((moveDecode_decoding he hne).symm.trans hd)
    exact ⟨_, by omega, .decoding h hs he' hne'⟩
  | pass b =>
    cases b with
    | start =>
      have hnone : (decoding s e).passStart = none := ite_self none
      cases hnone.symm.trans hd
    | stagesDone =>
      obtain ⟨hfetch, -⟩ := of_passStagesDone hd
      cases hfetch
    | decoded =>
      obtain ⟨he', -, rfl⟩ := of_passDecoded hd
      change e = _ at he'
      subst he'
      have hnext : Stands final code (resting s.stages true .inspecting) _ := .inspecting h hs
      rw [s.stages_eq_put] at hnext
      refine ⟨_, ?_, hnext⟩
      simp only [WorkerPoint.left]
      omega
  | fetch => cases hd
  | execute => cases hd
  | memory => cases hd
  | write => cases hd
  | driver => cases hd

theorem nearer_of_deciding (h : Due final code s) {move : Move}
    (hd : (resting s true .deciding).move? move = some d) :
    Nearer final code d (1 + movesFrom s) := by
  rcases move_resting hd with hd | hd
  · obtain rfl : resting s true (if s.continues then .waiting .start else .stopping) = d :=
      Option.some.inj hd
    cases hs : s.continues with
    | true => exact ⟨_, Nat.lt_add_of_pos_left Nat.zero_lt_one, .ready h hs⟩
    | false =>
      have hfinal : s = final := by
        rw [← h.final, Simulation.runSerially_of_not_continues hs]
      subst hfinal
      refine ⟨movesAtEnd, ?_, .stopping⟩
      rw [movesFrom]
      omega
  · cases hd

theorem nearer_of_closing (hf : f.Quits) (he : e.Quits) (hx : x.Quits) (hm : m.Quits)
    (hw : w.Quits) {move : Move} (hd : (closing final f e x m w).move? move = some d) :
    Nearer final code d (f.exits + e.exits + x.exits + m.exits + w.exits) := by
  cases move with
  | fetch =>
    rcases hf with rfl | rfl
    · obtain rfl : closing final .gone e x m w = d := Option.some.inj hd
      exact ⟨_, by simp only [WorkerPoint.exits]; omega, .closing (.inr rfl) he hx hm hw⟩
    · cases hd
  | decode =>
    rcases he with rfl | rfl
    · obtain rfl : closing final f .gone x m w = d := Option.some.inj hd
      exact ⟨_, by simp only [WorkerPoint.exits]; omega, .closing hf (.inr rfl) hx hm hw⟩
    · cases hd
  | execute =>
    rcases hx with rfl | rfl
    · obtain rfl : closing final f e .gone m w = d := Option.some.inj hd
      exact ⟨_, by simp only [WorkerPoint.exits]; omega, .closing hf he (.inr rfl) hm hw⟩
    · cases hd
  | memory =>
    rcases hm with rfl | rfl
    · obtain rfl : closing final f e x .gone w = d := Option.some.inj hd
      exact ⟨_, by simp only [WorkerPoint.exits]; omega, .closing hf he hx (.inr rfl) hw⟩
    · cases hd
  | write =>
    rcases hw with rfl | rfl
    · obtain rfl : closing final f e x m .gone = d := Option.some.inj hd
      exact ⟨_, by simp only [WorkerPoint.exits]; omega, .closing hf he hx hm (.inr rfl)⟩
    · cases hd
  | driver => cases hd
  | pass b =>
    cases b with
    | start =>
      have hnone : (closing final f e x m w).passStart = none := ite_self none
      cases hnone.symm.trans hd
    | stagesDone =>
      obtain ⟨hfetch, -⟩ := of_passStagesDone hd
      change f = _ at hfetch
      rcases hf with rfl | rfl <;> cases hfetch
    | decoded =>
      obtain ⟨-, hdriver, -⟩ := of_passDecoded hd
      cases hdriver

/-- Every move is a move towards the end. -/
theorem Stands.move (h : Stands final code c k) {move : Move} (hd : c.move? move = some d) :
    Nearer final code d k := by
  cases h with
  | ready h hs => exact nearer_of_ready h hs hd
  | inCycle h hs hf he hx hm hw => exact nearer_of_inCycle h hs hf he hx hm hw hd
  | decoding h hs he hne => exact nearer_of_decoding h hs he hne hd
  | inspecting h hs =>
    rcases move_resting hd with hd | hd
    · obtain rfl := Option.some.inj hd
      exact ⟨_, Nat.add_lt_add_right (by decide) _, .finishing h hs⟩
    · cases hd
  | finishing h hs =>
    rcases move_resting hd with hd | hd
    · obtain rfl := Option.some.inj hd
      exact ⟨_, Nat.add_lt_add_right (by decide) _, .deciding (h.step hs)⟩
    · cases hd
  | deciding h => exact nearer_of_deciding h hd
  | stopping =>
    rcases move_resting hd with hd | hd
    · obtain rfl := Option.some.inj hd
      exact ⟨_, by decide, .leaving⟩
    · cases hd
  | leaving =>
    rcases move_resting hd with hd | hd
    · cases hd
    · obtain rfl := Option.some.inj hd
      exact ⟨_, by decide, .closing (.inl rfl) (.inl rfl) (.inl rfl) (.inl rfl) (.inl rfl)⟩
  | closing hf he hx hm hw => exact nearer_of_closing hf he hx hm hw hd

/-- Until everybody is gone, somebody can move. -/
theorem Stands.exists_move (h : Stands final code c k) :
    c.allGone = true ∨ ∃ move d, c.move? move = some d := by
  cases h with
  | ready h hs => exact .inr ⟨.pass .start, _, rfl⟩
  | inCycle h hs hf he hx hm hw =>
    refine .inr ?_
    -- the first worker that does not wait yet can move; if all of them wait, the barrier opens
    rcases hf.next_or with ⟨f', hf'⟩ | rfl
    · exact ⟨.fetch, _, (moveFetch_inCycle h.code hf).trans (congrArg _ hf')⟩
    rcases hx.next_or with ⟨x', hx'⟩ | rfl
    · exact ⟨.execute, _, (moveExecute_inCycle hx).trans (congrArg _ hx')⟩
    rcases hm.next_or with ⟨m', hm'⟩ | rfl
    · exact ⟨.memory, _, (moveMemory_inCycle hm).trans (congrArg _ hm')⟩
    rcases hw.next_or with ⟨w', hw'⟩ | rfl
    · exact ⟨.write, _, (moveWrite_inCycle hw).trans (congrArg _ hw')⟩
    rcases he with rfl | rfl
    · exact ⟨.decode, _, rfl⟩
    · exact ⟨.pass stagesDone, _, rfl⟩
  | decoding h hs he hne =>
    refine .inr ?_
    rcases he.next_or with ⟨e', he'⟩ | rfl
    · exact ⟨.decode, _, (moveDecode_decoding he hne).trans (congrArg _ he')⟩
    · exact ⟨.pass decoded, _, rfl⟩
  | inspecting h hs => exact .inr ⟨.driver, _, rfl⟩
  | finishing h hs => exact .inr ⟨.driver, _, rfl⟩
  | deciding h => exact .inr ⟨.driver, _, rfl⟩
  | stopping => exact .inr ⟨.driver, _, rfl⟩
  | leaving => exact .inr ⟨.pass .start, _, rfl⟩
  | closing hf he hx hm hw =>
    rcases hf with rfl | rfl
    · exact .inr ⟨.fetch, _, rfl⟩
    rcases he with rfl | rfl
    · exact .inr ⟨.decode, _, rfl⟩
    rcases hx with rfl | rfl
    · exact .inr ⟨.execute, _, rfl⟩
    rcases hm with rfl | rfl
    · exact .inr ⟨.memory, _, rfl⟩
    rcases hw with rfl | rfl
    · exact .inr ⟨.write, _, rfl⟩
    · exact .inl rfl

theorem Stands.machine_eq (h : Stands final code c k) (hgone : c.allGone = true) :
    c.machine = final := by
  have hdriver : c.driver = .gone := by
    rw [allGone, Bool.and_eq_true] at hgone
    exact of_decide_eq_true hgone.2
  cases h with
  | closing => rfl
  | _ => cases hdriver

/-! ## Schedules -/

/-- The crew after some moves, if each of them is possible when it is its turn. -/
def follow : Crew → List Move → Option Crew
  | c, [] => some c
  | c, move :: moves => (c.move? move).bind fun d => d.follow moves

theorem Stands.follow {moves : List Move} (h : Stands final code c k)
    (hd : c.follow moves = some d) : ∃ j, j + moves.length ≤ k ∧ Stands final code d j := by
  induction moves generalizing c k with
  | nil =>
    obtain rfl := Option.some.inj hd
    exact ⟨k, Nat.le_refl _, h⟩
  | cons move moves ih =>
    obtain ⟨c', hc', hd⟩ := Option.bind_eq_some_iff.mp hd
    obtain ⟨i, hi, hstands⟩ := h.move hc'
    obtain ⟨j, hj, hstands'⟩ := ih hstands hd
    refine ⟨j, ?_, hstands'⟩
    rw [List.length_cons]
    omega

/-- With enough moves the first thread that can move brings the crew to its end. -/
theorem Stands.runFor {n : Nat} (h : Stands final code c k) (hk : k ≤ n) :
    (runFor n c).machine = final := by
  induction n generalizing c k with
  | zero =>
    obtain rfl := Nat.le_zero.mp hk
    rcases h.exists_move with hgone | ⟨move, d, hd⟩
    · exact h.machine_eq hgone
    · obtain ⟨j, hj, -⟩ := h.move hd
      exact absurd hj (Nat.not_lt_zero j)
  | succ n ih =>
    rw [Crew.runFor]
    cases hfirst : Move.all.findSome? c.move? with
    | none =>
      rw [List.findSome?_eq_none_iff] at hfirst
      rcases h.exists_move with hgone | ⟨move, d, hd⟩
      · exact h.machine_eq hgone
      · rw [hfirst move move.mem_all] at hd
        cases hd
    | some d =>
      obtain ⟨move, -, hd⟩ := List.exists_of_findSome?_eq_some hfirst
      obtain ⟨j, hj, hstands⟩ := h.move hd
      exact ih hstands (by omega)

end Crew

namespace Simulation

/-- Threads do what the serial driver does. No schedule gets stuck before all threads are gone, none
goes on for ever, and whatever the schedule, the machine is in the end the one that a serial run
leaves. -/
theorem threads_agree (entry : Word) (m : Memory) (map : SegmentMap) (g : Option Geometry)
    (backend : Backend) (limit : Nat) (hcode : map.ProtectsCode) (n : Nat) :
    let s := (start entry (Bus.start m map g) backend limit).steps n
    (s.continues = true → ∀ moves c, (Crew.start s).follow moves = some c →
      moves.length ≤ Crew.movesPerCycle * s.budget + Crew.movesAtEnd ∧
      (c.allGone = false → ∃ move d, c.move? move = some d) ∧
      (c.allGone = true → c.machine = s.runSerially)) ∧
    s.runInThreads = s.runSerially := by
  intro s
  have hkeeps : s.bus.KeepsCode m := keepsCode_steps (Bus.keepsCode_start hcode m g) n
  refine ⟨fun hs moves c hc => ?_, ?_⟩
  · obtain ⟨j, hj, hstands⟩ := (Crew.stands_start hs hkeeps).follow hc
    refine ⟨Nat.le_trans (Nat.le_add_left _ _) hj, fun hgone => ?_, hstands.machine_eq⟩
    rcases hstands.exists_move with h | h
    · rw [hgone] at h
      cases h
    · exact h
  · rw [runInThreads]
    cases hs : s.continues with
    | true => exact (Crew.stands_start hs hkeeps).runFor (Nat.le_refl _)
    | false => exact (runSerially_of_not_continues hs).symm

/-- Two cycles into a load from the top of the stack and a halt, with a cache. -/
theorem threads_agree_load :
    let g : Geometry := ⟨1, 3, 0, 3, by decide, by decide, by decide⟩
    let m := Memory.empty.setWord textStart 0xD4400000F84003E0
    let s := (start textStart (Bus.start m .default (some g)) .parallel 500).steps 2
    s.continues = true ∧ s.runInThreads = s.runSerially ∧
    ∀ moves c, (Crew.start s).follow moves = some c → c.allGone = true →
      c.machine = s.runSerially := by
  intro g m s
  have hs : s.continues = true := by decide +kernel
  obtain ⟨hall, hrun⟩ := threads_agree textStart m .default (some g) .parallel 500
    SegmentMap.protectsCode_default 2
  exact ⟨hs, hrun, fun moves c hc => (hall hs moves c hc).2.2⟩

end Simulation

end FiveStage
