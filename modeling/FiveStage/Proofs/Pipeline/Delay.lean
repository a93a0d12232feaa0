import FiveStage.Proofs.Pipeline.Forwarded
import FiveStage.Proofs.Pipeline.Twins

/-!
# A cache only delays

Two machines run the same program, `u` without a cache and `c` with one.

* `Outputs.Wired`, `Outputs.Settled` : what holds of the pipeline registers in every state;
* `Simulation.Abreast` : the two machines are in the same state;
* `Simulation.Trails` : `c` is in the middle of a cycle of `u`: it has retired what `u` is about to
  retire, and may be waiting for a miss;
* `Simulation.Trails.wait`, `Simulation.Trails.catchUp` : one cycle of `c`;
* `Simulation.Trails.WaitsOut` : the cycles of `c` until it has caught up;
* `Simulation.cache_only_delays` : whatever `u` does, `c` does some cycles later.
-/

namespace FiveStage

/-! ## Hazards -/

/-- Of what is retired, the hazard unit sees only whether it ends the run. -/
theorem HazardInputs.control_retire (i : HazardInputs) {t : Status}
    (ht : t.isTerminal = i.statuses.write.isTerminal) :
    ({ i with statuses.write := t } : HazardInputs).control = i.control ∧
      ({ i with statuses.write := t } : HazardInputs).detect = i.detect := by
  refine ⟨?_, rfl⟩
  have hdetect : ({ i with statuses.write := t } : HazardInputs).detect = i.detect := rfl
  have hfaulted : ({ i with statuses.write := t } : HazardInputs).faulted = i.faulted := by
    simp only [faulted, hdetect, ht]
  simp only [control, hdetect, hfaulted]

/-- While a miss is waited for, only what is in writeback moves on. -/
theorem Outputs.next_of_flight {o staged : Outputs} {i : HazardInputs}
    (hf : i.missInFlight = true) (hw : i.statuses.write.isTerminal = false) :
    o.next staged i.control = { o with write := {} } := by
  have hflight : i.detect.missInFlight = true := hf
  have hbad : i.faulted.write = false := hw
  simp only [next, Request.pick, HazardInputs.control, hflight, hbad, Bool.or_true, Bool.not_true,
    Bool.and_false, if_true]
  rfl

/-! ## What holds of the registers -/

namespace Outputs

/-- What goes to writeback is wired, all the way from decode. -/
structure Wired (o : Outputs) : Prop where
  decode : o.decode.status = .bubble → o.decode.opcode = .nop
  execute : o.execute.writeSignals.Wired o.execute.dst o.execute.status
  memory : o.memory.writeSignals.Wired o.memory.dst o.memory.status
  write : o.write.writeSignals.Wired o.write.dst o.write.status

theorem wired_start (entry : Word) : (Pipeline.start entry).outputs.Wired :=
  ⟨fun _ => rfl, WriteSignals.wired_bubble, WriteSignals.wired_bubble, WriteSignals.wired_bubble⟩

theorem Wired.next {o staged : Outputs} (h : o.Wired) (hs : staged.Wired)
    (r : PerStage Request) : (o.next staged r).Wired := by
  have hbubble := WriteSignals.wired_bubble
  exact
    { decode := Request.pick_of (P := fun d : DecodeSlot => d.status = .bubble → d.opcode = .nop)
        r.decode h.decode hs.decode fun _ => rfl
      execute := Request.pick_of
        (P := fun x : ExecuteSlot => x.writeSignals.Wired x.dst x.status)
        r.execute h.execute hs.execute hbubble
      memory := Request.pick_of (P := fun m : MemorySlot => m.writeSignals.Wired m.dst m.status)
        r.memory h.memory hs.memory hbubble
      write := Request.pick_of (P := fun w : WriteSlot => w.writeSignals.Wired w.dst w.status)
        r.write h.write hs.write hbubble }

/-- Behind the end of a run, memory holds what has ended it. -/
def Settled (o : Outputs) (b : Bus) : Prop :=
  o.write.status.isTerminal = true → (memoryStage o.memory b).1.status.isTerminal = true

end Outputs

theorem opcode_fetchStage {f : FetchSlot} {x : ExecuteSlot} {m : MemorySlot} {b : Bus}
    (h : (fetchStage f x m b).2.status = .bubble) : (fetchStage f x m b).2.opcode = .nop := by
  unfold fetchStage at h
  simp only at h
  split at h
  · cases h
  · have h : (fetchedWord b (selectPc f x m)).2.initialStatus = .bubble := h
    rcases Opcode.initialStatus_cases (fetchedWord b (selectPc f x m)).2 with h' | h'
    · rw [h'] at h
      cases h
    · rw [h] at h'
      cases h'

/-- A status with bubbles counted as well. -/
def Status.settled : Status → Status
  | .bubble => .ok
  | t => t

theorem Status.eq_of_settled {t t' : Status} (h : t.settled = t'.settled)
    (ht : t'.isTerminal = true) : t = t' := by
  revert h ht
  cases t <;> cases t' <;> decide

namespace Simulation

variable {s u c : Simulation} {code : Memory} {g : Geometry}

theorem wired_staged (h : s.outputs.Wired) : s.staged.Wired where
  decode := opcode_fetchStage
  execute := wired_decodeStage h.decode _ _
  memory := (executeStage_passes _ _).wired h.execute
  write := (memoryStage_passes _ _).wired h.memory

/-- What is in writeback is in the registers after it, unless it ends the run. -/
theorem redundant_write (h : s.outputs.Wired) (hw : s.outputs.write.status.isTerminal = false) :
    s.supplied.write.Redundant s.retiredTo := by
  by_cases hs : s.outputs.write.status = .ok
  · exact WriteSlot.redundant_producer h.write hs _
  · refine Producer.redundant_of_disabled (h.write.bubble ?_) _
    cases hstatus : s.outputs.write.status <;> rw [hstatus] at hs hw <;>
      first | rfl | exact absurd rfl hs | cases hw

theorem settled_step (ho : s.step.outputs = s.outputs.next s.staged s.hazards.control)
    (hf : s.hazards.missInFlight = false) (h : s.outputs.Settled s.bus) :
    s.step.outputs.Settled s.step.bus := by
  intro hw
  have hstatus : ∀ m, (memoryStage m s.step.bus).1.status = (memoryStage m s.bus).1.status :=
    fun m => Bus.status_memoryStage (Bus.segments_memoryStage _ _) m
  rw [hstatus]
  -- whatever is in writeback now has been in memory in the last cycle, or in writeback already
  have hfault : s.hazards.faulted.memory = true := by
    change (s.accessed.1.status.isTerminal || s.outputs.write.status.isTerminal) = true
    cases hb : s.outputs.write.status.isTerminal with
    | true => exact Bool.or_true _
    | false =>
      rw [ho, Outputs.next_write hf hb] at hw
      rw [Bool.or_false]
      exact hw
  rw [ho, Outputs.next_memory_of_faulted hfault]
  have hfault' : (s.accessed.1.status.isTerminal || s.outputs.write.status.isTerminal) = true :=
    hfault
  rcases Bool.or_eq_true _ _ ▸ hfault' with ha | hb
  · exact ha
  · exact h hb

/-! ## Two machines -/

/-- The machine `c` is about to end a cycle as `u` is: it may have retired already what `u` is about
to retire, and waits for a miss then. -/
structure Trails (u c : Simulation) (code : Memory) (g : Geometry) (pending : Option Miss) :
    Prop where
  healthy : u.Healthy
  healthyCached : c.Healthy
  fetch : c.outputs.fetch = u.outputs.fetch
  decode : c.outputs.decode = u.outputs.decode
  execute : c.outputs.execute = u.outputs.execute
  memory : c.outputs.memory = u.outputs.memory
  write : c.outputs.write = u.outputs.write ∨
    c.outputs.write = {} ∧ u.outputs.write.status.isTerminal = false
  retiredTo : c.retiredTo = u.retiredTo
  executed : c.executed = u.executed
  retired : c.step.counters.retired = u.step.counters.retired
  cycles : c.counters.cycles = u.counters.cycles + c.counters.missStalls
  twins : c.bus.Twins u.bus code
  clock : c.bus.Clocked g c.counters.missStalls pending
  asked : ∀ miss, pending = some miss → Bus.AskedFor c.bus.segments c.outputs.memory miss
  settled : u.outputs.Settled u.bus
  wired : u.outputs.Wired

/-- The two machines are in the same state, but for what the cache is for. -/
structure Abreast (u c : Simulation) (code : Memory) (g : Geometry) : Prop where
  pc : c.core.pc = u.core.pc
  registers : c.core.registers = u.core.registers
  flags : c.core.flags = u.core.flags
  status : c.core.status.settled = u.core.status.settled
  outputs : c.outputs = u.outputs
  retired : c.counters.retired = u.counters.retired
  trails : u.Trails c code g none

namespace Trails

variable {pending : Option Miss}

theorem terminal_eq (h : u.Trails c code g pending) :
    c.outputs.write.status.isTerminal = u.outputs.write.status.isTerminal := by
  rcases h.write with hw | ⟨hw, hu⟩
  · rw [hw]
  · rw [hw, hu]
    rfl

theorem settled_eq (h : u.Trails c code g pending) :
    c.outputs.write.status.settled = u.outputs.write.status.settled := by
  rcases h.write with hw | ⟨hw, hu⟩
  · rw [hw]
  · rw [hw]
    cases hs : u.outputs.write.status <;> rw [hs] at hu <;> first | rfl | cases hu

theorem not_terminal (h : u.Trails c code g pending) (hw : c.bus.Waits c.outputs.memory) :
    c.outputs.write.status.isTerminal = false := by
  rw [h.terminal_eq, Bool.eq_false_iff]
  intro hterm
  have hstopped := h.settled hterm
  rw [← Bus.status_memoryStage h.twins.segments, ← h.memory, hw.status_memoryStage] at hstopped
  cases hstopped

/-- Decode reads the same, whether from a register or from writeback. -/
theorem decoded_eq (h : u.Trails c code g pending) (haccessed : c.accessed.1 = u.accessed.1) :
    c.decoded = u.decoded := by
  have hexecute : c.supplied.execute = u.supplied.execute := by
    change Producer.mk _ _ c.executed.1.result = Producer.mk _ _ u.executed.1.result
    rw [h.execute, h.executed]
  have hmemory : c.supplied.memory = u.supplied.memory := by
    change Producer.mk _ _ (if _ then c.accessed.1.loaded else _) =
      Producer.mk _ _ (if _ then u.accessed.1.loaded else _)
    rw [h.memory, haccessed]
  rw [Simulation.decoded, Simulation.decoded, h.decode, h.retiredTo]
  rcases h.write with hw | ⟨hw, hu⟩
  · have hsupplied : c.supplied = u.supplied := by
      have hwrite : c.supplied.write = u.supplied.write := by
        change WriteSlot.producer _ = WriteSlot.producer _
        rw [hw]
      calc c.supplied = ⟨c.supplied.execute, c.supplied.memory, c.supplied.write⟩ := rfl
        _ = u.supplied := by rw [hexecute, hmemory, hwrite]
    rw [hsupplied]
  · -- what `u` forwards from writeback is in the registers already
    have hredundant := redundant_write h.wired hu
    have hidle : c.supplied.write.Redundant u.retiredTo := by
      refine Producer.redundant_of_disabled ?_ _
      change c.outputs.write.writeSignals.enable = false
      rw [hw]
    refine decodeStage_eq fun r _ => ?_
    rw [Producers.forward_of_redundant hredundant, Producers.forward_of_redundant hidle,
      hexecute, hmemory]

/-- What the stages yield is the same, once memory does not wait. -/
theorem staged_eq (h : u.Trails c code g pending) (hdone : ¬ c.bus.Waits c.outputs.memory) :
    c.staged = u.staged ∧ c.accessed.2.Twins u.accessed.2 code := by
  obtain ⟨haccessed, htwins⟩ := h.twins.memoryStage hdone
  rw [h.memory] at haccessed htwins
  have haccessed' : c.accessed.1 = u.accessed.1 := by
    rw [Simulation.accessed, h.memory]
    exact haccessed
  have htwins' : c.accessed.2.Twins u.accessed.2 code := by
    rw [Simulation.accessed, h.memory]
    exact htwins
  have hfetched : c.fetched = u.fetched := by
    have hword : ∀ pc, fetchedWord c.accessed.2 pc = fetchedWord u.accessed.2 pc := fun pc => by
      rw [htwins'.keeps.fetchedWord, htwins'.keepsPlain.fetchedWord, htwins'.segments]
    rw [Simulation.fetched, Simulation.fetched, h.fetch, h.execute, h.memory]
    simp only [fetchStage, hword]
  have hdecoded := h.decoded_eq haccessed'
  refine ⟨?_, htwins'⟩
  rw [staged, staged, hfetched, hdecoded, h.executed, haccessed']

theorem step_of_waits (h : u.Trails c code g pending) (hw : c.bus.Waits c.outputs.memory)
    {stalls : Nat} {miss : Miss} (hclock : c.accessed.2.Clocked g stalls (some miss)) :
    c.step.Healthy ∧ c.step.outputs = { c.outputs with write := {} } ∧
    c.step.counters.missStalls = c.counters.missStalls + 1 := by
  have hterm := h.not_terminal hw
  have hflight : c.hazards.missInFlight = true := hclock.missInFlight
  refine ⟨healthy_step h.healthyCached fun _ => hterm, ?_, ?_⟩
  · rw [outputs_step h.healthyCached fun _ => hterm, Outputs.next_of_flight hflight hterm]
  · change c.counters.missStalls + c.hazards.detect.missInFlight.toNat = _
    rw [show c.hazards.detect.missInFlight = true from hflight]
    rfl

/-- A cycle of waiting. Everything in front of writeback is done again, with the same outcome. -/
theorem trails_of_waits (h : u.Trails c code g pending) (hw : c.bus.Waits c.outputs.memory)
    {miss : Miss} (hasked : Bus.AskedFor c.bus.segments c.outputs.memory miss)
    (hclock : c.accessed.2.Clocked g (c.counters.missStalls + 1) (some miss)) :
    u.Trails c.step code g (some miss) := by
  obtain ⟨hhealthy, ho, hstalls⟩ := h.step_of_waits hw hclock
  refine
    { healthy := h.healthy
      healthyCached := hhealthy
      fetch := by rw [ho, ← h.fetch]
      decode := by rw [ho, ← h.decode]
      execute := by rw [ho, ← h.execute]
      memory := by rw [ho, ← h.memory]
      write := .inr ⟨by rw [ho], h.terminal_eq.symm.trans (h.not_terminal hw)⟩
      retiredTo := ?_
      executed := ?_
      retired := ?_
      cycles := ?_
      twins := h.twins.memoryStage_of_waits hw
      clock := by rw [hstalls]; exact hclock
      asked := ?_
      settled := h.settled
      wired := h.wired }
  · rw [Simulation.retiredTo, ho, writeStage_of_ne_ok (by nofun), registers_step, h.retiredTo]
  · rw [Simulation.executed, ho, flags_step]
    exact (executeStage_again _ _).trans h.executed
  · rw [counters_step, ho]
    exact h.retired
  · rw [hstalls, cycles_step, h.cycles, Nat.add_assoc]
  · rintro _ ⟨⟩
    rw [ho, bus_step, accessed, Bus.segments_memoryStage]
    exact hasked

/-- While a miss is in flight, each cycle brings its end nearer. -/
theorem wait (h : u.Trails c code g pending) (hw : c.bus.Waits c.outputs.memory) :
    ∃ miss, u.Trails c.step code g (some miss) ∧
      ∀ before, pending = some before → miss.remaining < before.remaining := by
  have hsound := h.twins.mirrors.sound
  cases pending with
  | none =>
    obtain ⟨miss, hasked, hclock⟩ := (Bus.clocked_fresh hsound h.clock c.outputs.memory).1 hw
    exact ⟨miss, h.trails_of_waits hw hasked hclock, nofun⟩
  | some before =>
    have hasked := h.asked before rfl
    obtain ⟨hlt, hclock⟩ := (Bus.clocked_again hsound h.clock hasked).1 hw
    refine ⟨_, h.trails_of_waits hw ?_ hclock, ?_⟩
    · exact ⟨hasked.kind, hasked.address, hasked.past, hasked.admitted, Nat.sub_pos_of_lt hlt⟩
    · rintro _ ⟨⟩
      exact Nat.sub_lt (Nat.lt_of_succ_lt hlt) Nat.one_pos

theorem clocked_of_done (h : u.Trails c code g pending) (hdone : ¬ c.bus.Waits c.outputs.memory) :
    c.accessed.2.Clocked g c.counters.missStalls none := by
  have hsound := h.twins.mirrors.sound
  cases pending with
  | none => exact (Bus.clocked_fresh hsound h.clock c.outputs.memory).2 hdone
  | some before => exact (Bus.clocked_again hsound h.clock (h.asked before rfl)).2 hdone

/-- Two machines that show the same are ready for the same cycle. -/
theorem of_outputs_eq (healthy : u.Healthy) (healthyCached : c.Healthy)
    (outputs : c.outputs = u.outputs) (registers : c.core.registers = u.core.registers)
    (flags : c.core.flags = u.core.flags) (retired : c.counters.retired = u.counters.retired)
    (cycles : c.counters.cycles = u.counters.cycles + c.counters.missStalls)
    (twins : c.bus.Twins u.bus code) (clock : c.bus.Clocked g c.counters.missStalls none)
    (settled : u.outputs.Settled u.bus) (wired : u.outputs.Wired) : u.Trails c code g none where
  healthy := healthy
  healthyCached := healthyCached
  fetch := by rw [outputs]
  decode := by rw [outputs]
  execute := by rw [outputs]
  memory := by rw [outputs]
  write := .inl (by rw [outputs])
  retiredTo := by rw [Simulation.retiredTo, outputs, registers, Simulation.retiredTo]
  executed := by rw [Simulation.executed, outputs, flags, Simulation.executed]
  retired := by
    rw [counters_step, counters_step]
    simp only [RunCounters.count, outputs, retired]
  cycles := cycles
  twins := twins
  clock := clock
  asked := nofun
  settled := settled
  wired := wired

/-- Both hazard units see the same, but for what is retired. -/
theorem hazards_eq (h : u.Trails c code g pending) (hstaged : c.staged = u.staged)
    (hplain : u.accessed.2.missInFlight = false) (hflight : c.accessed.2.missInFlight = false) :
    c.hazards = { u.hazards with statuses.write := c.outputs.write.status } := by
  rw [Simulation.hazards, Simulation.hazards, Outputs.hazards, Outputs.hazards, h.decode,
    h.execute, hstaged, hflight, hplain]

/-- Both machines ask their registers for the same, and these show the same then. -/
theorem next_eq (h : u.Trails c code g pending) (hstaged : c.staged = u.staged)
    (hplain : u.accessed.2.missInFlight = false) (hflight : c.accessed.2.missInFlight = false) :
    c.outputs.next c.staged c.hazards.control = u.outputs.next u.staged u.hazards.control := by
  have hhazards := h.hazards_eq hstaged hplain hflight
  obtain ⟨hcontrol, -⟩ := u.hazards.control_retire h.terminal_eq
  have hwrite : (c.outputs.next c.staged c.hazards.control).write =
      (u.outputs.next u.staged u.hazards.control).write := by
    rcases h.write with hw | ⟨-, hw⟩
    · rw [hhazards, hcontrol, hstaged]
      simp only [Outputs.next, hw]
    · -- what `u` retires now is gone from `c`: in both, writeback takes over what memory yields
      have hb : u.hazards.faulted.write = false := hw
      have hb' : c.hazards.faulted.write = false := h.terminal_eq.trans hw
      rw [Outputs.next_write hplain hb, Outputs.next_write hflight hb', hstaged]
  rw [hhazards, hcontrol, hstaged] at hwrite ⊢
  simp only [Outputs.next, h.fetch, h.decode, h.execute, h.memory, Outputs.mk.injEq, true_and]
    at hwrite ⊢
  exact hwrite

theorem calm_of_done (h : u.Trails c code g pending) (hdone : ¬ c.bus.Waits c.outputs.memory) :
    u.accessed.2.missInFlight = false ∧ c.accessed.2.missInFlight = false := by
  obtain ⟨-, htwins⟩ := h.staged_eq hdone
  refine ⟨?_, (h.clocked_of_done hdone).missInFlight⟩
  rw [Bus.missInFlight, htwins.plain]
  rfl

/-- In a cycle in which memory does not wait, both machines meet the same hazards. -/
theorem detect_eq (h : u.Trails c code g pending) (hdone : ¬ c.bus.Waits c.outputs.memory) :
    c.hazards.detect = u.hazards.detect := by
  obtain ⟨hplain, hflight⟩ := h.calm_of_done hdone
  rw [h.hazards_eq (h.staged_eq hdone).1 hplain hflight]
  exact (u.hazards.control_retire h.terminal_eq).2

/-- A cycle in which memory does not wait: both machines end it alike. -/
theorem catchUp (h : u.Trails c code g pending) (hdone : ¬ c.bus.Waits c.outputs.memory) :
    u.step.Abreast c.step code g := by
  obtain ⟨hstaged, htwins⟩ := h.staged_eq hdone
  have hclock := h.clocked_of_done hdone
  obtain ⟨hplain, hflight⟩ := h.calm_of_done hdone
  obtain ⟨hhealthy, hu⟩ := step_of_calm h.healthy hplain
  obtain ⟨hhealthyCached, hc⟩ := step_of_calm h.healthyCached hflight
  have houtputs : c.step.outputs = u.step.outputs := by
    rw [hu, hc, h.next_eq hstaged hplain hflight]
  have hstalls : c.step.counters.missStalls = c.counters.missStalls := by
    change c.counters.missStalls + c.hazards.detect.missInFlight.toNat = _
    rw [show c.hazards.detect.missInFlight = false from hflight]
    rfl
  refine
    { pc := congrArg (fun o : Outputs => o.fetch.predicted) hstaged
      registers := h.retiredTo
      flags := congrArg Prod.snd h.executed
      status := h.settled_eq
      outputs := houtputs
      retired := h.retired
      trails := of_outputs_eq hhealthy hhealthyCached houtputs h.retiredTo
        (congrArg Prod.snd h.executed) h.retired ?_ htwins ?_ ?_ ?_ }
  · rw [hstalls, cycles_step, cycles_step, h.cycles]
    omega
  · rw [hstalls]
    exact hclock
  · exact settled_step hu hplain h.settled
  · rw [hu]
    exact h.wired.next (wired_staged h.wired) _

/-- While memory waits, `c` is not over, and a miss is in flight. -/
theorem running_of_waits (h : u.Trails c code g pending) (hw : c.bus.Waits c.outputs.memory) :
    c.hazards.missInFlight = true ∧ c.step.finished = false := by
  obtain ⟨miss, hnext, -⟩ := h.wait hw
  refine ⟨?_, ?_⟩
  · have hflight := hnext.clock.missInFlight
    rw [bus_step] at hflight
    exact hflight
  · rw [finished, status_step]
    exact h.not_terminal hw

/-- The machine `c` waits for `j` cycles, and for no more. -/
structure WaitsOut (u c : Simulation) (code : Memory) (g : Geometry) (j : Nat) : Prop where
  waiting : ∀ i, i < j → (c.steps i).hazards.missInFlight = true ∧
    (c.steps i).step.finished = false
  done : ∃ last, u.Trails (c.steps j) code g last ∧
    ¬ (c.steps j).bus.Waits (c.steps j).outputs.memory

theorem waitsOut_zero (h : u.Trails c code g pending) (hdone : ¬ c.bus.Waits c.outputs.memory) :
    WaitsOut u c code g 0 :=
  ⟨nofun, pending, h, hdone⟩

theorem waitsOut_succ {j : Nat} (h : u.Trails c code g pending)
    (hw : c.bus.Waits c.outputs.memory) (hnext : WaitsOut u c.step code g j) :
    WaitsOut u c code g (j + 1) := by
  refine ⟨forall_steps (P := fun c => c.hazards.missInFlight = true ∧ c.step.finished = false)
    (h.running_of_waits hw) hnext.waiting, ?_⟩
  rw [steps_succ]
  exact hnext.done

/-- The waiting comes to an end. -/
theorem exists_waitsOut (h : u.Trails c code g pending) : ∃ j, WaitsOut u c code g j := by
  have hflight : ∀ r (c : Simulation) (miss : Miss), u.Trails c code g (some miss) →
      miss.remaining ≤ r → ∃ j, WaitsOut u c code g j := by
    intro r
    induction r with
    | zero =>
      intro c miss h hr
      refine ⟨0, h.waitsOut_zero fun hw => ?_⟩
      obtain ⟨next, -, hlt⟩ := h.wait hw
      exact Nat.not_lt_zero _ (Nat.lt_of_lt_of_le (hlt miss rfl) hr)
    | succ r ih =>
      intro c miss h hr
      by_cases hw : c.bus.Waits c.outputs.memory
      · obtain ⟨next, hnext, hlt⟩ := h.wait hw
        obtain ⟨j, hj⟩ := ih c.step next hnext
          (Nat.le_of_lt_succ (Nat.lt_of_lt_of_le (hlt miss rfl) hr))
        exact ⟨j + 1, h.waitsOut_succ hw hj⟩
      · exact ⟨0, h.waitsOut_zero hw⟩
  by_cases hw : c.bus.Waits c.outputs.memory
  · obtain ⟨miss, hnext, -⟩ := h.wait hw
    obtain ⟨j, hj⟩ := hflight _ c.step miss hnext (Nat.le_refl _)
    exact ⟨j + 1, h.waitsOut_succ hw hj⟩
  · exact ⟨0, h.waitsOut_zero hw⟩

theorem exists_abreast (h : u.Trails c code g pending) :
    ∃ j, u.step.Abreast (c.steps j) code g := by
  obtain ⟨j, -, last, hlast, hdone⟩ := h.exists_waitsOut
  exact ⟨j + 1, hlast.catchUp hdone⟩

end Trails

theorem abreast_start {map : SegmentMap} (hcode : map.ProtectsCode)
    (hspecial : g.AvoidsSpecial map) (entry : Word) (m : Memory) (backend : Backend)
    (limit : Nat) :
    (start entry (Bus.start m map none) backend limit).Abreast
      (start entry (Bus.start m map (some g)) backend limit) m g where
  pc := rfl
  registers := rfl
  flags := rfl
  status := rfl
  outputs := rfl
  retired := rfl
  trails := Trails.of_outputs_eq (healthy_start _ _ _ _) (healthy_start _ _ _ _) rfl rfl rfl rfl
    rfl (Bus.twins_start hcode hspecial m) (Bus.clocked_start m map g) nofun
    (Outputs.wired_start entry)

/-- A cache only delays. Whatever state the machine without a cache comes to, the machine with the
cache comes to it, too, and is late by the latencies of the misses that were counted. -/
theorem cache_only_delays (entry : Word) (m : Memory) (map : SegmentMap) (g : Geometry)
    (backend : Backend) (limit : Nat) (hcode : map.ProtectsCode) (hspecial : g.AvoidsSpecial map)
    (n : Nat) :
    let u := (start entry (Bus.start m map none) backend limit).steps n
    ∃ j, let c := (start entry (Bus.start m map (some g)) backend limit).steps j
      c.core.pc = u.core.pc ∧ c.core.registers = u.core.registers ∧
      c.core.flags = u.core.flags ∧ c.core.status.settled = u.core.status.settled ∧
      c.finished = u.finished ∧ c.outputs = u.outputs ∧
      c.counters.retired = u.counters.retired ∧
      (∀ x, c.bus.coherent.byte x = u.bus.coherent.byte x) ∧
      j = n + c.counters.missStalls ∧
      ∃ counters, c.bus.counters = some counters ∧
        c.counters.missStalls = g.latency * counters.misses := by
  intro u
  -- by induction on the cycles of `u`: each of them is one or several of the machine with a cache
  have habreast : ∃ j, u.Abreast ((start entry (Bus.start m map (some g)) backend limit).steps j)
      m g := by
    induction n with
    | zero => exact ⟨0, abreast_start hcode hspecial entry m backend limit⟩
    | succ n ih =>
      obtain ⟨j, hj⟩ := ih
      obtain ⟨i, hi⟩ := hj.trails.exists_abreast
      exact ⟨j + i, by rw [steps_add]; exact hi⟩
  obtain ⟨j, hj⟩ := habreast
  have hcycles := hj.trails.cycles
  rw [cycles_steps, cycles_steps] at hcycles
  have hcycles : 0 + j = 0 + n + _ := hcycles
  obtain ⟨side, hside, -, -, hstalls⟩ := hj.trails.clock
  refine ⟨j, hj.pc, hj.registers, hj.flags, hj.status, ?_, hj.outputs, hj.retired, fun x => ?_,
    by omega, side.cache.counters, ?_, hstalls⟩
  · have hterm : ∀ t : Status, t.settled.isTerminal = t.isTerminal := fun t => by cases t <;> rfl
    rw [finished, finished, ← hterm, hj.status, hterm]
  · rw [hj.trails.twins.mirrors.coherent, Bus.coherent, hj.trails.twins.plain]
  · rw [Bus.counters, hside]
    rfl

/-- A load from the top of the stack and a halt, with a miss that takes three cycles. -/
theorem cache_only_delays_load :
    let g : Geometry := ⟨1, 3, 0, 3, by decide, by decide, by decide⟩
    let m := Memory.empty.setWord textStart 0xD4400000F84003E0
    let u := (start textStart (Bus.start m .default none) .serial 500).steps 6
    u.finished = true ∧
    ∃ j, let c := (start textStart (Bus.start m .default (some g)) .serial 500).steps j
      c.finished = true ∧ c.outputs = u.outputs ∧ c.core.registers = u.core.registers ∧
      j = 6 + c.counters.missStalls := by
  intro g m u
  have hfin : u.finished = true := by decide +kernel
  obtain ⟨j, -, hregisters, -, -, hfinished, houtputs, -, -, hj, -⟩ :=
    cache_only_delays textStart m .default g .serial 500 SegmentMap.protectsCode_default
      (SegmentMap.avoidsSpecial_default g) 6
  exact ⟨hfin, j, hfinished.trans hfin, houtputs, hregisters, hj⟩

end Simulation

end FiveStage
