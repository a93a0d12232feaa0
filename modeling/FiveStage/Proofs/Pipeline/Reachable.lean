import FiveStage.Proofs.Pipeline.Delay

/-!
# Every state of a run, and what comes after it

* `MemorySlot.Signalled` : a slot loads or stores only if its opcode says so;
* `Bus.InFlightFor`, `Bus.pending_memoryStage` : a miss that is in flight after memory is the one
  that memory waits for;
* `Simulation.Tended` : what holds of every state, `Simulation.tended_steps`;
* `Simulation.miss_of_memory` : no register is in error, and a miss in flight is that of the load
  or store in memory;
* `Outputs.next_of_terminal`, `Simulation.Tended.step_of_terminal` : behind the end of a run, every
  register holds what it has;
* `Simulation.steps_of_finished` : a machine that has stopped stays as it is.
-/

namespace FiveStage

/-! ## Opcodes and what they ask of memory -/

/-- The slot asks of memory what its opcode does. -/
def ExecuteSlot.Signalled (x : ExecuteSlot) : Prop := x.memorySignals = x.opcode.signals.memory

/-- The slot asks of memory what its opcode does. -/
def MemorySlot.Signalled (m : MemorySlot) : Prop := m.memorySignals = m.opcode.signals.memory

theorem MemorySlot.Signalled.of_access {m : MemorySlot} {kind : AccessKind} (h : m.Signalled)
    (hk : m.accessKind? = some kind) :
    m.status = .ok ∧ (m.opcode = .ldur ∧ kind = .read ∨ m.opcode = .stur ∧ kind = .write) := by
  have hload : m.memorySignals.load = decide (m.opcode = .ldur) := by rw [h]; rfl
  have hstore : m.memorySignals.store = decide (m.opcode = .stur) := by rw [h]; rfl
  unfold MemorySlot.accessKind? at hk
  rw [hload, hstore] at hk
  simp only [decide_eq_true_eq] at hk
  split at hk
  · refine ⟨‹_›, ?_⟩
    split at hk
    · cases hk
      exact .inl ⟨‹_›, rfl⟩
    · split at hk
      · cases hk
        exact .inr ⟨‹_›, rfl⟩
      · cases hk
  · cases hk

/-- What is in execute and in memory asks of memory what its opcode does. -/
structure Outputs.Signalled (o : Outputs) : Prop where
  execute : o.execute.Signalled
  memory : o.memory.Signalled

theorem Outputs.signalled_start (entry : Word) : (Pipeline.start entry).outputs.Signalled :=
  ⟨rfl, rfl⟩

theorem Outputs.Signalled.next {o staged : Outputs} (h : o.Signalled) (hs : staged.Signalled)
    (r : PerStage Request) : (o.next staged r).Signalled :=
  ⟨Request.pick_of (P := ExecuteSlot.Signalled) r.execute h.execute hs.execute rfl,
    Request.pick_of (P := MemorySlot.Signalled) r.memory h.memory hs.memory rfl⟩

theorem Simulation.signalled_staged {s : Simulation} (h : s.outputs.Signalled) :
    s.staged.Signalled := by
  constructor
  · rfl
  · have hpasses := executeStage_passes s.outputs.execute s.core.flags
    change s.executed.1.memorySignals = s.executed.1.opcode.signals.memory
    rw [executed, hpasses.memorySignals, hpasses.opcode]
    exact h.execute

/-! ## The miss in flight -/

/-- A miss that is in flight after an access is the one that the access waits for, if one that was
in flight before is. -/
theorem CachedSide.pending_access {side : CachedSide} {m : Memory} {a v : Word} {kind : AccessKind}
    {miss : Miss}
    (h : ∀ before, side.pending = some before → before.address = a ∧ before.kind = kind)
    (hp : (side.access m a kind v).2.2.pending = some miss) :
    (side.access m a kind v).1 = .waiting ∧ miss.kind = kind ∧ miss.address = a ∧
      0 < miss.remaining := by
  cases hbefore : side.pending with
  | none =>
    rcases access_fresh m a kind v hbefore with ⟨value, -, hnone, -⟩ | ⟨hwait, hl, hsome, -⟩
    · rw [hnone] at hp
      cases hp
    · obtain rfl := Option.some.inj (hsome.symm.trans hp)
      exact ⟨hwait, rfl, rfl, hl⟩
  | some before =>
    obtain ⟨address, kind', r⟩ := before
    obtain ⟨rfl, rfl⟩ := h _ hbefore
    rcases access_again (m := m) (v := v) hbefore with
      ⟨-, value, -, hnone, -⟩ | ⟨hr, hwait, hsome, -⟩
    · rw [hnone] at hp
      cases hp
    · obtain rfl := Option.some.inj (hsome.symm.trans hp)
      exact ⟨hwait, rfl, rfl, Nat.sub_pos_of_lt hr⟩

namespace Bus

/-- The miss in flight. -/
def pending (b : Bus) : Option Miss := b.cached.bind (·.pending)

theorem missInFlight_eq (b : Bus) : b.missInFlight = b.pending.isSome := rfl

theorem pending_start (m : Memory) (map : SegmentMap) (g : Option Geometry) :
    (start m map g).pending = none := by
  cases g <;> rfl

/-- Whatever miss is in flight, the instruction in memory has asked for it. -/
def InFlightFor (b : Bus) (m : MemorySlot) : Prop :=
  ∀ miss, b.pending = some miss → AskedFor b.segments m miss

variable {b : Bus} {m : MemorySlot} {miss : Miss}

/-- A miss that is in flight after memory is the one that memory waits for. -/
theorem pending_memoryStage (h : b.InFlightFor m) (hp : (memoryStage m b).2.pending = some miss) :
    b.Waits m ∧ AskedFor b.segments m miss := by
  cases hk : m.accessKind? with
  | none =>
    rw [memoryStage_of_none hk] at hp
    have hasked := (h miss hp).kind
    rw [hk] at hasked
    cases hasked
  | some kind =>
    rw [memoryStage_snd hk] at hp
    rw [waits_iff hk]
    rcases b.access_cases m.result kind m.valB with ⟨e, hc, h'⟩ | ⟨-, hd, h'⟩ |
      ⟨side, hc, hs, hside, h'⟩
    · -- the access in flight was admitted, so that it is not refused now
      rw [h'] at hp
      have hasked := h miss hp
      obtain rfl : kind = miss.kind := Option.some.inj (hk.symm.trans hasked.kind)
      have hadmitted := hasked.admitted
      rw [hc] at hadmitted
      cases hadmitted
    · rw [h', pending, (b.direct_cached m.result kind m.valB).1] at hp
      rcases hd with hs | hnone
      · have hpast := (h miss hp).past
        rw [hs] at hpast
        cases hpast
      · rw [hnone] at hp
        cases hp
    · rw [h'] at hp ⊢
      have hasked : ∀ before, side.pending = some before →
          before.address = m.result ∧ before.kind = kind := by
        intro before hbefore
        obtain ⟨hk', ha, -, -, -⟩ := h before (by rw [pending, hside]; exact hbefore)
        exact ⟨ha, Option.some.inj (hk'.symm.trans hk)⟩
      obtain ⟨hwait, rfl, ha, hr⟩ := CachedSide.pending_access hasked hp
      exact ⟨by rw [hwait], hk, ha, hs, hc, hr⟩

/-- An access for what is in flight abandons nothing. -/
theorem InFlightFor.abandoned {side : CachedSide} {kind : AccessKind} (h : b.InFlightFor m)
    (hside : b.cached = some side) (hk : m.accessKind? = some kind) :
    side.abandoned m.result kind = none := by
  unfold CachedSide.abandoned
  rw [Option.filter_eq_none_iff]
  intro miss hmiss
  have hasked := h miss (by rw [pending, hside]; exact hmiss)
  have hkind : miss.kind = kind := Option.some.inj (hasked.kind.symm.trans hk)
  simp [hasked.address, hkind]

end Bus

/-- Behind the end of a run, every register holds what it has. -/
theorem Outputs.next_of_terminal {o staged : Outputs} {i : HazardInputs}
    (hf : i.missInFlight = false) (hw : i.statuses.write.isTerminal = true) :
    o.next staged i.control = o := by
  have hflight : i.detect.missInFlight = false := hf
  have hwrite : i.faulted.write = true := hw
  have hmemory := HazardInputs.faulted_memory_of_write hwrite
  have hexecute := HazardInputs.faulted_execute_of_memory hmemory
  have hdecode := HazardInputs.faulted_decode_of_execute hexecute
  have hfetch := HazardInputs.faulted_fetch_of_decode hdecode
  simp [next, Request.pick, HazardInputs.control, hflight, hfetch, hdecode, hexecute, hmemory,
    hwrite]

namespace Simulation

/-! ## Every state -/

/-- No register is in error. Behind the end of a run, memory holds what has ended it. A miss in
flight is for the instruction in memory, and nothing is retired meanwhile. -/
structure Tended (s : Simulation) : Prop where
  healthy : s.Healthy
  settled : s.outputs.Settled s.bus
  signalled : s.outputs.Signalled
  inFlight : s.bus.InFlightFor s.outputs.memory
  idle : s.bus.missInFlight = true → s.outputs.write = {}

theorem tended_start (entry : Word) (m : Memory) (map : SegmentMap) (cache : Option Geometry)
    (backend : Backend) (limit : Nat) :
    (start entry (.start m map cache) backend limit).Tended where
  healthy := healthy_start entry _ backend limit
  settled := nofun
  signalled := Outputs.signalled_start entry
  inFlight miss hp := by
    have hnone : (start entry (.start m map cache) backend limit).bus.pending = none :=
      Bus.pending_start m map cache
    rw [hnone] at hp
    cases hp
  idle _ := rfl

variable {s : Simulation}

namespace Tended

/-- Nothing has ended the run while a miss is in flight after memory. -/
theorem not_terminal (h : s.Tended) (hf : s.accessed.2.missInFlight = true) :
    s.outputs.write.status.isTerminal = false := by
  obtain ⟨miss, hp⟩ := Option.isSome_iff_exists.mp hf
  have hwaits := (Bus.pending_memoryStage h.inFlight hp).1
  rw [Bool.eq_false_iff]
  intro hterm
  have hstopped := h.settled hterm
  rw [hwaits.status_memoryStage] at hstopped
  cases hstopped

theorem outputs_step (h : s.Tended) :
    s.step.outputs = s.outputs.next s.staged s.hazards.control :=
  Simulation.outputs_step h.healthy h.not_terminal

theorem step (h : s.Tended) : s.step.Tended := by
  have hhealthy := healthy_step h.healthy h.not_terminal
  have hsignalled : s.step.outputs.Signalled := by
    rw [h.outputs_step]
    exact h.signalled.next (signalled_staged h.signalled) _
  have hbus : s.step.bus = (memoryStage s.outputs.memory s.bus).2 := s.bus_step
  cases hf : s.accessed.2.missInFlight with
  | false =>
    have hnone : s.step.bus.pending = none := by
      rw [Bus.missInFlight_eq] at hf
      rw [bus_step]
      simpa using hf
    refine ⟨hhealthy, settled_step h.outputs_step hf h.settled, hsignalled, ?_, ?_⟩
    · intro miss hp
      rw [hnone] at hp
      cases hp
    · rw [Bus.missInFlight_eq, hnone]
      nofun
  | true =>
    -- the cycle is spent waiting: all but writeback stay as they are
    have ho : s.step.outputs = { s.outputs with write := {} } := by
      rw [h.outputs_step]
      exact Outputs.next_of_flight hf (h.not_terminal hf)
    refine ⟨hhealthy, ?_, hsignalled, ?_, ?_⟩
    · rw [ho]
      nofun
    · intro miss hp
      rw [hbus] at hp ⊢
      rw [ho, Bus.segments_memoryStage]
      exact (Bus.pending_memoryStage h.inFlight hp).2
    · rw [ho]
      exact fun _ => rfl

theorem steps (h : s.Tended) (n : Nat) : (s.steps n).Tended := by
  induction n with
  | zero => exact h
  | succ n ih => exact ih.step

theorem inError (h : s.Tended) : s.pipeline.inError = false := by
  have hf := h.healthy.fetch
  have hd := h.healthy.decode
  have hx := h.healthy.execute
  have hm := h.healthy.memory
  have hw := h.healthy.write
  simp only [Pipeline.inError, List.contains_eq_mem, decide_eq_false_iff_not, List.mem_cons,
    List.not_mem_nil, or_false, not_or]
  exact ⟨hf.symm, hd.symm, hx.symm, hm.symm, hw.symm⟩

end Tended

theorem tended_steps (entry : Word) (m : Memory) (map : SegmentMap) (cache : Option Geometry)
    (backend : Backend) (limit n : Nat) :
    ((start entry (.start m map cache) backend limit).steps n).Tended :=
  (tended_start entry m map cache backend limit).steps n

/-- After any number of cycles, also past the end of the run, no register is in error; a miss in
flight is that of the load or store in memory, with a bubble in writeback; and the access that
memory makes next abandons no miss. -/
theorem miss_of_memory (entry : Word) (m : Memory) (map : SegmentMap) (cache : Option Geometry)
    (backend : Backend) (limit n : Nat) :
    let s := (start entry (.start m map cache) backend limit).steps n
    s.pipeline.inError = false ∧
    (∀ side miss, s.bus.cached = some side → side.pending = some miss →
      s.outputs.memory.status = .ok ∧
      (s.outputs.memory.opcode = .ldur ∧ miss.kind = .read ∨
        s.outputs.memory.opcode = .stur ∧ miss.kind = .write) ∧
      miss.address = s.outputs.memory.result ∧
      s.outputs.write = {}) ∧
    (∀ side kind, s.bus.cached = some side → s.outputs.memory.accessKind? = some kind →
      side.abandoned s.outputs.memory.result kind = none) := by
  intro s
  have h : s.Tended := tended_steps entry m map cache backend limit n
  refine ⟨h.inError, ?_, fun side kind hside hk => h.inFlight.abandoned hside hk⟩
  intro side miss hside hmiss
  have hp : s.bus.pending = some miss := by
    rw [Bus.pending, hside]
    exact hmiss
  have hasked := h.inFlight miss hp
  obtain ⟨hok, hop⟩ := h.signalled.memory.of_access hasked.kind
  have hflight : s.bus.missInFlight = true := by
    rw [Bus.missInFlight_eq, hp]
    rfl
  exact ⟨hok, hop, hasked.address, h.idle hflight⟩

/-! ## Past the end -/

/-- Behind the end of a run, a cycle changes neither the registers of the pipeline nor memory. -/
theorem Tended.hold (h : s.Tended) (hw : s.outputs.write.status.isTerminal = true) :
    s.step.outputs = s.outputs ∧ s.step.bus = s.bus := by
  have hstopped : s.accessed.1.status.isTerminal = true := h.settled hw
  have hflight : s.accessed.2.missInFlight = false := by
    rw [Bool.eq_false_iff]
    intro hf
    rw [h.not_terminal hf] at hw
    cases hw
  constructor
  · rw [h.outputs_step]
    exact Outputs.next_of_terminal hflight hw
  · rw [bus_step]
    refine bus_memoryStage_of_ne_ok fun hok => ?_
    rw [accessed, hok] at hstopped
    cases hstopped

/-- The cycle after the one that retires the end of a run changes nothing. -/
theorem Tended.step_of_terminal (h : s.Tended) (hw : s.outputs.write.status.isTerminal = true) :
    s.step.step.core = s.step.core ∧ s.step.step.bus = s.step.bus ∧
    s.step.step.outputs = s.step.outputs := by
  obtain ⟨houtputs, hbus⟩ := h.hold hw
  have hhold := h.step.hold (by rw [houtputs]; exact hw)
  refine ⟨?_, hhold.2, hhold.1⟩
  have haccessed : s.step.accessed = s.accessed := by
    rw [accessed, houtputs, hbus]
    rfl
  have hfetched : s.step.fetched = s.fetched := by
    rw [fetched, houtputs, haccessed]
    rfl
  have hne : s.outputs.write.status ≠ .ok := by
    intro hok
    rw [hok] at hw
    cases hw
  have hretired : s.step.retiredTo = s.retiredTo := by
    rw [retiredTo, houtputs, registers_step]
    exact writeStage_of_ne_ok hne _
  have hexecuted : s.step.executed = s.executed := by
    rw [executed, houtputs, flags_step]
    exact executeStage_again _ _
  rw [s.step.step_eq, hfetched, hretired, hexecuted, houtputs, s.step_eq]

theorem Tended.steps_of_terminal (h : s.Tended) (hw : s.outputs.write.status.isTerminal = true)
    (k : Nat) :
    (s.steps (k + 1)).core = s.step.core ∧ (s.steps (k + 1)).bus = s.step.bus ∧
    (s.steps (k + 1)).outputs = s.step.outputs := by
  induction k generalizing s with
  | zero => exact ⟨rfl, rfl, rfl⟩
  | succ k ih =>
    have hw' : s.step.outputs.write.status.isTerminal = true := by
      rw [(h.hold hw).1]
      exact hw
    obtain ⟨hcore, hbus, houtputs⟩ := h.step_of_terminal hw
    obtain ⟨hcore', hbus', houtputs'⟩ := ih h.step hw'
    rw [steps_succ]
    exact ⟨hcore'.trans hcore, hbus'.trans hbus, houtputs'.trans houtputs⟩

/-- Once a cycle has left a status that ends the run, the core, the bus and the registers of the
pipeline stay as they are. -/
theorem steps_of_finished (entry : Word) (m : Memory) (map : SegmentMap)
    (cache : Option Geometry) (backend : Backend) (limit n k : Nat)
    (h : ((start entry (.start m map cache) backend limit).steps n).finished = true) :
    let s := start entry (.start m map cache) backend limit
    (s.steps (n + k)).core = (s.steps n).core ∧
    (s.steps (n + k)).bus = (s.steps n).bus ∧
    (s.steps (n + k)).outputs = (s.steps n).outputs := by
  intro s
  cases n with
  | zero => cases h
  | succ n =>
    -- the status that the last cycle has left was in writeback before it
    have hw : (s.steps n).outputs.write.status.isTerminal = true := by
      rw [← status_step]
      exact h
    rw [Nat.add_assoc, steps_add, Nat.add_comm 1 k]
    exact (tended_steps entry m map cache backend limit n).steps_of_terminal hw k

/-- A store to the text segment, and a comparison behind it, ten cycles after the end. -/
theorem steps_of_finished_store :
    let m := (Memory.empty.setWord textStart 0xF8000040D2A00802).setWord (textStart + 8)
      0xD4400000EB1F005F
    let s := start textStart (.start m .default none) .serial 500
    (s.steps 7).finished = true ∧ (s.steps 7).core.status = .badAddress ∧
    (s.steps 17).core = (s.steps 7).core ∧ (s.steps 17).outputs = (s.steps 7).outputs := by
  intro m s
  have hfin : (s.steps 7).finished = true := by decide +kernel
  have hstatus : (s.steps 7).core.status = .badAddress := by decide +kernel
  obtain ⟨hcore, -, houtputs⟩ := steps_of_finished textStart m .default none .serial 500 7 10 hfin
  exact ⟨hfin, hstatus, hcore, houtputs⟩

end Simulation

end FiveStage
