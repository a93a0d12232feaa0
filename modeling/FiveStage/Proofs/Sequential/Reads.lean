import FiveStage.Proofs.Pipeline.Twins
import FiveStage.Proofs.Sequential.Program

/-!
# What a program reads

* `Sequential.Fetches`, `Sequential.Loads`, `Sequential.Reads` : the bytes that the instruction at
  the program counter lies in, and those that it loads;
* `Sequential.Alike` : two machines that differ in memory alone, and there only where the images do
  that they were started with;
* `Sequential.Alike.step`, `Sequential.Alike.run` : so it stays if the images agree on what is read;
* `Sequential.Alike.events` : the two machines meet the same events.
-/

namespace FiveStage

namespace Bus

variable {b b' : Bus}

/-- Without a cache, an access is answered alike if what it loads is alike. -/
theorem access_fst_congr (hb : b.cached = none) (hb' : b'.cached = none)
    (hsegments : b'.segments = b.segments) {a : Word} {kind : AccessKind} {v : Word}
    (h : kind = .read → b.segments.checkData a kind = .ok () →
      ∀ x, Word.Within a 8 x → b'.memory.byte x = b.memory.byte x) :
    (b'.access a kind v).1 = (b.access a kind v).1 := by
  cases hc : b.segments.checkData a kind with
  | error e => rw [access_of_refused hc, access_of_refused (hsegments ▸ hc)]
  | ok u =>
    rw [access_plain hb hc, access_plain hb' (hsegments ▸ hc)]
    cases kind with
    | write => rfl
    | read =>
      have hword : b'.memory.word a = b.memory.word a := Memory.word_congr (h rfl hc)
      simp only [direct, hword]

/-- Without a cache, an access leaves alike what was alike. -/
theorem byte_access_congr (hb : b.cached = none) (hb' : b'.cached = none)
    (hsegments : b'.segments = b.segments) (a : Word) (kind : AccessKind) (v : Word) {x : Word}
    (h : b.memory.byte x = b'.memory.byte x) :
    (b.access a kind v).2.memory.byte x = (b'.access a kind v).2.memory.byte x := by
  cases hc : b.segments.checkData a kind with
  | error e =>
    rw [access_of_refused hc, access_of_refused (hsegments ▸ hc)]
    exact h
  | ok u =>
    rw [access_plain hb hc, access_plain hb' (hsegments ▸ hc), direct_memory, direct_memory, h]

end Bus

namespace Sequential

/-- The instruction at the program counter lies in the byte at `x`. -/
def Fetches (s : Sequential) (x : Word) : Prop :=
  s.core.pc ≠ 0 ∧ s.segments.checkFetch s.core.pc = .ok () ∧ Word.Within s.core.pc 4 x

/-- The instruction at the program counter loads the byte at `x`. -/
def Loads (s : Sequential) (x : Word) : Prop :=
  s.memorySlot.accessKind? = some .read ∧
    s.segments.checkData s.memorySlot.result .read = .ok () ∧ Word.Within s.memorySlot.result 8 x

/-- A step fetches or loads the byte at `x`. -/
def Reads (s : Sequential) (x : Word) : Prop := s.Alive ∧ (s.Fetches x ∨ s.Loads x)

/-- The machines `s` and `s'` differ in memory alone, and there only where `m` and `m'` do. -/
structure Alike (m m' : Memory) (s s' : Sequential) : Prop where
  core : s'.core = s.core
  segments : s'.segments = s.segments
  memory : ∀ x, m.byte x = m'.byte x → s.memory.byte x = s'.memory.byte x

/-- A program that ends and loads nothing reads its instructions alone. -/
theorem fetches_of_reads {s : Sequential} {n : Nat}
    (hend : (s.run n).core.status.isTerminal = true)
    (hnone : ∀ k, k < n → (s.run k).memorySlot.accessKind? = none) {k : Nat} {x : Word}
    (h : (s.run k).Reads x) : k < n ∧ Word.Within (s.run k).core.pc 4 x := by
  obtain ⟨ha, hreads⟩ := h
  have hk : k < n := by
    false_or_by_contra
    obtain ⟨j, rfl⟩ := Nat.exists_eq_add_of_le (Nat.le_of_not_lt ‹¬ k < n›)
    rw [run_add, run_of_isTerminal hend, Alive, hend] at ha
    cases ha
  refine ⟨hk, ?_⟩
  rcases hreads with ⟨-, -, hin⟩ | ⟨hload, -, -⟩
  · exact hin
  · rw [hnone k hk] at hload
    cases hload

namespace Alike

variable {m m' : Memory} {s s' : Sequential}

theorem start (entry : Word) (m m' : Memory) (map : SegmentMap) :
    Alike m m' (.start entry m map) (.start entry m' map) :=
  ⟨rfl, rfl, fun _ h => h⟩

theorem alive (h : Alike m m' s s') (ha : s.Alive) : s'.Alive := by
  rw [Alive, h.core]
  exact ha

/-! ## One instruction -/

section Instruction

variable (h : Alike m m' s s') (ha : s.Alive) (hreads : ∀ x, s.Reads x → m.byte x = m'.byte x)
include h ha hreads

theorem fetched (hpc : s.core.pc ≠ 0) : s'.fetched = s.fetched := by
  have hfetch : s'.bus.fetch s.core.pc = s.bus.fetch s.core.pc := by
    unfold Bus.fetch
    rw [show s'.bus.segments = s.bus.segments from h.segments]
    cases hc : s.bus.segments.checkFetch s.core.pc with
    | error e => rfl
    | ok u =>
      -- fetch asks for nothing but the bytes of the instruction
      refine congrArg Except.ok (Memory.instrWord_congr fun x hx => ?_)
      exact (h.memory x (hreads x ⟨ha, .inl ⟨hpc, hc, hx⟩⟩)).symm
  rw [Sequential.fetched, Sequential.fetched, h.core, fetchedWord, fetchedWord, hfetch]

theorem decodeSlot : s'.decodeSlot = s.decodeSlot := by
  have hpc' : s'.core.pc = s.core.pc := by rw [h.core]
  by_cases hpc : s.core.pc = 0
  · rw [Sequential.decodeSlot, Sequential.decodeSlot, fetchedSlots_of_pc_eq_zero hpc,
      fetchedSlots_of_pc_eq_zero (hpc'.trans hpc)]
  · rw [Sequential.decodeSlot, Sequential.decodeSlot, fetchedSlots_of_pc_ne_zero hpc,
      fetchedSlots_of_pc_ne_zero (hpc' ▸ hpc), h.fetched ha hreads hpc, hpc']

theorem fetchedStatus : s'.fetchedStatus = s.fetchedStatus := by
  rw [← status_decodeSlot, h.decodeSlot ha hreads, status_decodeSlot]

theorem executeSlot : s'.executeSlot = s.executeSlot := by
  rw [Sequential.executeSlot, h.decodeSlot ha hreads, h.core, Sequential.executeSlot]

theorem memorySlot : s'.memorySlot = s.memorySlot := by
  rw [Sequential.memorySlot, h.executeSlot ha hreads, h.core, Sequential.memorySlot]

theorem sources : s'.sources = s.sources := by
  rw [← sources_decodeSlot, h.decodeSlot ha hreads, sources_decodeSlot]

theorem writeSlot : s'.writeSlot = s.writeSlot := by
  rw [Sequential.writeSlot, h.memorySlot ha hreads, Sequential.writeSlot]
  cases hk : s.memorySlot.accessKind? with
  | none => rw [memoryStage_of_none hk, memoryStage_of_none hk]
  | some kind =>
    refine Bus.memoryStage_fst hk (Bus.access_fst_congr rfl rfl h.segments fun hkind hc x hx => ?_)
    -- a store answers nothing, so that only a load matters
    subst hkind
    exact (h.memory x (hreads x ⟨ha, .inr ⟨hk, hc, hx⟩⟩)).symm

theorem memory_step (x : Word) (hx : m.byte x = m'.byte x) :
    s.step.memory.byte x = s'.step.memory.byte x := by
  change s.step.bus.memory.byte x = s'.step.bus.memory.byte x
  rw [bus_step ha, bus_step (h.alive ha), h.memorySlot ha hreads]
  cases hk : s.memorySlot.accessKind? with
  | none =>
    rw [memoryStage_of_none hk, memoryStage_of_none hk]
    exact h.memory x hx
  | some kind =>
    rw [Bus.memoryStage_snd hk, Bus.memoryStage_snd hk]
    exact Bus.byte_access_congr rfl rfl h.segments _ _ _ (h.memory x hx)

theorem next (hok : s.fetchedStatus = .ok) : s'.next = s.next := by
  have hfetched := h.fetched ha hreads (pc_ne_zero hok)
  have hok' := (h.fetchedStatus ha hreads).trans hok
  have hoperands : s'.operands = s.operands := by
    rw [← executeSlot_eq hok', h.executeSlot ha hreads, executeSlot_eq hok]
  have hcomputed : s'.computed = s.computed := by
    rw [computed, hoperands, h.core, computed]
  rw [Sequential.next, Sequential.next, hfetched, hoperands, hcomputed, h.core]

theorem core_step : s'.step.core = s.step.core := by
  have ha' := h.alive ha
  have hfetched := h.fetchedStatus ha hreads
  rcases s.fetchedStatus_cases with hok | hterm
  · have hok' := hfetched.trans hok
    have hwrite := h.writeSlot ha hreads
    rw [step_eq_of_ok ha hok, step_eq_of_ok ha' hok']
    rcases status_writeSlot hok with hb | hb
    · rw [execute_of_ok hok hb, execute_of_ok hok' (hwrite ▸ hb), hwrite, h.next ha hreads hok,
        h.executeSlot ha hreads, h.core]
    · rw [execute_of_badAddress hok hb, execute_of_badAddress hok' (hwrite ▸ hb), h.core]
  · rw [step_eq_of_isTerminal ha hterm, step_eq_of_isTerminal ha' (hfetched ▸ hterm), hfetched,
      h.core]

end Instruction

/-! ## Runs -/

theorem step (h : Alike m m' s s') (hreads : ∀ x, s.Reads x → m.byte x = m'.byte x) :
    Alike m m' s.step s'.step := by
  cases ha : s.core.status.isTerminal with
  | true =>
    rw [step_of_isTerminal ha, step_of_isTerminal (by rw [h.core]; exact ha)]
    exact h
  | false =>
    refine ⟨h.core_step ha hreads, ?_, h.memory_step ha hreads⟩
    rw [segments_step, segments_step, h.segments]

theorem run (h : Alike m m' s s') (hreads : ∀ k x, (s.run k).Reads x → m.byte x = m'.byte x)
    (n : Nat) : Alike m m' (s.run n) (s'.run n) := by
  induction n with
  | zero => exact h
  | succ n ih =>
    rw [run_succ, run_succ]
    exact ih.step (hreads n)

theorem eventsOfStep (h : Alike m m' s s') (hreads : ∀ x, s.Reads x → m.byte x = m'.byte x)
    (hnext : ∀ x, s.step.Reads x → m.byte x = m'.byte x) : s'.eventsOfStep = s.eventsOfStep := by
  cases ha : s.core.status.isTerminal with
  | true =>
    have ha' : s'.core.status.isTerminal = true := by rw [h.core, ha]
    simp [Sequential.eventsOfStep, usesLoad, returns, fallsThrough, proceeds, ha, ha']
  | false =>
    have hstep := h.step hreads
    have hexecute := h.executeSlot ha hreads
    have hmemory := h.memorySlot ha hreads
    have hreturns : s'.returns = s.returns := by
      rw [returns_eq (h.alive ha), returns_eq ha, hexecute]
    have hfall : s'.fallsThrough = s.fallsThrough := by
      rw [fallsThrough_eq (h.alive ha), fallsThrough_eq ha, hexecute, hmemory]
    have hload : s'.usesLoad = s.usesLoad := by
      cases hover : s.step.core.status.isTerminal with
      | true =>
        have hover' : s'.step.core.status.isTerminal = true := by rw [hstep.core, hover]
        simp [usesLoad, hover, hover']
      | false =>
        rw [usesLoad_eq (h.alive ha) (hstep.alive hover), usesLoad_eq ha hover, delaysNext,
          delaysNext, beyond_of_alive_step (h.alive ha) (hstep.alive hover),
          beyond_of_alive_step ha hover, hexecute, hstep.sources hover hnext]
    rw [Sequential.eventsOfStep, Sequential.eventsOfStep, hreturns, hfall, hload, h.core]

theorem events (h : Alike m m' s s') (hreads : ∀ k x, (s.run k).Reads x → m.byte x = m'.byte x)
    (n : Nat) : s'.events n = s.events n := by
  induction n with
  | zero => rfl
  | succ n ih =>
    have hnext : ∀ x, (s.run n).step.Reads x → m.byte x = m'.byte x := fun x hx => by
      rw [← run_succ] at hx
      exact hreads (n + 1) x hx
    rw [events_succ, events_succ, ih, (h.run hreads n).eventsOfStep (hreads n) hnext]

end Alike

end Sequential

end FiveStage
