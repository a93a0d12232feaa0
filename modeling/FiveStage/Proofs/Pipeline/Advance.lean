import FiveStage.Proofs.Pipeline.Window

/-!
# One cycle of the window

* `Simulation.Flows` : a cycle in which no register is in error and no miss is waited for;
* `Simulation.Flows.decode_step_bubble`, `Simulation.Flows.decode_step_slot` : what decode sends to
  execute, and what comes behind it;
* `Simulation.Flows.execute_step`, `Simulation.Flows.memory_step` : every instruction comes one
  cycle nearer to memory and to writeback;
* `Simulation.Flows.ending_step` : nothing moves behind the end of the program.
-/

namespace FiveStage

namespace Simulation

variable {s : Simulation} {τ : Sequential} {code : Memory} {map : SegmentMap} {d : Nat}

/-- A cycle in which the registers do as they are asked and memory answers at once. -/
structure Flows (s : Simulation) (code : Memory) (map : SegmentMap) : Prop where
  outputs : s.step.outputs = s.outputs.next s.staged s.hazards.control
  flight : s.hazards.missInFlight = false
  keeps : s.accessed.2.KeepsCode code
  segments : s.accessed.2.segments = map

namespace Flows

theorem fetchedWord (h : s.Flows code map) (hτ : τ.Runs code map) (pc : Word) :
    fetchedWord s.accessed.2 pc = FiveStage.fetchedWord τ.bus pc := by
  rw [h.keeps.fetchedWord, h.segments, hτ.fetchedWord]

theorem fetched_eq (h : s.Flows code map) (hτ : τ.Runs code map)
    (hs : s.outputs.fetch.status = .ok)
    (hpc : selectPc s.outputs.fetch s.outputs.execute s.outputs.memory = τ.core.pc) :
    s.fetched = τ.fetchedSlots := by
  have hsel : selectPc ⟨τ.core.pc, .ok⟩ {} {} = τ.core.pc := rfl
  rw [Simulation.fetched, Sequential.fetchedSlots, fetchStage, fetchStage, hpc, hs, hsel]
  simp only [h.fetchedWord hτ]

/-- Fetch goes on from an address that is not zero. -/
theorem fetch_fresh (h : s.Flows code map) (hτ : τ.Runs code map)
    (hs : s.outputs.fetch.status = .ok) (hne : s.outputs.fetch.predicted ≠ 0)
    (hsel : selectPc s.outputs.fetch s.outputs.execute s.outputs.memory =
      s.outputs.fetch.predicted) :
    s.fetched.1.status = .ok ∧
    (τ.bus.AvoidsZero s.outputs.fetch.predicted → s.fetched.2.status.isTerminal = false →
      s.fetched.1.predicted ≠ 0) := by
  have hcond : ¬ (s.outputs.fetch.status = .halt ∨ s.outputs.fetch.predicted = 0) := by
    rw [hs]
    rintro (he | he)
    · cases he
    · exact hne he
  rw [Simulation.fetched, fetchStage, hsel, if_neg hcond]
  refine ⟨rfl, fun havoids hterm => ?_⟩
  simp only [h.fetchedWord hτ] at hterm ⊢
  refine havoids.2 ((Opcode.initialStatus_cases _).resolve_right ?_)
  rw [hterm]
  exact Bool.false_ne_true

/-! ## Decode -/

/-- Without a misprediction, what comes to memory next is no branch that was not taken. -/
theorem not_mispredicted (hm : s.hazards.detect.mispredict = false) :
    ¬ (s.executed.1.opcode = .bCond ∧ s.executed.1.condHolds = false) := by
  rintro ⟨hop, hc⟩
  have hexec : s.hazards.executeOp = .bCond := (executeStage_passes _ _).opcode.symm.trans hop
  have hcond : s.hazards.condHolds = false := hc
  rw [HazardInputs.mispredict_detect, hexec, hcond] at hm
  cases hm

/-- A bubble in decode makes room for the instruction at the program counter. -/
theorem decode_step_bubble (h : s.Flows code map) (hτ : τ.Runs code map)
    (hm : s.hazards.detect.mispredict = false) (hx : s.hazards.faulted.execute = false)
    (hF : s.outputs.AtFetch τ) : s.step.outputs.execute = {} ∧ s.step.outputs.InDecode τ := by
  obtain ⟨hd, hs, hpc⟩ := hF
  have hfetched := h.fetched_eq hτ hs hpc
  have hdecoded : s.decoded = {} := by rw [Simulation.decoded, hd, decodeStage_bubble]
  have hop : s.hazards.decodeOp = .nop := by
    change s.outputs.decode.opcode = .nop
    rw [hd]
  have hsources : s.hazards.decodeSources = (Reg.zero, Reg.zero) := by
    change (Instruction.decode s.outputs.decode.word s.outputs.decode.opcode).operands.sources = _
    rw [hd]
    rfl
  have hload : s.hazards.detect.loadUse = false := by
    rw [HazardInputs.loadUse_detect, hsources]
    by_cases hz : s.hazards.executeDst = Reg.zero
    · simp [hz]
    · simp [Ne.symm hz]
  have hret : s.hazards.detect.ret = false := by rw [HazardInputs.ret_detect, hop]; rfl
  have hterm : s.hazards.statuses.decode.isTerminal = false := by
    change s.decoded.status.isTerminal = false
    rw [hdecoded]
    rfl
  obtain ⟨hX, hD, hF⟩ := s.outputs.next_of_clear s.staged h.flight hx hm
  rw [← h.outputs, hload] at hX
  rw [← h.outputs, hload, hterm, hret] at hD
  rw [← h.outputs, hload, hterm, hret] at hF
  refine ⟨hX.trans hdecoded, ?_, fun hok => ?_⟩
  · exact hD.trans (congrArg Prod.snd hfetched)
  · have hnot : s.hazards.statuses.fetch.isTerminal = false := by
      change s.fetched.2.status.isTerminal = false
      rw [hfetched]
      change τ.decodeSlot.status.isTerminal = false
      rw [τ.status_decodeSlot, hok]
      rfl
    rw [hnot] at hF
    exact hF.trans (congrArg Prod.fst hfetched)

/-- An instruction that reads what is being loaded stays in decode. -/
theorem decode_step_waits (h : s.Flows code map) (hm : s.hazards.detect.mispredict = false)
    (hx : s.hazards.faulted.execute = false) (hD : s.outputs.InDecode τ)
    (hload : s.hazards.detect.loadUse = true) :
    s.step.outputs.execute = {} ∧ s.step.outputs.InDecode τ := by
  obtain ⟨hX, hD', hF⟩ := s.outputs.next_of_clear s.staged h.flight hx hm
  rw [← h.outputs, hload] at hX hD' hF
  simp only [if_true, Bool.true_or, Bool.or_true] at hX hD' hF
  exact ⟨hX, hD'.trans hD.1, fun hok => hF.trans (hD.2 hok)⟩

/-- Behind a return comes a bubble, until execute knows the target. -/
theorem behind_return (h : s.Flows code map) (ha : τ.Alive)
    (hm : s.hazards.detect.mispredict = false) (hx : s.hazards.faulted.execute = false)
    (hX : s.step.outputs.execute = τ.executeSlot) (hr : τ.returns = true)
    (hok : τ.fetchedStatus = .ok) (hD : s.step.outputs.decode = {})
    (hF : s.step.outputs.fetch.status = .ok) : s.step.outputs.AtFetch τ.beyond := by
  have hop := (Sequential.returns_iff ha hok).1 hr
  have hb : s.hazards.faulted.memory = false := by
    rw [Bool.eq_false_iff]
    intro hb
    rw [HazardInputs.faulted_execute_of_memory hb] at hx
    cases hx
  have hM : s.step.outputs.memory = s.executed.1 := by
    rw [h.outputs, Outputs.next_memory h.flight hb]
    rfl
  refine ⟨hD, hF, ?_⟩
  rw [Sequential.pc_beyond ha hok, Sequential.next_of_returns ha hok hr, hX, hM, selectPc]
  by_cases hentry : τ.executeSlot.valA = returnFromEntry
  · rw [if_pos ⟨hop, hentry⟩, if_pos hentry]
  · rw [if_neg fun he => hentry he.2, if_neg (not_mispredicted hm), if_pos hop, if_neg hentry]

/-- Behind every other instruction comes the one that was predicted. -/
theorem behind_other (h : s.Flows code map) (hτ : τ.Runs code map) (ha : τ.Alive)
    (hok : τ.fetchedStatus = .ok) (hr : τ.returns = false)
    (hfetch : s.outputs.fetch = ⟨nextPredicted τ.core.pc τ.fetched.1 τ.fetched.2, .ok⟩)
    (hsel : selectPc s.outputs.fetch s.outputs.execute s.outputs.memory =
      s.outputs.fetch.predicted)
    (hD : s.step.outputs.decode = s.fetched.2)
    (hF : s.step.outputs.fetch =
      if s.fetched.2.status.isTerminal then s.outputs.fetch else s.fetched.1) :
    s.step.outputs.Behind τ := by
  have hstatus : s.outputs.fetch.status = .ok := by rw [hfetch]
  unfold Outputs.Behind
  cases hfall : τ.fallsThrough with
  | true =>
    rw [if_pos rfl, hF]
    intro hclear
    have havoids : τ.bus.AvoidsZero s.outputs.fetch.predicted := by
      rw [hfetch]
      exact hclear hfall
    obtain ⟨hs, hp⟩ := h.fetch_fresh hτ hstatus havoids.1 hsel
    cases hterm : s.fetched.2.status.isTerminal with
    | true => exact ⟨hstatus, havoids.1⟩
    | false => exact ⟨hs, hp havoids hterm⟩
  | false =>
    have hpc : s.outputs.fetch.predicted = τ.beyond.core.pc := by
      rw [Sequential.pc_beyond ha hok, Sequential.next_eq_nextPredicted ha hok hfall hr, hfetch]
    have hfetched := h.fetched_eq hτ.beyond hstatus (hsel.trans hpc)
    rw [if_neg Bool.false_ne_true, hr]
    refine ⟨hD.trans (congrArg Prod.snd hfetched), fun hok' => ?_⟩
    rw [hF, hfetched]
    have hterm : τ.beyond.fetchedSlots.2.status.isTerminal = false := by
      change τ.beyond.decodeSlot.status.isTerminal = false
      rw [τ.beyond.status_decodeSlot, hok']
      rfl
    rw [hterm]
    rfl

/-- An instruction in decode goes on to execute. -/
theorem decode_step_slot (h : s.Flows code map) (hτ : τ.Runs code map) (ha : τ.Alive)
    (hm : s.hazards.detect.mispredict = false) (hx : s.hazards.faulted.execute = false)
    (hin : s.outputs.InDecode τ)
    (hsel : selectPc s.outputs.fetch s.outputs.execute s.outputs.memory =
      s.outputs.fetch.predicted)
    (hload : s.hazards.detect.loadUse = false) (hdecoded : s.decoded = τ.executeSlot) :
    s.step.outputs.execute = τ.executeSlot ∧ s.step.outputs.Behind τ := by
  obtain ⟨hd, hf⟩ := hin
  obtain ⟨hX, hD, hF⟩ := s.outputs.next_of_clear s.staged h.flight hx hm
  rw [← h.outputs, hload] at hX hD hF
  have hexecute : s.step.outputs.execute = τ.executeSlot := hX.trans hdecoded
  have hstatus : s.hazards.statuses.decode = τ.fetchedStatus := by
    change s.decoded.status = _
    rw [hdecoded, τ.status_executeSlot]
  refine ⟨hexecute, ?_⟩
  rcases τ.fetchedStatus_cases with hok | hterm
  · have hfetch := hf hok
    rw [Sequential.fetchedSlots_of_pc_ne_zero (Sequential.pc_ne_zero hok)] at hfetch
    have hret := ret_decode ha hd hm hload
    have hterm : s.hazards.statuses.decode.isTerminal = false := by
      rw [hstatus, hok]
      rfl
    rw [hterm, hret] at hD hF
    cases hr : τ.returns with
    | true =>
      rw [hr] at hD hF
      have hfall : τ.fallsThrough = false := by
        rw [Sequential.fallsThrough_eq ha, (Sequential.returns_iff ha hok).1 hr]
        rfl
      rw [Outputs.Behind, hfall, hr, if_neg Bool.false_ne_true]
      refine h.behind_return ha hm hx hexecute hr hok hD ?_
      rw [hF, hfetch]
      rfl
    | false =>
      rw [hr] at hD hF
      refine behind_other h hτ ha hok hr hfetch hsel hD ?_
      rw [hF]
      simp only [Bool.false_or, Bool.or_false]
      rfl
  · rw [hstatus, hterm] at hD
    exact (Outputs.behind_iff_of_isTerminal ha hterm).2 (hD.trans hd)

/-! ## Execute -/

/-- Decode reads what the instruction in front of it is going to find. -/
theorem decoded_eq {rf₁ : RegisterFile} (hd : s.outputs.decode = τ.decodeSlot)
    (hw : s.supplied.write.Redundant s.retiredTo)
    (hmem : ∀ r, s.supplied.memory.Carries s.retiredTo rf₁ r)
    (hexec : ∀ r, r = s.hazards.decodeSources.1 ∨ r = s.hazards.decodeSources.2 →
      s.supplied.execute.Carries rf₁ τ.core.registers r) : s.decoded = τ.executeSlot := by
  have h : decodeStage s.outputs.decode s.retiredTo s.supplied =
      decodeStage s.outputs.decode τ.core.registers {} := decodeStage_eq fun r hr => by
    rw [Producers.forward_none]
    exact Producers.forward_eq hw (hmem r) (hexec r hr)
  rw [Simulation.decoded, h, hd]
  rfl

theorem selectPc_eq {f : FetchSlot} {x : ExecuteSlot} {m : MemorySlot} (hx : x.opcode ≠ .ret)
    (hm : ¬ (m.opcode = .bCond ∧ m.condHolds = false)) : selectPc f x m = f.predicted := by
  rw [selectPc, if_neg fun h => hx h.1, if_neg hm, if_neg hx]

/-- A bubble in execute leaves room for what is in decode. -/
theorem execute_step_bubble (h : s.Flows code map) (hτ : τ.Runs code map) (ha : τ.Alive)
    (hb : s.hazards.faulted.memory = false) (hX : s.outputs.AtExecute s.core.flags τ (d + 1))
    (hM : d = 0 → ¬ (s.outputs.memory.opcode = .bCond ∧ s.outputs.memory.condHolds = false))
    (hw : s.supplied.write.Redundant s.retiredTo)
    (hmem : ∀ r, s.supplied.memory.Carries s.retiredTo τ.core.registers r) :
    s.step.outputs.AtMemory s.step.core.flags τ (d + 1) := by
  have hdetect := detect_execute ha hX h.flight
  obtain ⟨hflags, hx, hD⟩ := hX
  have hexecuted : s.executed = (.idle, s.core.flags) := by
    change executeStage s.outputs.execute s.core.flags = (.idle, s.core.flags)
    rw [hx, executeStage_bubble]
  have hfault := faulted_execute_bubble hx hb
  have hmemory : s.step.outputs.memory = .idle := by
    rw [h.outputs, Outputs.next_memory h.flight hb]
    exact congrArg Prod.fst hexecuted
  have hflags' : s.step.core.flags = τ.core.flags := by
    rw [flags_step, hexecuted]
    exact hflags
  refine ⟨⟨true, hmemory⟩, ?_⟩
  match d, hD with
  | 0, hD =>
    have hret : s.outputs.execute.opcode ≠ .ret := by
      rw [hx]
      nofun
    have hdecoded : s.decoded = τ.executeSlot :=
      decoded_eq hD.1 hw hmem fun r _ => Producer.carries_of_disabled
        (by change s.outputs.execute.writeSignals.enable = false; rw [hx]) _ r
    exact ⟨hflags', h.decode_step_slot hτ ha (by rw [hdetect]; rfl) hfault hD
      (selectPc_eq hret (hM rfl)) (by rw [hdetect]; rfl) hdecoded⟩
  | 1, hD =>
    exact ⟨hflags', h.decode_step_bubble hτ (by rw [hdetect]; rfl) hfault hD⟩

/-- A branch that is not taken throws away what has been fetched behind it. -/
theorem squash_step (h : s.Flows code map) (hτ : τ.Runs code map) (ha : τ.Alive)
    (hok : τ.fetchedStatus = .ok) (hfault : s.hazards.faulted.execute = false)
    (hmispredict : s.hazards.detect.mispredict = true) (hfall : τ.fallsThrough = true)
    (hx : s.outputs.execute = τ.executeSlot) (hmemory : s.step.outputs.memory = τ.memorySlot)
    (hmis : ¬ (s.outputs.memory.opcode = .bCond ∧ s.outputs.memory.condHolds = false))
    (hs : s.outputs.fetch.status = .ok) (hne : s.outputs.fetch.predicted ≠ 0) :
    s.step.outputs.execute = {} ∧ s.step.outputs.AtFetch τ.beyond := by
  obtain ⟨hbranch, hfalse⟩ := (Sequential.fallsThrough_iff ha hok).1 hfall
  obtain ⟨hF, hD, hX⟩ := s.outputs.next_of_mispredict s.staged h.flight hfault hmispredict
  rw [← h.outputs] at hF hD hX
  have hret : s.outputs.execute.opcode ≠ .ret := by
    rw [hx, hbranch]
    nofun
  obtain ⟨hfs, -⟩ := h.fetch_fresh hτ hs hne (selectPc_eq hret hmis)
  have hbranch' : τ.memorySlot.opcode = .bCond := τ.memorySlot_from.opcode.trans hbranch
  refine ⟨hX, hD, ?_, ?_⟩
  · rw [hF]
    exact hfs
  · -- fetch takes the address behind the branch from what memory holds now
    rw [Sequential.pc_beyond ha hok, Sequential.next_of_fallsThrough ha hok hfall, hX, hmemory,
      selectPc, if_neg (fun he => by cases he.1), if_pos ⟨hbranch', hfalse⟩]

/-- What was predicted behind an instruction follows it, at once or with a bubble between them. -/
theorem follow_step (h : s.Flows code map) (hτ : τ.Runs code map) (ha : τ.Alive)
    (hok : τ.fetchedStatus = .ok) (hfault : s.hazards.faulted.execute = false)
    (hX : s.outputs.AtExecute s.core.flags τ 0) (hfall : τ.fallsThrough = false)
    (hflags : s.step.core.flags = τ.beyond.core.flags)
    (hmis : ¬ (s.outputs.memory.opcode = .bCond ∧ s.outputs.memory.condHolds = false))
    (hw : s.supplied.write.Redundant s.retiredTo)
    (hmem : ∀ r, s.supplied.memory.Carries s.retiredTo τ.core.registers r) :
    s.step.outputs.AtExecute s.step.core.flags τ.beyond τ.gap := by
  have hdetect := detect_execute ha hX h.flight
  obtain ⟨hflags₀, hx, hD⟩ := hX
  have hmispredict : s.hazards.detect.mispredict = false := by
    rw [hdetect]
    exact hfall
  rw [Outputs.Behind, hfall, if_neg Bool.false_ne_true] at hD
  cases hr : τ.returns with
  | true =>
    have hgap : τ.gap = 1 := by rw [Sequential.gap, hfall, hr]; rfl
    rw [hr] at hD
    rw [hgap]
    exact ⟨hflags, h.decode_step_bubble hτ.beyond hmispredict hfault hD⟩
  | false =>
    rw [hr] at hD
    have hload : s.hazards.detect.loadUse = τ.delaysNext := by rw [hdetect]; rfl
    cases hl : τ.delaysNext with
    | true =>
      have hgap : τ.gap = 1 := by rw [Sequential.gap, hfall, hr, hl]; rfl
      rw [hgap]
      exact ⟨hflags, h.decode_step_waits hmispredict hfault hD (hload.trans hl)⟩
    | false =>
      have hgap : τ.gap = 0 := by rw [Sequential.gap, hfall, hr, hl]; rfl
      have hret : s.outputs.execute.opcode ≠ .ret := by
        rw [hx]
        intro hop
        rw [(Sequential.returns_iff ha hok).2 hop] at hr
        cases hr
      have hsources := hazards_decodeSources hD.1
      rw [hgap]
      refine ⟨hflags, h.decode_step_slot hτ.beyond (Sequential.alive_beyond ha) hmispredict hfault
        hD (selectPc_eq hret hmis) (hload.trans hl) (decoded_eq hD.1 hw hmem fun r hr => ?_)⟩
      have hcarries : s.supplied.execute = ⟨τ.executeSlot.dst,
          τ.executeSlot.writeSignals.enable, τ.memorySlot.result⟩ := by
        rw [← executed_eq hx hflags₀, ← hx]
        rfl
      rw [hcarries]
      intro hzero
      refine Sequential.carries_beyond ha hok (fun hldur hdst => ?_) hzero
      -- decode would have waited for the load
      rw [Sequential.delaysNext, hldur, hdst, ← hsources] at hl
      rcases hr with hr | hr <;> simp [hzero, ← hr] at hl

/-- What an instruction in execute comes to when it goes on to memory. -/
theorem execute_step_slot (h : s.Flows code map) (hτ : τ.Runs code map) (ha : τ.Alive)
    (hclear : τ.Clear) (hb : s.hazards.faulted.memory = false)
    (hX : s.outputs.AtExecute s.core.flags τ 0)
    (hM : ¬ (s.outputs.memory.opcode = .bCond ∧ s.outputs.memory.condHolds = false))
    (hw : s.supplied.write.Redundant s.retiredTo)
    (hmem : ∀ r, s.supplied.memory.Carries s.retiredTo τ.core.registers r) :
    s.step.outputs.AtMemory s.step.core.flags τ 0 := by
  obtain ⟨hflags, hx, hD⟩ := hX
  have hexecuted := executed_eq hx hflags
  have hmemory : s.step.outputs.memory = τ.memorySlot := by
    rw [h.outputs, Outputs.next_memory h.flight hb]
    exact hexecuted
  have hfault := faulted_execute hx hflags hb
  have hflags' : s.step.core.flags = τ.beyond.core.flags := by
    rw [flags_step, Simulation.executed, hx, hflags, Sequential.flags_beyond ha]
  refine ⟨hmemory, ?_⟩
  rcases τ.fetchedStatus_cases with hok | hterm
  · rw [hok] at hfault
    cases hfall : τ.fallsThrough with
    | true =>
      have hmispredict : s.hazards.detect.mispredict = true :=
        (mispredict_execute ha hx hflags).trans hfall
      rw [Outputs.Behind, hfall, if_pos rfl] at hD
      obtain ⟨hs, hne⟩ := hD hclear
      have hgap : τ.gap = 2 := if_pos hfall
      rw [hgap]
      exact ⟨hflags', h.squash_step hτ ha hok hfault hmispredict hfall hx hmemory hM hs hne⟩
    | false =>
      exact h.follow_step hτ ha hok hfault ⟨hflags, hx, hD⟩ hfall hflags' hM hw hmem
  · -- the instruction has ended the program: it stays in execute and in decode, too
    rw [hterm] at hfault
    rw [Outputs.behind_iff_of_isTerminal ha hterm] at hD
    rw [Sequential.gap_of_isTerminal ha hterm]
    refine ⟨hflags', ?_, ?_⟩
    · rw [h.outputs, Outputs.next_execute_of_faulted hfault, hx,
        Sequential.beyond_of_isTerminal hterm]
    · rw [Sequential.beyond_of_isTerminal hterm]
      rw [Outputs.behind_iff_of_isTerminal ha hterm, h.outputs,
        Outputs.next_decode_of_faulted hfault, hD]

theorem execute_step (h : s.Flows code map) (hτ : τ.Runs code map) (ha : τ.Alive)
    (hclear : τ.Clear) (hb : s.hazards.faulted.memory = false)
    (hX : s.outputs.AtExecute s.core.flags τ d)
    (hM : d < 2 → ¬ (s.outputs.memory.opcode = .bCond ∧ s.outputs.memory.condHolds = false))
    (hw : s.supplied.write.Redundant s.retiredTo)
    (hmem : ∀ r, s.supplied.memory.Carries s.retiredTo τ.core.registers r) :
    s.step.outputs.AtMemory s.step.core.flags τ d := by
  cases d with
  | zero => exact h.execute_step_slot hτ ha hclear hb hX (hM (by decide)) hw hmem
  | succ d => exact h.execute_step_bubble hτ ha hb hX (fun hd => hM (by omega)) hw hmem

/-! ## Memory -/

/-- What has ended the program in memory stays there, and nothing behind it has an effect. -/
theorem ending_step (h : s.Flows code map) (ha : τ.Alive) (hbus : s.accessed.2 = τ.step.bus)
    (hm : s.outputs.memory = τ.memorySlot) (hX : s.outputs.AtExecute s.core.flags τ.beyond τ.gap)
    (hfault : s.hazards.faulted.memory = true) (hover : ¬ τ.step.Alive) :
    s.step.outputs.Ending s.step.core.flags s.step.bus τ := by
  have hfault' := HazardInputs.faulted_execute_of_memory hfault
  have hexecute : s.step.outputs.execute = s.outputs.execute := by
    rw [h.outputs, Outputs.next_execute_of_faulted hfault']
  refine
    { ended := ?_
      memory := hbus
      held := by rw [h.outputs, Outputs.next_memory_of_faulted hfault, hm]
      final := ?_
      quiet := ?_
      again := fun hfetch => ?_ }
  · exact hover
  · rw [flags_step, Simulation.executed]
    rcases Sequential.end_cases ha hover with ⟨hok, hbad⟩ | hfetch
    · have hflags : τ.beyond.core.flags = τ.core.flags := by
        rw [Sequential.beyond_of_badAddress hok hbad]
      cases hgap : τ.gap with
      | zero =>
        rw [hgap] at hX
        rw [Sequential.finalFlags, if_pos ⟨hbad, hgap⟩, hX.2.1, hX.1, hflags]
      | succ n =>
        rw [hgap] at hX
        rw [Sequential.finalFlags, if_neg (fun he => by rw [hgap] at he; cases he.2), hX.2.1, hX.1,
          hflags, executeStage_bubble]
    · rw [Sequential.gap_of_isTerminal ha hfetch, Sequential.beyond_of_isTerminal hfetch] at hX
      rw [Sequential.finalFlags_of_isTerminal hfetch, hX.2.1, hX.1,
        flags_executeStage (Sequential.setFlags_executeSlot hfetch)]
  · rw [hexecute, flags_step, Simulation.executed]
    exact congrArg Prod.snd (executeStage_again _ _)
  · rw [Sequential.gap_of_isTerminal ha hfetch, Sequential.beyond_of_isTerminal hfetch] at hX
    obtain ⟨-, hx, hD⟩ := hX
    refine ⟨hexecute.trans hx, ?_⟩
    rw [h.outputs, Outputs.next_decode_of_faulted hfault']
    exact (Outputs.behind_iff_of_isTerminal ha hfetch).1 hD

/-- What an instruction in memory comes to when it goes on to writeback. -/
theorem memory_step_slot (h : s.Flows code map) (hτ : τ.Runs code map) (ha : τ.Alive)
    (hclear : τ.step.Clear) (hb : s.hazards.faulted.write = false) (hbus : s.bus = τ.bus)
    (hM : s.outputs.AtMemory s.core.flags τ 0) (hregisters : s.retiredTo = τ.core.registers)
    (hw : s.supplied.write.Redundant s.retiredTo) :
    s.step.outputs.Front s.step.core.flags s.step.bus τ 0 := by
  obtain ⟨hm, hX⟩ := hM
  have haccessed : s.accessed.1 = τ.writeSlot := by
    rw [Simulation.accessed, hm, hbus]
    rfl
  have hbus' : s.accessed.2 = τ.step.bus := by
    rw [Simulation.accessed, hm, hbus, Sequential.bus_step ha]
  have hwrite : s.step.outputs.write = τ.writeSlot := by
    rw [h.outputs, Outputs.next_write h.flight hb]
    exact haccessed
  have hfault := faulted_memory hm hbus hb
  refine ⟨hwrite, ?_⟩
  by_cases hnext : τ.step.Alive
  · rw [(Sequential.alive_step_iff ha).1 hnext] at hfault
    rw [Sequential.beyond_of_alive_step ha hnext] at hX
    refine .inr ⟨hnext, hbus', h.execute_step hτ.step hnext hclear hfault hX (fun hgap hmis => ?_)
      hw ?_⟩
    · rw [hm] at hmis
      have htwo := Sequential.two_le_gap_of_mispredicted ha hmis
      omega
    · intro r
      have hsupplied : s.supplied.memory = τ.writeSlot.producer := by
        have hfrom := τ.writeSlot_from
        rw [WriteSlot.producer, hfrom.dst, hfrom.writeSignals, hfrom.result, ← haccessed, ← hm]
        rfl
      rw [hsupplied, hregisters]
      exact Sequential.carries_writeSlot ha hnext r
  · have hterm : τ.writeSlot.status.isTerminal = true := by
      rw [← Sequential.status_step ha]
      exact eq_true_of_ne_false hnext
    exact .inl (h.ending_step ha hbus' hm hX (hfault.trans hterm) hnext)

theorem memory_step (h : s.Flows code map) (hτ : τ.Runs code map) (ha : τ.Alive)
    (hclear : τ.Clear) (hclear' : τ.step.Clear) (hb : s.hazards.faulted.write = false)
    (hbus : s.bus = τ.bus) (hM : s.outputs.AtMemory s.core.flags τ d)
    (hregisters : s.retiredTo = τ.core.registers)
    (hw : s.supplied.write.Redundant s.retiredTo) :
    s.step.outputs.Front s.step.core.flags s.step.bus τ d := by
  cases d with
  | zero => exact h.memory_step_slot hτ ha hclear' hb hbus hM hregisters hw
  | succ d =>
    obtain ⟨⟨c, hm⟩, hX⟩ := hM
    have haccessed : s.accessed = ({}, s.bus) := by
      rw [Simulation.accessed, hm, memoryStage_idle]
    have hfault := faulted_memory_bubble hm hb
    refine ⟨?_, ?_, h.execute_step hτ ha hclear hfault hX (fun _ hmis => ?_) hw fun r => ?_⟩
    · rw [h.outputs, Outputs.next_write h.flight hb]
      exact congrArg Prod.fst haccessed
    · rw [bus_step, haccessed]
      exact hbus
    · rw [hm] at hmis
      cases hmis.1
    · rw [← hregisters]
      refine Producer.carries_of_disabled ?_ _ r
      change s.outputs.memory.writeSignals.enable = false
      rw [hm]

end Flows

end Simulation

end FiveStage
