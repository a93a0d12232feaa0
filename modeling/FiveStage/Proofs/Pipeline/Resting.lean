import FiveStage.Proofs.Pipeline.Conclusion

/-!
# Where the program counter comes to rest

While an instruction that ends the program is in the pipeline, fetch holds the address that it was
predicted to be at. An instruction that a return or a correction leads to was not predicted: fetch
holds an address of the path that was, and goes on from there in every cycle.

* `Sequential.after`, `Sequential.onward` : where fetch goes on from an address, and what it is left
  with there;
* `Sequential.heldBehind`, `Sequential.heldAt` : the address that fetch holds if the program ends
  with the next instruction, and with a given one;
* `Outputs.Holds`, `Outputs.HoldsFront` : fetch holds an address, as seen from the instruction that
  is to end the program, and from the first one of the window;
* `Simulation.Flows.holds_execute_step`, `Simulation.Flows.holds_memory_step` : one cycle;
* `Simulation.exists_holds` : every cycle of a run;
* `Simulation.pc_of_halt` : the program counter after a halt.
-/

namespace FiveStage

namespace Sequential

variable {s : Sequential} {q : Word}

/-- The machine at another address. -/
def goto (s : Sequential) (pc : Word) : Sequential := { s with core.pc := pc }

/-- Where fetch goes on after an address. -/
def after (s : Sequential) (pc : Word) : Word := (s.goto pc).fetchedSlots.1.predicted

/-- What fetch holds after it has been at an address: what ends the program there keeps it. -/
def onward (s : Sequential) (pc : Word) : Word :=
  if (s.goto pc).fetchedStatus.isTerminal then pc else s.after pc

/-- The address that fetch holds while what comes behind the instruction at the program counter ends
the program. A branch that is not taken after all has been followed for two instructions. -/
def heldBehind (s : Sequential) : Word :=
  if s.fallsThrough then s.after (s.onward (s.after s.core.pc)) else s.after s.core.pc

/-- The same, of an instruction that may have ended the program itself while `q` was held. -/
def heldAfter (s : Sequential) (q : Word) : Word :=
  if s.fetchedStatus = .ok then s.heldBehind else q

/-- The address that fetch holds if the program ends with the instruction behind the first `k`. -/
def heldAt (s : Sequential) : Nat → Word
  | 0 => s.core.pc
  | k + 1 => (s.run k).heldBehind

theorem heldAfter_heldAt (s : Sequential) {k : Nat} (h : (s.run k).fetchedStatus = .ok) :
    (s.run k).heldAfter (s.heldAt k) = s.heldAt (k + 1) := if_pos h

theorem fetchedSlots_eq (h : s.core.pc ≠ 0) :
    s.fetchedSlots.1 = ⟨s.after s.core.pc, .ok⟩ := by
  change s.fetchedSlots.1 = ⟨s.fetchedSlots.1.predicted, .ok⟩
  rw [fetchedSlots_of_pc_ne_zero h]

theorem next_eq_after (ha : s.Alive) (h : s.fetchedStatus = .ok) (hf : s.fallsThrough = false)
    (hr : s.returns = false) : s.next = s.after s.core.pc := by
  have hslots := fetchedSlots_eq (pc_ne_zero h)
  rw [fetchedSlots_of_pc_ne_zero (pc_ne_zero h)] at hslots
  rw [next_eq_nextPredicted ha h hf hr]
  exact congrArg FetchSlot.predicted hslots

theorem Runs.goto {code : Memory} {map : SegmentMap} (h : s.Runs code map) (pc : Word) :
    (s.goto pc).Runs code map := ⟨h.keeps, h.segments⟩

/-- What fetch is left with after it has been at an address. -/
theorem onward_eq (s : Sequential) (pc : Word) :
    (if (s.goto pc).fetchedStatus.isTerminal then (⟨pc, .ok⟩ : FetchSlot)
      else (s.goto pc).fetchedSlots.1) = ⟨s.onward pc, .ok⟩ := by
  unfold onward
  cases hterm : (s.goto pc).fetchedStatus.isTerminal with
  | true => rfl
  | false =>
    have hpc : (s.goto pc).core.pc ≠ 0 := by
      intro hzero
      rw [fetchedStatus, if_pos hzero] at hterm
      cases hterm
    exact fetchedSlots_eq hpc

end Sequential

/-! ## What fetch holds -/

namespace Outputs

/-- If the instruction at the program counter of `τ` ends the program, fetch holds `q`. -/
def Holds (o : Outputs) (τ : Sequential) (q : Word) : Prop :=
  τ.fetchedStatus.isTerminal = true → o.fetch = ⟨q, .ok⟩

/-- What fetch holds when the instruction at the program counter of `τ` is in execute. -/
def HoldsBehind (o : Outputs) (τ : Sequential) (q : Word) : Prop :=
  if τ.fallsThrough then o.fetch = ⟨τ.onward (τ.after τ.core.pc), .ok⟩
  else o.Holds τ.beyond (τ.heldAfter q)

/-- The same, when it comes to execute in so many cycles. -/
def HoldsExecute (o : Outputs) (τ : Sequential) (q : Word) : Nat → Prop
  | 0 => o.HoldsBehind τ q
  | _ + 1 => o.Holds τ q

/-- The same, when it comes to memory in so many cycles. -/
def HoldsMemory (o : Outputs) (τ : Sequential) (q : Word) : Nat → Prop
  | 0 => o.HoldsExecute τ.beyond (τ.heldAfter q) τ.gap
  | d + 1 => o.HoldsExecute τ q d

/-- The same, when it comes to writeback in so many cycles. Behind a refused access, anything may be
held. -/
def HoldsFront (o : Outputs) (τ : Sequential) (q : Word) : Nat → Prop
  | 0 => τ.writeSlot.status ≠ .badAddress → o.HoldsMemory τ.beyond (τ.heldAfter q) τ.gap
  | d + 1 => o.HoldsMemory τ q d

variable {o : Outputs} {τ : Sequential} {q : Word}

theorem holdsBehind_iff_of_isTerminal (ha : τ.Alive) (h : τ.fetchedStatus.isTerminal = true) :
    o.HoldsBehind τ q ↔ o.Holds τ q := by
  rw [HoldsBehind, Sequential.fallsThrough_of_isTerminal ha h, if_neg Bool.false_ne_true,
    Sequential.beyond_of_isTerminal h, Sequential.heldAfter,
    if_neg (Status.ne_ok_of_isTerminal h)]

theorem holdsMemory_iff_of_isTerminal (ha : τ.Alive) (h : τ.fetchedStatus.isTerminal = true) :
    o.HoldsMemory τ q 0 ↔ o.Holds τ q := by
  rw [HoldsMemory, Sequential.gap_of_isTerminal ha h, Sequential.beyond_of_isTerminal h,
    Sequential.heldAfter, if_neg (Status.ne_ok_of_isTerminal h)]
  exact holdsBehind_iff_of_isTerminal ha h

theorem holdsFront_iff_of_isTerminal (ha : τ.Alive) (h : τ.fetchedStatus.isTerminal = true) :
    o.HoldsFront τ q 0 ↔ o.Holds τ q := by
  have hne : τ.writeSlot.status ≠ .badAddress := by
    rw [Sequential.status_writeSlot_of_isTerminal h]
    exact τ.fetchedStatus_ne_badAddress
  rw [HoldsFront, Sequential.gap_of_isTerminal ha h, Sequential.beyond_of_isTerminal h,
    Sequential.heldAfter, if_neg (Status.ne_ok_of_isTerminal h), forall_prop_of_true hne]
  exact holdsMemory_iff_of_isTerminal ha h

end Outputs

/-! ## One cycle -/

/-- Fetch waits for a hazard, and for what ends the program unless it is behind a misprediction. -/
theorem Outputs.next_fetch {o staged : Outputs} {i : HazardInputs}
    (h : i.faulted.execute = true ∨ i.detect.mispredict = false ∧
      (i.detect.ret || i.detect.loadUse || i.statuses.fetch.isTerminal ||
        i.statuses.decode.isTerminal) = true) :
    (o.next staged i.control).fetch = o.fetch := by
  have hstall : i.control.fetch.stall = true := by
    change (i.detect.ret || i.detect.loadUse ||
      ((!i.detect.mispredict && i.statuses.fetch.isTerminal) ||
        ((!i.detect.mispredict && i.statuses.decode.isTerminal) || i.faulted.execute)) ||
      i.detect.missInFlight) = true
    rcases h with h | ⟨hm, h⟩
    · simp [h]
    · rw [hm]
      simp only [Bool.or_eq_true] at h
      rcases h with ((h | h) | h) | h <;> simp [h]
  exact if_pos hstall

namespace Simulation

variable {s : Simulation} {τ : Sequential} {code : Memory} {map : SegmentMap} {q : Word} {d : Nat}

namespace Flows

theorem fetched_goto (h : s.Flows code map) (hτ : τ.Runs code map) {pc : Word}
    (hfetch : s.outputs.fetch = ⟨pc, .ok⟩)
    (hsel : selectPc s.outputs.fetch s.outputs.execute s.outputs.memory =
      s.outputs.fetch.predicted) : s.fetched = (τ.goto pc).fetchedSlots := by
  refine h.fetched_eq (hτ.goto pc) (by rw [hfetch]) ?_
  rw [hsel, hfetch]
  rfl

theorem fetch_of_held (h : s.Flows code map) (hheld : s.hazards.faulted.execute = true ∨
    s.hazards.detect.mispredict = false ∧
      (s.hazards.detect.ret || s.hazards.detect.loadUse || s.hazards.statuses.fetch.isTerminal ||
        s.hazards.statuses.decode.isTerminal) = true) :
    s.step.outputs.fetch = s.outputs.fetch := by
  rw [h.outputs]
  exact Outputs.next_fetch hheld

/-- What ends the program is fetched. -/
theorem holds_step_bubble (h : s.Flows code map) (hτ : τ.Runs code map)
    (hm : s.hazards.detect.mispredict = false) (hF : s.outputs.AtFetch τ)
    (hq : s.outputs.Holds τ q) : s.step.outputs.Holds τ q := by
  intro hterm
  obtain ⟨-, hs, hpc⟩ := hF
  have hfetch : s.hazards.statuses.fetch.isTerminal = true := by
    change s.fetched.2.status.isTerminal = true
    rw [h.fetched_eq hτ hs hpc]
    change τ.decodeSlot.status.isTerminal = true
    rw [τ.status_decodeSlot]
    exact hterm
  rw [h.fetch_of_held (.inr ⟨hm, by rw [hfetch]; simp⟩)]
  exact hq hterm

/-- Behind a branch that is not taken, fetch goes on with the path that was predicted. -/
theorem holds_wrong_path (h : s.Flows code map) (hτ : τ.Runs code map)
    (hm : s.hazards.detect.mispredict = false) (hx : s.hazards.faulted.execute = false)
    (hfetch : s.outputs.fetch = ⟨τ.after τ.core.pc, .ok⟩)
    (hsel : selectPc s.outputs.fetch s.outputs.execute s.outputs.memory =
      s.outputs.fetch.predicted)
    (hret : s.hazards.detect.ret = false) (hload : s.hazards.detect.loadUse = false)
    (hgoes : s.hazards.statuses.decode.isTerminal = false) :
    s.step.outputs.fetch = ⟨τ.onward (τ.after τ.core.pc), .ok⟩ := by
  have hfetched := h.fetched_goto hτ hfetch hsel
  have hstatus : s.hazards.statuses.fetch = (τ.goto (τ.after τ.core.pc)).fetchedStatus := by
    change s.fetched.2.status = _
    rw [hfetched]
    exact (τ.goto _).status_decodeSlot
  have hstaged : s.staged.fetch = (τ.goto (τ.after τ.core.pc)).fetchedSlots.1 :=
    congrArg Prod.fst hfetched
  obtain ⟨-, -, hF⟩ := s.outputs.next_of_clear s.staged h.flight hx hm
  rw [← h.outputs, hret, hload, hgoes, hstatus, hstaged, hfetch] at hF
  rw [hF, ← Sequential.onward_eq]
  simp only [Bool.false_or, Bool.or_false]

/-- Behind every other instruction, fetch keeps what was predicted if it ends the program, and waits
there for the target of a return. -/
theorem holds_predicted (h : s.Flows code map) (hτ : τ.Runs code map) (ha : τ.Alive)
    (hok : τ.fetchedStatus = .ok) (hm : s.hazards.detect.mispredict = false)
    (hfetch : s.outputs.fetch = ⟨τ.after τ.core.pc, .ok⟩)
    (hsel : selectPc s.outputs.fetch s.outputs.execute s.outputs.memory =
      s.outputs.fetch.predicted)
    (hfall : τ.fallsThrough = false) (hret : s.hazards.detect.ret = τ.returns) :
    s.step.outputs.Holds τ.beyond (τ.heldAfter q) := by
  intro hterm
  have hheld : (s.hazards.detect.ret || s.hazards.statuses.fetch.isTerminal) = true := by
    rw [hret]
    cases hr : τ.returns with
    | true => rfl
    | false =>
      have hpc : s.outputs.fetch.predicted = τ.beyond.core.pc := by
        rw [Sequential.pc_beyond ha hok, Sequential.next_eq_after ha hok hfall hr, hfetch]
      change s.fetched.2.status.isTerminal = true
      rw [h.fetched_eq hτ.beyond (by rw [hfetch]) (hsel.trans hpc)]
      change τ.beyond.decodeSlot.status.isTerminal = true
      rw [τ.beyond.status_decodeSlot]
      exact hterm
  rw [Sequential.heldAfter, if_pos hok, Sequential.heldBehind, hfall, if_neg Bool.false_ne_true,
    ← hfetch]
  refine h.fetch_of_held (.inr ⟨hm, ?_⟩)
  simp only [Bool.or_eq_true] at hheld ⊢
  rcases hheld with hheld | hheld <;> simp [hheld]

/-- An instruction goes from decode to execute. -/
theorem holds_step_slot (h : s.Flows code map) (hτ : τ.Runs code map) (ha : τ.Alive)
    (hm : s.hazards.detect.mispredict = false) (hx : s.hazards.faulted.execute = false)
    (hin : s.outputs.InDecode τ)
    (hsel : selectPc s.outputs.fetch s.outputs.execute s.outputs.memory =
      s.outputs.fetch.predicted)
    (hload : s.hazards.detect.loadUse = false) (hq : s.outputs.Holds τ q) :
    s.step.outputs.HoldsBehind τ q := by
  obtain ⟨hd, hf⟩ := hin
  have hdecode : s.hazards.statuses.decode = τ.fetchedStatus := by
    change s.outputs.decode.status = _
    rw [hd, τ.status_decodeSlot]
  rcases τ.fetchedStatus_cases with hok | hterm
  · have hfetch : s.outputs.fetch = ⟨τ.after τ.core.pc, .ok⟩ :=
      (hf hok).trans (Sequential.fetchedSlots_eq (Sequential.pc_ne_zero hok))
    have hret := ret_decode ha hd hm hload
    unfold Outputs.HoldsBehind
    cases hfall : τ.fallsThrough with
    | true =>
      have hr : τ.returns = false := by
        rw [Sequential.returns_eq ha, ((Sequential.fallsThrough_iff ha hok).1 hfall).1]
        rfl
      rw [if_pos rfl]
      refine h.holds_wrong_path hτ hm hx hfetch hsel (hret.trans hr) hload ?_
      rw [hdecode, hok]
      rfl
    | false =>
      rw [if_neg Bool.false_ne_true]
      exact h.holds_predicted hτ ha hok hm hfetch hsel hfall hret
  · rw [Outputs.holdsBehind_iff_of_isTerminal ha hterm]
    intro _
    rw [h.fetch_of_held (.inr ⟨hm, by rw [hdecode, hterm, Bool.or_true]⟩)]
    exact hq hterm

/-- A branch that is not taken leads away from the path that fetch goes on with. -/
theorem holds_squash_step (h : s.Flows code map) (hτ : τ.Runs code map)
    (hok : τ.fetchedStatus = .ok) (hfault : s.hazards.faulted.execute = false)
    (hmispredict : s.hazards.detect.mispredict = true) (hfall : τ.fallsThrough = true)
    (hsel : selectPc s.outputs.fetch s.outputs.execute s.outputs.memory =
      s.outputs.fetch.predicted)
    (hq : s.outputs.HoldsBehind τ q) (hne : s.outputs.fetch.predicted ≠ 0) :
    s.step.outputs.Holds τ.beyond (τ.heldAfter q) := by
  intro _
  rw [Outputs.HoldsBehind, if_pos hfall] at hq
  rw [hq] at hne
  obtain ⟨hF, -, -⟩ := s.outputs.next_of_mispredict s.staged h.flight hfault hmispredict
  rw [h.outputs, hF, Sequential.heldAfter, if_pos hok, Sequential.heldBehind, if_pos hfall]
  have hfetched := congrArg Prod.fst (h.fetched_goto hτ hq hsel)
  exact hfetched.trans (Sequential.fetchedSlots_eq (s := τ.goto _) hne)

/-- What follows an instruction comes behind it, at once or with a bubble between them. -/
theorem holds_follow_step (h : s.Flows code map) (hτ : τ.Runs code map) (ha : τ.Alive)
    (hok : τ.fetchedStatus = .ok) (hfault : s.hazards.faulted.execute = false)
    (hX : s.outputs.AtExecute s.core.flags τ 0) (hfall : τ.fallsThrough = false)
    (hM : ¬ (s.outputs.memory.opcode = .bCond ∧ s.outputs.memory.condHolds = false))
    (hq : s.outputs.HoldsBehind τ q) :
    s.step.outputs.HoldsExecute τ.beyond (τ.heldAfter q) τ.gap := by
  have hdetect := detect_execute ha hX h.flight
  obtain ⟨-, hx, hD⟩ := hX
  have hmispredict : s.hazards.detect.mispredict = false := by
    rw [hdetect]
    exact hfall
  rw [Outputs.Behind, hfall, if_neg Bool.false_ne_true] at hD
  rw [Outputs.HoldsBehind, hfall, if_neg Bool.false_ne_true] at hq
  cases hr : τ.returns with
  | true =>
    have hgap : τ.gap = 1 := by rw [Sequential.gap, hfall, hr]; rfl
    rw [hr] at hD
    rw [hgap]
    exact h.holds_step_bubble hτ.beyond hmispredict hD hq
  | false =>
    rw [hr] at hD
    have hload : s.hazards.detect.loadUse = τ.delaysNext := by rw [hdetect]; rfl
    cases hl : τ.delaysNext with
    | true =>
      have hgap : τ.gap = 1 := by rw [Sequential.gap, hfall, hr, hl]; rfl
      rw [hgap]
      intro hterm
      rw [h.fetch_of_held (.inr ⟨hmispredict, by rw [hload, hl]; simp⟩)]
      exact hq hterm
    | false =>
      have hgap : τ.gap = 0 := by rw [Sequential.gap, hfall, hr, hl]; rfl
      have hret : s.outputs.execute.opcode ≠ .ret := by
        rw [hx]
        intro hop
        rw [(Sequential.returns_iff ha hok).2 hop] at hr
        cases hr
      rw [hgap]
      exact h.holds_step_slot hτ.beyond (Sequential.alive_beyond ha) hmispredict hfault hD
        (selectPc_eq hret hM) (hload.trans hl) hq

/-- An instruction goes from execute to memory. -/
theorem holds_execute_slot (h : s.Flows code map) (hτ : τ.Runs code map) (ha : τ.Alive)
    (hclear : τ.Clear) (hb : s.hazards.faulted.memory = false)
    (hX : s.outputs.AtExecute s.core.flags τ 0)
    (hM : ¬ (s.outputs.memory.opcode = .bCond ∧ s.outputs.memory.condHolds = false))
    (hq : s.outputs.HoldsBehind τ q) : s.step.outputs.HoldsMemory τ q 0 := by
  have hfault := faulted_execute hX.2.1 hX.1 hb
  rcases τ.fetchedStatus_cases with hok | hterm
  · rw [hok] at hfault
    change s.step.outputs.HoldsExecute τ.beyond (τ.heldAfter q) τ.gap
    cases hfall : τ.fallsThrough with
    | true =>
      obtain ⟨hflags, hx, hD⟩ := hX
      have hret : s.outputs.execute.opcode ≠ .ret := by
        rw [hx, ((Sequential.fallsThrough_iff ha hok).1 hfall).1]
        nofun
      have hgap : τ.gap = 2 := if_pos hfall
      rw [Outputs.Behind, hfall, if_pos rfl] at hD
      rw [hgap]
      exact h.holds_squash_step hτ hok hfault ((mispredict_execute ha hx hflags).trans hfall) hfall
        (selectPc_eq hret hM) hq (hD hclear).2
    | false => exact h.holds_follow_step hτ ha hok hfault hX hfall hM hq
  · rw [hterm] at hfault
    rw [Outputs.holdsBehind_iff_of_isTerminal ha hterm] at hq
    rw [Outputs.holdsMemory_iff_of_isTerminal ha hterm]
    intro _
    rw [h.fetch_of_held (.inl hfault)]
    exact hq hterm

theorem holds_execute_step (h : s.Flows code map) (hτ : τ.Runs code map) (ha : τ.Alive)
    (hclear : τ.Clear) (hb : s.hazards.faulted.memory = false)
    (hX : s.outputs.AtExecute s.core.flags τ d)
    (hM : d < 2 → ¬ (s.outputs.memory.opcode = .bCond ∧ s.outputs.memory.condHolds = false))
    (hq : s.outputs.HoldsExecute τ q d) : s.step.outputs.HoldsMemory τ q d := by
  match d, hX with
  | 0, hX => exact h.holds_execute_slot hτ ha hclear hb hX (hM (by decide)) hq
  | 1, hX =>
    have hdetect := detect_execute ha hX h.flight
    obtain ⟨hflags, hx, hD⟩ := hX
    have hfault := faulted_execute_bubble hx hb
    have hret : s.outputs.execute.opcode ≠ .ret := by
      rw [hx]
      nofun
    exact h.holds_step_slot hτ ha (by rw [hdetect]; rfl) hfault hD
      (selectPc_eq hret (hM (by decide))) (by rw [hdetect]; rfl) hq
  | 2, hX =>
    have hdetect := detect_execute ha hX h.flight
    exact h.holds_step_bubble hτ (by rw [hdetect]; rfl) hX.2.2 hq

theorem holds_memory_step (h : s.Flows code map) (hτ : τ.Runs code map) (ha : τ.Alive)
    (hclear : τ.Clear) (hclear' : τ.step.Clear) (hb : s.hazards.faulted.write = false)
    (hbus : s.bus = τ.bus) (hM : s.outputs.AtMemory s.core.flags τ d)
    (hq : s.outputs.HoldsMemory τ q d) : s.step.outputs.HoldsFront τ q d := by
  cases d with
  | zero =>
    obtain ⟨hm, hX⟩ := hM
    have hfault := faulted_memory hm hbus hb
    by_cases hnext : τ.step.Alive
    · rw [(Sequential.alive_step_iff ha).1 hnext] at hfault
      have hbeyond := Sequential.beyond_of_alive_step ha hnext
      intro _
      rw [hbeyond] at hX ⊢
      rw [Outputs.HoldsMemory, hbeyond] at hq
      refine h.holds_execute_step hτ.step hnext hclear' hfault hX (fun hgap hmis => ?_) hq
      rw [hm] at hmis
      have htwo := Sequential.two_le_gap_of_mispredicted ha hmis
      omega
    · rcases Sequential.end_cases ha hnext with ⟨-, hbad⟩ | hterm
      · exact fun hne => absurd hbad hne
      · rw [Sequential.status_writeSlot_of_isTerminal hterm, hterm] at hfault
        rw [Outputs.holdsMemory_iff_of_isTerminal ha hterm] at hq
        rw [Outputs.holdsFront_iff_of_isTerminal ha hterm]
        intro _
        rw [h.fetch_of_held (.inl (HazardInputs.faulted_execute_of_memory hfault))]
        exact hq hterm
  | succ d =>
    obtain ⟨⟨c, hm⟩, hX⟩ := hM
    have hfault := faulted_memory_bubble hm hb
    refine h.holds_execute_step hτ ha hclear hfault hX (fun _ hmis => ?_) hq
    rw [hm] at hmis
    cases hmis.1

end Flows

/-! ## A run -/

namespace Paced

variable {σ : Sequential}

theorem holds_wait (h : s.Paced code map σ (d + 1)) (hclear : σ.StaysClear)
    (hq : s.outputs.HoldsFront σ q (d + 1)) : s.step.outputs.HoldsFront σ q d := by
  obtain ⟨hwrite, hbus, hM⟩ := h.front
  have hw : s.outputs.write.status.isTerminal = false := by
    rw [hwrite]
    rfl
  exact h.flows.holds_memory_step h.runs h.alive (hclear 0) (hclear 1) hw hbus hM hq

theorem holds_retire (h : s.Paced code map σ 0) (hnext : σ.step.Alive) (hclear : σ.StaysClear)
    (hq : s.outputs.HoldsFront σ q 0) : s.step.outputs.HoldsFront σ.step (σ.heldAfter q) σ.gap := by
  obtain ⟨hwrite, hend⟩ := h.front
  obtain ⟨-, hbus, hM⟩ := hend.resolve_left fun hend => hend.ended hnext
  have hok := Sequential.status_writeSlot_of_alive_step h.alive hnext
  have hw : s.outputs.write.status.isTerminal = false := by
    rw [hwrite, hok]
    rfl
  have hq' := hq (by rw [hok]; nofun)
  rw [Sequential.beyond_of_alive_step h.alive hnext] at hq'
  exact h.flows.holds_memory_step h.runs.step hnext (hclear 1) (hclear 2) hw hbus hM hq'

/-- The last cycle fetches once more from the address that fetch holds. -/
theorem holds_finish (h : s.Paced code map σ d) (hw : s.outputs.write.status.isTerminal = true)
    (hterm : σ.fetchedStatus.isTerminal = true) (hq : s.outputs.HoldsFront σ q d) :
    s.step.core.pc = σ.after q := by
  obtain ⟨rfl, -, hend⟩ := h.ending hw
  rw [Outputs.holdsFront_iff_of_isTerminal h.alive hterm] at hq
  have hfetch := hq hterm
  obtain ⟨hexecute, -⟩ := hend.again hterm
  have hret : s.outputs.execute.opcode ≠ .ret := by
    rw [hexecute]
    exact Sequential.opcode_ne_of_isTerminal hterm rfl
  have hmis : ¬ (s.outputs.memory.opcode = .bCond ∧ s.outputs.memory.condHolds = false) := by
    rw [hend.held, σ.memorySlot_from.opcode]
    exact fun he => Sequential.opcode_ne_of_isTerminal hterm rfl he.1
  have hfetched := h.flows.fetched_goto h.runs hfetch (Flows.selectPc_eq hret hmis)
  rw [step_eq, hfetched]
  rfl

end Paced

/-- In every cycle of a run, it is known what fetch holds if the program ends. -/
theorem exists_holds {map : SegmentMap} {m : Memory} (hcode : map.ProtectsCode) (entry : Word)
    (hclear : (Sequential.start entry m map).StaysClear) (backend : Backend) (limit n : Nat)
    (hrun : ∀ i, i < n + 1 →
      ((start entry (Bus.start m map none) backend limit).steps i).finished = false) :
    let s := (start entry (Bus.start m map none) backend limit).steps n
    let σ := Sequential.start entry m map
    ∃ k d, s.Underway m map σ k d ∧ s.outputs.HoldsFront (σ.run k) (σ.heldAt k) d := by
  induction n with
  | zero => exact ⟨0, 4, underway_start hcode entry m backend limit, fun _ => rfl⟩
  | succ n ih =>
    intro s σ
    obtain ⟨k, d, h, hq⟩ := ih fun i hi => hrun i (Nat.lt_succ_of_lt hi)
    have hstays := hclear.run k
    cases d with
    | succ d => exact ⟨k, d, (h.wait hclear).2, h.paced.holds_wait hstays hq⟩
    | zero =>
      have hnext : (σ.run k).step.Alive := by
        have hfin := hrun (n + 1) (Nat.lt_succ_self _)
        rw [steps, finished, status_step, h.paced.front.1] at hfin
        exact (Sequential.alive_step_iff h.paced.alive).2 hfin
      have hok := Sequential.fetchedStatus_of_alive_step h.paced.alive hnext
      refine ⟨k + 1, _, (h.retire hclear (by rw [Sequential.run_succ]; exact hnext)).2, ?_⟩
      rw [Sequential.run_succ, ← Sequential.heldAfter_heldAt σ hok]
      exact h.paced.holds_retire hnext hstays hq

/-- The program counter after a run without a cache, unless a refused access ends it. -/
theorem exists_pc {map : SegmentMap} {m : Memory} (hcode : map.ProtectsCode) (entry : Word)
    (hclear : (Sequential.start entry m map).StaysClear) (backend : Backend) (limit k : Nat)
    (ha : ((Sequential.start entry m map).run k).Alive)
    (hterm : ((Sequential.start entry m map).run k).fetchedStatus.isTerminal = true) :
    let s := start entry (Bus.start m map none) backend limit
    let σ := Sequential.start entry m map
    ∃ n, (∀ i, i < n → (s.steps i).finished = false) ∧ (s.steps n).finished = true ∧
      (s.steps n).core.pc = (σ.run k).after (σ.heldAt k) := by
  intro s σ
  obtain ⟨n, hbefore, hunderway⟩ := exists_underway hcode entry hclear backend limit k ha
  obtain ⟨k', d, hunderway', hq⟩ := exists_holds hcode entry hclear backend limit n hbefore
  obtain rfl : k' = k := hunderway'.retired.symm.trans hunderway.retired
  have hw : (s.steps n).outputs.write.status.isTerminal = true := by
    rw [hunderway.paced.front.1, Sequential.status_writeSlot_of_isTerminal hterm]
    exact hterm
  refine ⟨n + 1, hbefore, ?_, hunderway'.paced.holds_finish hw hterm hq⟩
  rw [steps, finished, status_step]
  exact hw

end Simulation

namespace Sequential

variable {s : Sequential}

/-- What is not reached by a return or a correction is held where it is. -/
theorem heldAt_eq (s : Sequential) {k : Nat} (ha : (s.run k).Alive)
    (h : ∀ j, k = j + 1 → (s.run j).returns = false ∧ (s.run j).fallsThrough = false) :
    s.heldAt k = (s.run k).core.pc := by
  cases k with
  | zero => rfl
  | succ k =>
    obtain ⟨hr, hf⟩ := h k rfl
    have ha' := s.alive_of_le (Nat.le_succ k) ha
    rw [run_succ] at ha ⊢
    have hok := fetchedStatus_of_alive_step ha' ha
    rw [heldAt, heldBehind, hf, if_neg Bool.false_ne_true, ← next_eq_after ha' hok hf hr,
      ← pc_beyond ha' hok, beyond_of_alive_step ha' ha]

/-- Fetch goes on right behind a halt instruction. -/
theorem after_of_halt (hpc : s.core.pc ≠ 0) (h : s.fetchedStatus = .halt) :
    s.after s.core.pc = s.core.pc + 4 := by
  have hop : s.fetched.2 = .hlt := by
    rw [fetchedStatus, if_neg hpc] at h
    cases hop : s.fetched.2 <;> rw [hop] at h <;> first | rfl | cases h
  have hslots := fetchedSlots_of_pc_ne_zero hpc
  have hafter : s.after s.core.pc = nextPredicted s.core.pc s.fetched.1 s.fetched.2 :=
    congrArg (fun p => p.1.predicted) hslots
  rw [hafter, hop]
  rfl

end Sequential

namespace Simulation

/-- A run that halts leaves the program counter where fetch goes on from the address it holds. That
is behind the halt instruction, unless a return or a branch that is not taken has led there: fetch
then holds an address of the path that was predicted. -/
theorem pc_of_halt (entry : Word) (m : Memory) (map : SegmentMap) (cache : Option Geometry)
    (backend : Backend) (limit : Nat) (hcode : map.ProtectsCode)
    (hspecial : ∀ g, cache = some g → g.AvoidsSpecial map)
    (hclear : (Sequential.start entry m map).StaysClear)
    (hhalt : (start entry (Bus.start m map cache) backend limit).run.core.status = .halt) :
    let s := (start entry (Bus.start m map cache) backend limit).run
    let σ := Sequential.start entry m map
    ∃ k, (σ.run k).core.status.isTerminal = false ∧ (σ.run k).step.core.status = .halt ∧
      s.core.pc = (σ.run k).after (σ.heldAt k) ∧
      ((σ.run k).core.pc ≠ 0 →
        (∀ j, k = j + 1 → (σ.run j).returns = false ∧ (σ.run j).fallsThrough = false) →
        s.core.pc = (σ.run k).core.pc + 4) := by
  intro s σ
  have hfin : s.finished = true := by rw [finished, hhalt]; rfl
  obtain ⟨k, ha, hover, hconcluded⟩ :=
    exists_of_run_finished hcode hspecial entry hclear backend limit hfin
  have hstatus : (σ.run k).step.core.status = .halt := by
    rw [← Sequential.run_succ]
    exact hconcluded.status.symm.trans hhalt
  rw [Sequential.run_succ] at hover
  have hterm := Sequential.fetchedStatus_of_end ha hover (by rw [hstatus]; decide)
  have hfetched : (σ.run k).fetchedStatus = .halt := by
    rw [← Sequential.status_writeSlot_of_isTerminal hterm, ← Sequential.status_step ha]
    exact hstatus
  obtain ⟨n, hbefore, hfinished, hpc⟩ := exists_pc hcode entry hclear backend limit k ha hterm
  have hrest : s.core.pc = (σ.run k).after (σ.heldAt k) := by
    obtain ⟨j, hj, hrunning, -⟩ :=
      exists_steps_of_run (s := start entry (Bus.start m map cache) backend limit)
        (Bus.keepsCode_start hcode m cache)
    have hfin' : ((start entry (Bus.start m map cache) backend limit).steps j).finished = true :=
      hj ▸ hfin
    change (start entry (Bus.start m map cache) backend limit).run.core.pc = _
    rw [hj]
    cases cache with
    | none =>
      obtain rfl : n = j :=
        Nat.le_antisymm (le_of_finished hbefore hfin') (le_of_finished hrunning hfinished)
      exact hpc
    | some g =>
      obtain ⟨i, -, hbefore', habreast, -⟩ :=
        exists_abreast_steps hcode (hspecial g rfl) entry m backend limit n hbefore
      obtain rfl : i = j := Nat.le_antisymm (le_of_finished hbefore' hfin')
        (le_of_finished hrunning (habreast.finished_eq.trans hfinished))
      exact habreast.pc.trans hpc
  refine ⟨k, ha, hstatus, hrest, fun hne hled => ?_⟩
  rw [hrest, σ.heldAt_eq ha hled, Sequential.after_of_halt hne hfetched]

/-- A call, and a halt instruction that the return from it leads to. -/
theorem pc_of_halt_return :
    let m := (Memory.empty.setWord textStart 0xD440000094000002).setWord (textStart + 8)
      0xD503201FD65F03C0
    let s := (start textStart (Bus.start m .default none) .serial 500).run
    let σ := Sequential.start textStart m .default
    s.core.status = .halt ∧
    ∃ k, (σ.run k).step.core.status = .halt ∧ s.core.pc = (σ.run k).after (σ.heldAt k) := by
  intro m
  have hclear : (Sequential.start textStart m .default).StaysClear :=
    Sequential.staysClear_of_end (n := 3) (by decide +kernel) (by decide +kernel)
  have hhalt : (start textStart (Bus.start m .default none) .serial 500).run.core.status =
      .halt := by decide +kernel
  obtain ⟨k, -, hstatus, hpc, -⟩ := pc_of_halt textStart m .default none .serial 500
    SegmentMap.protectsCode_default nofun hclear hhalt
  exact ⟨hhalt, k, hstatus, hpc⟩

/-- There, and where a branch that is not taken leads to the halt instruction, the program counter
comes to rest on the path that was predicted. -/
theorem pc_ne_of_halt :
    let called := (Memory.empty.setWord textStart 0xD440000094000002).setWord (textStart + 8)
      0xD503201FD65F03C0
    let branched := ((Memory.empty.setWord textStart 0xD440000054000041).setWord (textStart + 8)
      0xD503201FD503201F).setWord (textStart + 16) 0xD4400000
    let final (m : Memory) := (start textStart (Bus.start m .default none) .serial 500).run.core
    let τ := (Sequential.start textStart called .default).run 2
    let τ' := (Sequential.start textStart branched .default).run 1
    (τ.core.pc = textStart + 4 ∧ τ.fetched.2 = .hlt ∧ (final called).status = .halt ∧
      (final called).pc = textStart + 16) ∧
    τ'.core.pc = textStart + 4 ∧ τ'.fetched.2 = .hlt ∧ (final branched).status = .halt ∧
      (final branched).pc = textStart + 20 := by
  decide +kernel

end Simulation

end FiveStage
