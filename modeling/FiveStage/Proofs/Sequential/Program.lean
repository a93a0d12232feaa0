import FiveStage.Proofs.Sequential.Beyond

/-!
# Programs

* `Sequential.run_succ`, `Sequential.events_succ` : a program goes on by one instruction;
* `Sequential.exists_last`, `Sequential.executed_events` : a program that is over has a last
  instruction, and all were executed;
* `Bus.PredictsNonzero` : no instruction is predicted to be followed by address zero;
* `Sequential.StaysClear` : no branch that is not taken was predicted to lead there;
* `Sequential.Runs` : the machine runs the program that was loaded;
* `Sequential.Runs.staysClear`, `Sequential.staysClear_of_end` : which programs stay clear.
-/

namespace FiveStage

namespace Sequential

variable {s : Sequential}

/-! ## Instruction by instruction -/

theorem run_succ (s : Sequential) (n : Nat) : s.run (n + 1) = (s.run n).step := by
  rw [run_add]
  rfl

theorem events_succ (s : Sequential) (n : Nat) :
    s.events (n + 1) = (s.events n).add (s.run n).eventsOfStep := by
  induction n generalizing s with
  | zero => simp [events, run, Events.add, Events.none]
  | succ n ih =>
    rw [events, ih, events, run]
    simp only [Events.add, Nat.add_assoc]

theorem events_add (s : Sequential) (m n : Nat) :
    s.events (m + n) = (s.events m).add ((s.run m).events n) := by
  induction n with
  | zero => simp [events, Events.add, Events.none]
  | succ n ih =>
    rw [← Nat.add_assoc, events_succ, ih, events_succ, run_add]
    simp only [Events.add, Nat.add_assoc]

/-! ## The end of a program -/

/-- A program that is not over has not been over before. -/
theorem alive_of_le (s : Sequential) {i k : Nat} (hik : i ≤ k) (h : (s.run k).Alive) :
    (s.run i).Alive := by
  refine Bool.eq_false_iff.2 fun hterm => ?_
  obtain ⟨j, rfl⟩ := Nat.exists_eq_add_of_le hik
  rw [run_add, run_of_isTerminal hterm, Alive, hterm] at h
  cases h

/-- Every instruction of a program is executed, the one that ends it included. -/
theorem executed_events (s : Sequential) {k : Nat} (h : (s.run k).Alive) :
    (s.events (k + 1)).executed = k + 1 := by
  have hone : (s.run k).eventsOfStep.executed = 1 := if_neg (ne_true_of_eq_false h)
  have hevents : (s.events (k + 1)).executed = (s.events k).executed + 1 := by
    rw [events_succ, Events.add, hone]
  rw [hevents]
  cases k with
  | zero => rfl
  | succ k => rw [executed_events s (s.alive_of_le (Nat.le_succ k) h)]

/-- A program that is over after some instructions ends with one of them. -/
theorem exists_last {n : Nat} (ha : s.Alive) (h : (s.run n).core.status.isTerminal = true) :
    ∃ k, (s.run k).Alive ∧ ¬ (s.run (k + 1)).Alive ∧ s.run n = s.run (k + 1) ∧
      s.events n = s.events (k + 1) := by
  induction n with
  | zero =>
    rw [Alive, show s = s.run 0 from rfl, h] at ha
    cases ha
  | succ n ih =>
    cases hn : (s.run n).core.status.isTerminal with
    | false =>
      refine ⟨n, hn, fun h' => ?_, rfl, rfl⟩
      rw [Alive, h] at h'
      cases h'
    | true =>
      obtain ⟨k, hk, hover, hrun, hevents⟩ := ih hn
      refine ⟨k, hk, hover, ?_, ?_⟩
      · rw [run_succ, step_of_isTerminal hn, hrun]
      · rw [events_add, events_of_isTerminal hn, hevents]
        rfl

end Sequential

/-! ## Address zero -/

/-- No instruction that can be fetched is predicted to be followed by address zero, at which a
program is over. -/
def Bus.PredictsNonzero (b : Bus) : Prop :=
  ∀ pc w, b.fetch pc = .ok w → Opcode.ofWord w ≠ .undefined →
    nextPredicted pc w (Opcode.ofWord w) ≠ 0

theorem Bus.PredictsNonzero.fetchedWord {b : Bus} (h : b.PredictsNonzero) {pc : Word}
    (hok : (fetchedWord b pc).2.initialStatus = .ok) :
    nextPredicted pc (fetchedWord b pc).1 (fetchedWord b pc).2 ≠ 0 := by
  unfold FiveStage.fetchedWord at hok ⊢
  cases hf : b.fetch pc with
  | error e =>
    rw [hf] at hok
    cases hok
  | ok w =>
    rw [hf] at hok
    refine h pc w hf fun hundef => ?_
    simp only [hundef] at hok
    cases hok

/-- Neither `pc` nor what is predicted to follow the instruction there is address zero. -/
def Bus.AvoidsZero (b : Bus) (pc : Word) : Prop :=
  pc ≠ 0 ∧ ((fetchedWord b pc).2.initialStatus = .ok →
    nextPredicted pc (fetchedWord b pc).1 (fetchedWord b pc).2 ≠ 0)

instance (b : Bus) (pc : Word) : Decidable (b.AvoidsZero pc) :=
  inferInstanceAs (Decidable (_ ∧ (_ → _)))

/-! ## The program of a machine -/

namespace Sequential

/-- If the instruction at the program counter is a branch that is not taken, fetch does not come to
address zero on the path that was predicted. -/
def Clear (s : Sequential) : Prop :=
  s.fallsThrough = true → s.bus.AvoidsZero (nextPredicted s.core.pc s.fetched.1 s.fetched.2)

instance (s : Sequential) : Decidable s.Clear := inferInstanceAs (Decidable (_ → _))

/-- No branch of a program that is not taken was predicted to lead to address zero. -/
def StaysClear (s : Sequential) : Prop := ∀ k, (s.run k).Clear

theorem StaysClear.run {s : Sequential} (h : s.StaysClear) (k : Nat) : (s.run k).StaysClear := by
  intro i
  rw [← run_add]
  exact h (k + i)

/-- The machine runs the program that was loaded into `code`, under a given layout. -/
structure Runs (s : Sequential) (code : Memory) (map : SegmentMap) : Prop where
  keeps : s.bus.KeepsCode code
  segments : s.segments = map

variable {s : Sequential} {code : Memory} {map : SegmentMap}

theorem alive_start (entry : Word) (m : Memory) (map : SegmentMap) :
    (start entry m map).Alive := rfl

theorem runs_start (h : map.ProtectsCode) (entry : Word) (m : Memory) :
    (start entry m map).Runs m map :=
  ⟨Bus.keepsCode_start h m none, rfl⟩

theorem Runs.step (h : s.Runs code map) : s.step.Runs code map := by
  refine ⟨?_, s.segments_step.trans h.segments⟩
  cases ha : s.core.status.isTerminal with
  | true =>
    rw [step_of_isTerminal ha]
    exact h.keeps
  | false =>
    rw [bus_step ha]
    exact Bus.keepsCode_memoryStage h.keeps _

theorem Runs.run (h : s.Runs code map) (n : Nat) : (s.run n).Runs code map := by
  induction n with
  | zero => exact h
  | succ n ih =>
    rw [run_succ]
    exact ih.step

theorem Runs.beyond (h : s.Runs code map) : s.beyond.Runs code map := by
  unfold Sequential.beyond
  split
  · split
    · exact ⟨h.keeps, h.segments⟩
    · exact h.step
  · exact h

theorem Runs.fetchedWord (h : s.Runs code map) (pc : Word) :
    fetchedWord s.bus pc = FiveStage.fetchedWord (Bus.start code map none) pc := by
  rw [h.keeps.fetchedWord, ← h.segments]
  rfl

theorem Runs.clear (h : s.Runs code map) (hzero : (Bus.start code map none).PredictsNonzero) :
    s.Clear := by
  intro hfall
  have hproceeds : s.proceeds = true := by
    simp only [fallsThrough, Bool.and_eq_true] at hfall
    exact hfall.1.1
  have hok : s.fetchedStatus = .ok := s.fetchedStatus_cases.resolve_right fun ht => by
    rw [proceeds, ht] at hproceeds
    simp at hproceeds
  have hinit := initialStatus_fetched hok
  have hfetched : s.fetched = FiveStage.fetchedWord (Bus.start code map none) s.core.pc :=
    h.fetchedWord _
  rw [hfetched] at hinit ⊢
  rw [Bus.AvoidsZero, h.fetchedWord]
  exact ⟨hzero.fetchedWord hinit, hzero.fetchedWord⟩

theorem Runs.staysClear (h : s.Runs code map) (hzero : (Bus.start code map none).PredictsNonzero) :
    s.StaysClear :=
  fun k => (h.run k).clear hzero

/-- A program that ends has only so many branches. -/
theorem staysClear_of_end {n : Nat} (hend : (s.run n).core.status.isTerminal = true)
    (h : ∀ k, k < n → (s.run k).Clear) : s.StaysClear := by
  intro k
  rcases Nat.lt_or_ge k n with hlt | hge
  · exact h k hlt
  · obtain ⟨j, rfl⟩ := Nat.exists_eq_add_of_le hge
    rw [run_add, run_of_isTerminal hend]
    intro hfall
    rw [fallsThrough, proceeds, hend] at hfall
    cases hfall

end Sequential

end FiveStage
