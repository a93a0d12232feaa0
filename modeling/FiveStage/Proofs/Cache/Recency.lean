import FiveStage.Proofs.Cache.Replayed
import Mathlib.Data.Fintype.Card
import Mathlib.Data.List.Induction

/-!
# The blocks used last

A cache alone, with a trace replayed through it, keeps the blocks used last.

* `Geometry.recency`, `Geometry.residents` : the blocks of a set that a trace has accessed, the
  latest first, and as many of them as there are ways;
* `Geometry.mem_residents_iff` : which block is a resident, by what came after its latest access;
* `Cache.Ranked` : the valid ways of a set in the order of their stamps; `Ranked.promote` : a line
  that is used, or brought in, comes first, and `Ranked.filter_victim` : what a miss throws out;
* `Cache.Follows`, `Cache.follows_replay` : the lines of every set are its residents;
* `Cache.replay_keeps_latest` : what hits, and what is there.
-/

namespace FiveStage

/-! ## Lists without repetition -/

section Lists

variable {α : Type} [BEq α] [LawfulBEq α]

theorem List.eraseDups_filter (p : α → Bool) :
    ∀ l : List α, (l.filter p).eraseDups = l.eraseDups.filter p
  | [] => by simp
  | a :: l => by
    have ih := List.eraseDups_filter p (l.filter fun b => !b == a)
    rw [List.eraseDups_cons, List.filter_cons]
    by_cases ha : p a = true
    · rw [if_pos ha, List.eraseDups_cons, List.filter_cons_of_pos ha, ← ih]
      simp only [List.filter_filter, Bool.and_comm]
    · rw [if_neg ha, List.filter_cons_of_neg ha, ← ih, List.filter_filter]
      congr 1
      refine List.filter_congr fun b _ => ?_
      by_cases hb : b = a
      · subst hb
        simp [ha]
      · simp [hb]
  termination_by l => l.length
  decreasing_by
    have := List.length_filter_le (fun b => !b == a) l
    simp only [List.length_cons]
    omega

theorem List.nodup_eraseDups : ∀ l : List α, l.eraseDups.Nodup
  | [] => by simp
  | a :: l => by
    rw [List.eraseDups_cons, List.nodup_cons]
    refine ⟨fun h => ?_, List.nodup_eraseDups _⟩
    rw [List.mem_eraseDups, List.mem_filter] at h
    simp at h
  termination_by l => l.length
  decreasing_by
    have := List.length_filter_le (fun b => !b == a) l
    simp only [List.length_cons]
    omega

/-- What stands before the place `k` once an element is gone stood before the place `k + 1`. -/
theorem List.take_filter_ne {l : List α} (h : l.Nodup) (a : α) (k : Nat) :
    (l.filter (· != a)).take k = ((l.take (k + 1)).filter (· != a)).take k := by
  induction l generalizing k with
  | nil => simp
  | cons x l ih =>
    obtain ⟨hx, hl⟩ := List.nodup_cons.1 h
    rw [List.take_succ_cons]
    by_cases hxa : x = a
    · subst hxa
      have hall : ∀ y ∈ l, (y != x) = true := by
        intro y hy
        have hne : y ≠ x := fun he => hx (he ▸ hy)
        simpa using hne
      have hsome : ∀ y ∈ l.take k, (y != x) = true := fun y hy => hall y (List.mem_of_mem_take hy)
      rw [List.filter_cons_of_neg (by simp), List.filter_cons_of_neg (by simp),
        List.filter_eq_self.2 hall, List.filter_eq_self.2 hsome, List.take_take, Nat.min_self]
    · have hkeep (r : List α) : (x :: r).filter (· != a) = x :: r.filter (· != a) :=
        List.filter_cons_of_pos (by simpa using hxa)
      rw [hkeep, hkeep]
      cases k with
      | zero => rfl
      | succ k => rw [List.take_succ_cons, List.take_succ_cons, ih hl]

/-- Moving an element to the front of a list and cutting the list may be done in either order. -/
theorem List.take_cons_filter_ne {l : List α} (h : l.Nodup) (a : α) (n : Nat) :
    (a :: l.filter (· != a)).take n = (a :: (l.take n).filter (· != a)).take n := by
  cases n with
  | zero => rfl
  | succ k => rw [List.take_succ_cons, List.take_succ_cons, List.take_filter_ne h]

end Lists

theorem List.map_filter_ne {α β : Type} [DecidableEq α] [DecidableEq β] {f : α → β}
    {l : List α} {a : α} (h : ∀ x ∈ l, f x = f a → x = a) :
    (l.filter (· != a)).map f = (l.map f).filter (· != f a) := by
  rw [List.filter_map]
  congr 1
  refine List.filter_congr fun x hx => ?_
  rw [Function.comp_apply, Bool.eq_iff_iff, bne_iff_ne, bne_iff_ne]
  exact not_congr ⟨congrArg f, h x hx⟩

/-! ## Blocks by their first address -/

namespace Geometry

variable (g : Geometry)

theorem blockNumber_blockBase (a : Word) : g.blockNumber (g.blockBase a) = g.blockNumber a := by
  rw [blockNumber, toNat_blockBase, Nat.mul_div_cancel _ g.blockSize_pos]

theorem index_blockBase (a : Word) : g.index (g.blockBase a) = g.index a :=
  ((g.sameLine_iff _ _).2 (g.blockNumber_blockBase a)).1

theorem tag_blockBase (a : Word) : g.tag (g.blockBase a) = g.tag a :=
  ((g.sameLine_iff _ _).2 (g.blockNumber_blockBase a)).2

theorem blockBase_blockBase (a : Word) : g.blockBase (g.blockBase a) = g.blockBase a :=
  (g.blockBase_eq_iff _ _).2 (g.blockNumber_blockBase a)

/-- Within a set, tags tell blocks apart. -/
theorem blockBase_eq_of_tag {a b : Word} (hi : g.index a = g.index b) (ht : g.tag a = g.tag b) :
    g.blockBase a = g.blockBase b :=
  (g.blockBase_eq_iff a b).2 ((g.sameLine_iff a b).1 ⟨hi, ht⟩)

/-- The blocks of a set that a trace has accessed, each by its first address, the latest first. -/
def recency (i : Fin g.setCount) (ops : List Operation) : List Word :=
  ((ops.reverse.filter fun o => g.index o.address = i).map fun o => g.blockBase o.address).eraseDups

/-- As many of the blocks of a set used last as it has ways. -/
def residents (i : Fin g.setCount) (ops : List Operation) : List Word :=
  (g.recency i ops).take g.ways

variable {g} {i : Fin g.setCount} {ops : List Operation} {b : Word}

theorem mem_recency : b ∈ g.recency i ops ↔
    ∃ o ∈ ops, g.index o.address = i ∧ g.blockBase o.address = b := by
  simp only [recency, List.mem_eraseDups, List.mem_map, List.mem_filter, List.mem_reverse,
    decide_eq_true_eq, and_assoc]

theorem nodup_recency (i : Fin g.setCount) (ops : List Operation) : (g.recency i ops).Nodup :=
  List.nodup_eraseDups _

theorem nodup_residents (i : Fin g.setCount) (ops : List Operation) : (g.residents i ops).Nodup :=
  (nodup_recency i ops).take

@[simp] theorem residents_nil (i : Fin g.setCount) : g.residents i [] = [] := by
  simp [residents, recency]

/-- An access brings its block to the front. -/
theorem recency_snoc (i : Fin g.setCount) (ops : List Operation) (o : Operation) :
    g.recency i (ops ++ [o]) =
      if g.index o.address = i then
        g.blockBase o.address :: (g.recency i ops).filter (· != g.blockBase o.address)
      else g.recency i ops := by
  rw [recency, List.reverse_append, List.reverse_singleton, List.singleton_append]
  by_cases hi : g.index o.address = i
  · rw [if_pos hi, List.filter_cons_of_pos (by simpa using hi), List.map_cons, List.eraseDups_cons,
      List.eraseDups_filter]
    rfl
  · rw [if_neg hi, List.filter_cons_of_neg (by simpa using hi)]
    rfl

theorem residents_snoc (i : Fin g.setCount) (ops : List Operation) (o : Operation) :
    g.residents i (ops ++ [o]) =
      if g.index o.address = i then
        (g.blockBase o.address ::
          (g.residents i ops).filter (· != g.blockBase o.address)).take g.ways
      else g.residents i ops := by
  rw [residents, recency_snoc]
  by_cases hi : g.index o.address = i
  · rw [if_pos hi, if_pos hi, List.take_cons_filter_ne (nodup_recency i ops)]
    rfl
  · rw [if_neg hi, if_neg hi]
    rfl

theorem of_mem_residents (h : b ∈ g.residents i ops) : g.index b = i ∧ g.blockBase b = b := by
  obtain ⟨o, -, hi, hb⟩ := mem_recency.1 (List.mem_of_mem_take h)
  subst hb
  exact ⟨(g.index_blockBase _).trans hi, g.blockBase_blockBase _⟩

/-- The tags of the residents tell them apart. -/
theorem nodup_map_tag (i : Fin g.setCount) (ops : List Operation) :
    ((g.residents i ops).map g.tag).Nodup := by
  refine (nodup_residents i ops).map_on fun b hb b' hb' ht => ?_
  obtain ⟨hi, hbase⟩ := of_mem_residents hb
  obtain ⟨hi', hbase'⟩ := of_mem_residents hb'
  rw [← hbase, ← hbase', g.blockBase_eq_of_tag (hi.trans hi'.symm) ht]

theorem map_tag_filter (a : Word) (ops : List Operation) :
    ((g.residents (g.index a) ops).filter (· != g.blockBase a)).map g.tag =
      ((g.residents (g.index a) ops).map g.tag).filter (· != g.tag a) := by
  rw [← g.tag_blockBase a]
  refine List.map_filter_ne fun b hb ht => ?_
  obtain ⟨hi, hbase⟩ := of_mem_residents hb
  rw [← hbase, g.blockBase_eq_of_tag hi (ht.trans (g.tag_blockBase a))]

/-- The block of an address stands behind those that have been accessed since the address was. -/
theorem recency_append {a : Word} {since : List Operation}
    (h : ∀ o ∈ since, g.blockBase o.address ≠ g.blockBase a) (old : List Operation) {p : Operation}
    (hp : g.blockBase p.address = g.blockBase a) :
    ∃ rest, g.recency (g.index a) (old ++ p :: since) =
      g.recency (g.index a) since ++ g.blockBase a :: rest := by
  have hindex : g.index p.address = g.index a := by
    rw [← g.index_blockBase p.address, hp, g.index_blockBase]
  simp only [recency, List.reverse_append, List.reverse_cons, List.append_assoc,
    List.singleton_append, List.filter_append, List.filter_cons, hindex, decide_true, if_true,
    List.map_append, List.map_cons, hp, List.eraseDups_append]
  rw [List.removeAll, List.filter_cons_of_pos, List.eraseDups_cons]
  · exact ⟨_, rfl⟩
  · rw [List.elem_eq_mem, Bool.not_eq_true', decide_eq_false_iff_not]
    simp only [List.mem_map, List.mem_filter, List.mem_reverse]
    rintro ⟨o, ⟨ho, -⟩, heq⟩
    exact h o ho heq

/-- The trace since the latest access to a block that has been accessed. -/
theorem exists_latest {a : Word} (h : ∃ o ∈ ops, g.blockBase o.address = g.blockBase a) :
    ∃ old latest since, ops = old ++ latest :: since ∧
      g.blockBase latest.address = g.blockBase a ∧
      ∀ o ∈ since, g.blockBase o.address ≠ g.blockBase a := by
  induction ops using List.reverseRecOn with
  | nil =>
    obtain ⟨o, ho, -⟩ := h
    cases ho
  | append_singleton ops o ih =>
    by_cases ho : g.blockBase o.address = g.blockBase a
    · exact ⟨ops, o, [], rfl, ho, nofun⟩
    · obtain ⟨p, hp, hpa⟩ := h
      have hmem : p ∈ ops := by
        rcases List.mem_append.1 hp with hp | hp
        · exact hp
        · rw [List.mem_singleton.1 hp] at hpa
          exact absurd hpa ho
      obtain ⟨old, latest, since, rfl, hl, hs⟩ := ih ⟨p, hmem, hpa⟩
      refine ⟨old, latest, since ++ [o], by simp, hl, fun q hq => ?_⟩
      rcases List.mem_append.1 hq with hq | hq
      · exact hs q hq
      · rw [List.mem_singleton.1 hq]
        exact ho

/-- A block is among the residents exactly if fewer blocks of its set than there are ways have been
accessed since its latest access. -/
theorem mem_residents_iff (a : Word) : g.blockBase a ∈ g.residents (g.index a) ops ↔
    ∃ old latest since, ops = old ++ latest :: since ∧
      g.blockBase latest.address = g.blockBase a ∧
      (∀ o ∈ since, g.blockBase o.address ≠ g.blockBase a) ∧
      (g.recency (g.index a) since).length < g.ways := by
  have hnotMem : ∀ since : List Operation, (∀ o ∈ since, g.blockBase o.address ≠ g.blockBase a) →
      g.blockBase a ∉ g.recency (g.index a) since := by
    intro since h hmem
    obtain ⟨o, ho, -, hoa⟩ := mem_recency.1 hmem
    exact h o ho hoa
  constructor
  · intro h
    obtain ⟨o, ho, -, hoa⟩ := mem_recency.1 (List.mem_of_mem_take h)
    obtain ⟨old, latest, since, rfl, hl, hs⟩ := exists_latest ⟨o, ho, hoa⟩
    refine ⟨old, latest, since, rfl, hl, hs, ?_⟩
    obtain ⟨rest, hrest⟩ := recency_append hs old hl
    rw [residents, hrest, List.take_append] at h
    rcases List.mem_append.1 h with h | h
    · exact absurd (List.mem_of_mem_take h) (hnotMem since hs)
    · by_contra hle
      rw [show g.ways - (g.recency (g.index a) since).length = 0 by omega] at h
      cases h
  · rintro ⟨old, latest, since, rfl, hl, hs, hlt⟩
    obtain ⟨rest, hrest⟩ := recency_append hs old hl
    rw [residents, hrest, List.take_append]
    refine List.mem_append_right _ ?_
    rw [show g.ways - (g.recency (g.index a) since).length =
      (g.ways - (g.recency (g.index a) since).length - 1) + 1 by omega, List.take_succ_cons]
    exact List.mem_cons_self

/-- In a set of two ways, the block used again stays and the other one goes. -/
example : let g : Geometry := ⟨2, 3, 0, 0, by decide, by decide, by decide⟩
    g.residents (g.index 0) [⟨.read, 0⟩, ⟨.read, 8⟩, ⟨.read, 0⟩, ⟨.write, 16⟩] = [16, 0] := by
  decide

end Geometry

/-! ## Lines in the order of their use -/

theorem Fin.le_foldl_best {α : Type} (key : α → Nat) {n : Nat} (f : Fin n → α) (first : α) :
    let best := Fin.foldl n (fun b i => if key (f i) < key b then f i else b) first
    key best ≤ key first ∧ ∀ i, key best ≤ key (f i) := by
  induction n generalizing first with
  | zero => exact ⟨Nat.le_refl _, nofun⟩
  | succ n ih =>
    intro best
    obtain ⟨hfirst, hrest⟩ := ih (fun i => f i.succ) (if key (f 0) < key first then f 0 else first)
    have hbest : best = Fin.foldl n (fun b i => if key (f i.succ) < key b then f i.succ else b)
        (if key (f 0) < key first then f 0 else first) := Fin.foldl_succ _ _
    rw [← hbest] at hfirst hrest
    have hle : key (if key (f 0) < key first then f 0 else first) ≤ key first ∧
        key (if key (f 0) < key first then f 0 else first) ≤ key (f 0) := by
      split <;> omega
    refine ⟨by omega, fun i => ?_⟩
    cases i using Fin.cases with
    | zero => omega
    | succ i => exact hrest i

namespace Cache

variable {g : Geometry} {c : Cache g} {i : Fin g.setCount} {ws : List (Fin g.ways)}

theorem stamp_oldestWay_le (c : Cache g) (i : Fin g.setCount) (w : Fin g.ways) :
    (c.line i (c.oldestWay i)).stamp ≤ (c.line i w).stamp :=
  (Fin.le_foldl_best (fun w => (c.line i w).stamp) id ⟨0, g.ways_pos⟩).2 w

theorem isSome_way?_iff {a : Word} : (c.way? a).isSome = true ↔ ∃ w, c.Covers a w := by
  rw [← Option.ne_none_iff_isSome, Ne, way?_eq_none_iff]
  simp

/-- The victim is valid only if every line of its set is, and then it is the one with the oldest
stamp. -/
theorem victim_spec (c : Cache g) (i : Fin g.setCount) :
    (c.line i (c.victim i)).valid = false ∨
      (∀ w, (c.line i w).valid = true) ∧ c.victim i = c.oldestWay i := by
  unfold victim
  cases hfind : c.sets[i].findFinIdx? fun l => !l.valid with
  | some w =>
    left
    have hinvalid : (!(c.line i w).valid) = true := (Vector.findFinIdx?_eq_some_iff.1 hfind).1
    simpa using hinvalid
  | none =>
    right
    refine ⟨fun w => ?_, rfl⟩
    simpa [line] using
      Vector.findFinIdx?_eq_none_iff.1 hfind (c.line i w) (Vector.getElem_mem w.isLt)

/-- The valid ways of a set are given in the order of their stamps, the latest first. -/
structure Ranked (c : Cache g) (i : Fin g.setCount) (ws : List (Fin g.ways)) : Prop where
  valid : ∀ w, w ∈ ws ↔ (c.line i w).valid = true
  sorted : ws.Pairwise fun w v => (c.line i v).stamp < (c.line i w).stamp
  past : ∀ w ∈ ws, (c.line i w).stamp ≤ c.clock

namespace Ranked

theorem nodup (h : c.Ranked i ws) : ws.Nodup := by
  refine h.sorted.imp fun hlt heq => ?_
  subst heq
  exact Nat.lt_irrefl _ hlt

theorem length_le (h : c.Ranked i ws) : ws.length ≤ g.ways := by
  simpa using h.nodup.length_le_card

/-- A set is full exactly if as many ways are ranked as there are. -/
theorem full_iff (h : c.Ranked i ws) :
    (∀ w, (c.line i w).valid = true) ↔ ws.length = g.ways := by
  constructor
  · intro hfull
    have hall : ∀ w, w ∈ ws := fun w => (h.valid w).2 (hfull w)
    have hle : (List.finRange g.ways).length ≤ ws.length :=
      ((List.nodup_finRange g.ways).subperm fun w _ => hall w).length_le
    rw [List.length_finRange] at hle
    exact Nat.le_antisymm h.length_le hle
  · intro hlen w
    refine (h.valid w).1 ?_
    by_contra hw
    have := (List.nodup_cons.2 ⟨hw, h.nodup⟩).length_le_card
    rw [List.length_cons, Fintype.card_fin] at this
    omega

/-- The victim of a full set is the way that was used longest ago. -/
theorem victim_of_full (h : c.Ranked i ws) (hfull : ws.length = g.ways) :
    ∃ later, ws = later ++ [c.victim i] := by
  have hall := h.full_iff.2 hfull
  have hold : c.victim i = c.oldestWay i := by
    rcases c.victim_spec i with hv | ⟨-, hold⟩
    · rw [hall] at hv
      cases hv
    · exact hold
  have hne : ws ≠ [] := by
    rintro rfl
    exact absurd hfull (Nat.ne_of_lt g.ways_pos)
  refine ⟨ws.dropLast, ?_⟩
  have hsplit := List.dropLast_append_getLast hne
  have hsorted := h.sorted
  rw [← hsplit, List.pairwise_append] at hsorted
  have hmem : c.oldestWay i ∈ ws.dropLast ++ [ws.getLast hne] := by
    rw [hsplit]
    exact (h.valid _).2 (hall _)
  rcases List.mem_append.1 hmem with hin | hin
  · -- some line would be older than the oldest
    have hlt := hsorted.2.2 _ hin _ List.mem_cons_self
    have hle := c.stamp_oldestWay_le i (ws.getLast hne)
    omega
  · rw [hold, List.mem_singleton.1 hin, hsplit]

/-- What a miss leaves of a set: the victim's line is gone if it was valid. -/
theorem filter_victim (h : c.Ranked i ws) :
    ws.filter (· != c.victim i) = ws.take (g.ways - 1) := by
  have hkeep : ∀ l : List (Fin g.ways), c.victim i ∉ l → l.filter (· != c.victim i) = l := by
    intro l hl
    refine List.filter_eq_self.2 fun v hv => ?_
    have hne : v ≠ c.victim i := fun he => hl (he ▸ hv)
    simpa using hne
  by_cases hfull : ws.length = g.ways
  · obtain ⟨later, hlater⟩ := h.victim_of_full hfull
    have hnodup := h.nodup
    rw [hlater, List.nodup_append] at hnodup
    have hout : c.victim i ∉ later := fun hin => hnodup.2.2 _ hin _ List.mem_cons_self rfl
    rw [hlater, List.length_append, List.length_singleton] at hfull
    rw [hlater, List.filter_append, hkeep later hout, List.filter_cons_of_neg (by simp),
      List.filter_nil, List.append_nil, List.take_left' (by omega)]
  · have hlt : ws.length < g.ways := Nat.lt_of_le_of_ne h.length_le hfull
    have hout : c.victim i ∉ ws := by
      intro hin
      rcases c.victim_spec i with hv | ⟨hall, -⟩
      · rw [(h.valid _).1 hin] at hv
        cases hv
      · exact hfull (h.full_iff.1 hall)
    rw [hkeep ws hout, List.take_of_length_le (by omega)]

variable {d : Cache g} {w : Fin g.ways}

/-- A line that has been stamped comes first. -/
theorem promote (h : c.Ranked i ws) (hvalid : (d.line i w).valid = true)
    (hstamp : (d.line i w).stamp = c.clock + 1) (hclock : d.clock = c.clock + 1)
    (hrest : ∀ v, v ≠ w → d.mark i v = c.mark i v) :
    d.Ranked i (w :: ws.filter (· != w)) := by
  have hv : ∀ v, v ≠ w → (d.line i v).valid = (c.line i v).valid :=
    fun v hne => congrArg LineMark.valid (hrest v hne)
  have hs : ∀ v, v ≠ w → (d.line i v).stamp = (c.line i v).stamp :=
    fun v hne => congrArg LineMark.stamp (hrest v hne)
  have hne : ∀ v ∈ ws.filter (· != w), v ∈ ws ∧ v ≠ w := by
    intro v hv
    simpa using List.mem_filter.1 hv
  refine ⟨fun v => ?_, ?_, fun v hmem => ?_⟩
  · by_cases hvw : v = w
    · subst hvw
      simp [hvalid]
    · simp [hvw, hv v hvw, h.valid]
  · refine List.pairwise_cons.2 ⟨fun v hmem => ?_, ?_⟩
    · obtain ⟨hin, hvw⟩ := hne v hmem
      have := h.past v hin
      rw [hs v hvw, hstamp]
      omega
    · refine (h.sorted.filter _).imp_of_mem fun {u v} hu hv hlt => ?_
      rw [hs u (hne u hu).2, hs v (hne v hv).2]
      exact hlt
  · rcases List.mem_cons.1 hmem with rfl | hmem
    · omega
    · obtain ⟨hin, hvw⟩ := hne v hmem
      have := h.past v hin
      rw [hs v hvw]
      omega

/-- A set that is not used stays in order. -/
theorem of_mark_eq (h : c.Ranked i ws) (hmark : ∀ v, d.mark i v = c.mark i v)
    (hclock : c.clock ≤ d.clock) : d.Ranked i ws := by
  have hv : ∀ v, (d.line i v).valid = (c.line i v).valid :=
    fun v => congrArg LineMark.valid (hmark v)
  have hs : ∀ v, (d.line i v).stamp = (c.line i v).stamp :=
    fun v => congrArg LineMark.stamp (hmark v)
  refine ⟨fun w => ?_, ?_, fun w hw => ?_⟩
  · rw [hv, h.valid]
  · simpa only [hs] using h.sorted
  · rw [hs]
    exact (h.past w hw).trans hclock

end Ranked

/-! ## One access of a trace -/

/-- The way that an access to an address uses: the one that holds it, else the victim. -/
def place (c : Cache g) (a : Word) : Fin g.ways := (c.way? a).getD (c.victim (g.index a))

theorem mark_replayOne (c : Cache g) (o : Operation) (j : Fin g.setCount) (u : Fin g.ways) :
    (c.replayOne o).2.mark j u =
      if g.index o.address = j ∧ c.place o.address = u then
        ⟨true, ((c.way? o.address).isSome && (c.mark j u).dirty) || o.kind == .write,
          g.tag o.address, c.clock + 1⟩
      else c.mark j u := by
  obtain ⟨kind, a⟩ := o
  by_cases h : g.index a = j ∧ c.place a = u
  · rw [if_pos h]
    obtain ⟨rfl, rfl⟩ := h
    unfold place
    cases hw : c.way? a with
    | some w =>
      obtain ⟨hv, ht⟩ := covers_of_way? hw
      rw [replayOne_of_present hw, mark_probe hw, if_pos ⟨rfl, rfl⟩]
      simp [Cache.mark, CacheLine.mark, LineMark.use, hv, ht]
    | none =>
      rw [replayOne_of_absent hw, probe_of_absent hw, mark_fill, if_pos ⟨rfl, rfl⟩]
      rfl
  · rw [if_neg h]
    unfold place at h
    cases hw : c.way? a with
    | some w =>
      rw [hw] at h
      rw [replayOne_of_present hw, mark_probe hw]
      exact if_neg h
    | none =>
      rw [hw] at h
      rw [replayOne_of_absent hw, probe_of_absent hw, mark_fill]
      exact if_neg h

theorem clock_replayOne (c : Cache g) (o : Operation) :
    (c.replayOne o).2.clock = c.clock + 1 := by
  obtain ⟨kind, a⟩ := o
  cases hw : c.way? a with
  | some w =>
    rw [replayOne_of_present hw]
    exact (counters_probe hw kind).2
  | none =>
    rw [replayOne_of_absent hw, probe_of_absent hw]
    rfl

theorem replay_snoc (c : Cache g) (ops : List Operation) (o : Operation) :
    c.replay (ops ++ [o]) = ((c.replay ops).replayOne o).2 := by
  rw [replay, List.foldl_append]
  rfl

/-- Every access gives out one stamp. -/
theorem clock_replay (ops : List Operation) : ((empty g).replay ops).clock = ops.length := by
  induction ops using List.reverseRecOn with
  | nil => rfl
  | append_singleton ops o ih => rw [replay_snoc, clock_replayOne, ih, List.length_append]; rfl

/-! ## Any number of accesses -/

/-- The valid lines of every set, in the order of their use, are the residents of the set. -/
def Follows (c : Cache g) (ops : List Operation) : Prop :=
  ∀ i, ∃ ws, c.Ranked i ws ∧
    ws.map (fun w => (c.line i w).tag) = (g.residents i ops).map g.tag

variable {ops : List Operation}

theorem follows_empty : (empty g).Follows [] := by
  intro i
  refine ⟨[], ⟨fun w => ?_, List.Pairwise.nil, nofun⟩, by simp⟩
  simp [line, empty, CacheLine.empty]

theorem Follows.covers_iff (h : c.Follows ops) (a : Word) :
    (∃ w, c.Covers a w) ↔ g.blockBase a ∈ g.residents (g.index a) ops := by
  obtain ⟨ws, hranked, htags⟩ := h (g.index a)
  constructor
  · rintro ⟨w, hv, ht⟩
    have hmem := List.mem_map_of_mem (f := fun w => (c.line (g.index a) w).tag)
      ((hranked.valid w).2 hv)
    rw [htags, List.mem_map] at hmem
    obtain ⟨b, hb, hbt⟩ := hmem
    obtain ⟨hi, hbase⟩ := Geometry.of_mem_residents hb
    rw [← g.blockBase_eq_of_tag hi (hbt.trans ht), hbase]
    exact hb
  · intro hmem
    have htag := List.mem_map_of_mem (f := g.tag) hmem
    rw [← htags, List.mem_map] at htag
    obtain ⟨w, hw, ht⟩ := htag
    exact ⟨w, (hranked.valid w).1 hw, ht.trans (g.tag_blockBase a)⟩

/-- The residents that an access leaves besides its own block are in the ways it leaves alone. -/
theorem map_tag_filter_place {a : Word} (h : c.Ranked (g.index a) ws)
    (htags : ws.map (fun w => (c.line (g.index a) w).tag) =
      (g.residents (g.index a) ops).map g.tag)
    (hlen : (ws.filter (· != c.place a)).length ≤ g.ways - 1) :
    (ws.filter (· != c.place a)).map (fun w => (c.line (g.index a) w).tag) =
      (((g.residents (g.index a) ops).filter (· != g.blockBase a)).take (g.ways - 1)).map
        g.tag := by
  unfold place at hlen ⊢
  cases hw : c.way? a with
  | some w =>
    rw [hw, Option.getD_some] at hlen
    obtain ⟨hv, ht⟩ := covers_of_way? hw
    have hmap : (ws.filter (· != w)).map (fun w => (c.line (g.index a) w).tag) =
        (ws.map fun w => (c.line (g.index a) w).tag).filter (· != g.tag a) := by
      rw [← ht]
      refine List.map_filter_ne fun v hvmem htag => ?_
      refine List.inj_on_of_nodup_map (f := fun w => (c.line (g.index a) w).tag) ?_ hvmem
        ((h.valid w).2 hv) htag
      rw [htags]
      exact Geometry.nodup_map_tag _ _
    have hlen' := congrArg List.length hmap
    rw [htags, ← Geometry.map_tag_filter, List.length_map, List.length_map] at hlen'
    rw [Option.getD_some, hmap, htags, ← Geometry.map_tag_filter,
      List.take_of_length_le (by omega)]
  | none =>
    have hout : g.blockBase a ∉ g.residents (g.index a) ops := by
      intro hin
      have htag := List.mem_map_of_mem (f := g.tag) hin
      rw [← htags, List.mem_map, g.tag_blockBase] at htag
      obtain ⟨w, hwmem, ht⟩ := htag
      exact way?_eq_none_iff.1 hw w ⟨(h.valid w).1 hwmem, ht⟩
    have hkeep : (g.residents (g.index a) ops).filter (· != g.blockBase a) =
        g.residents (g.index a) ops := by
      refine List.filter_eq_self.2 fun b hb => ?_
      have hne : b ≠ g.blockBase a := fun he => hout (he ▸ hb)
      simpa using hne
    rw [Option.getD_none, h.filter_victim, hkeep, List.map_take, htags, List.map_take]

theorem Follows.step (h : c.Follows ops) (o : Operation) :
    (c.replayOne o).2.Follows (ops ++ [o]) := by
  intro j
  obtain ⟨ws, hranked, htags⟩ := h j
  have hclock := c.clock_replayOne o
  rw [Geometry.residents_snoc]
  by_cases hj : g.index o.address = j
  · subst hj
    generalize hw : c.place o.address = w
    have hmark : ∀ v, v ≠ w → (c.replayOne o).2.mark (g.index o.address) v =
        c.mark (g.index o.address) v := by
      intro v hv
      rw [mark_replayOne, hw, if_neg fun h => hv h.2.symm]
    have hself := c.mark_replayOne o (g.index o.address) w
    rw [if_pos ⟨rfl, hw⟩] at hself
    have hnext := hranked.promote (congrArg LineMark.valid hself) (congrArg LineMark.stamp hself)
      hclock hmark
    refine ⟨_, hnext, ?_⟩
    have hpos := g.ways_pos
    have hlen := hnext.length_le
    rw [List.length_cons] at hlen
    have hrest := map_tag_filter_place hranked htags (by rw [hw]; omega)
    rw [hw] at hrest
    rw [if_pos rfl, List.take_cons hpos, List.map_cons, List.map_cons, g.tag_blockBase, ← hrest]
    refine congrArg₂ List.cons (congrArg LineMark.tag hself) (List.map_congr_left fun v hv => ?_)
    have hne : v ≠ w := by simpa using (List.mem_filter.1 hv).2
    exact congrArg LineMark.tag (hmark v hne)
  · rw [if_neg hj]
    have hmark : ∀ v, (c.replayOne o).2.mark j v = c.mark j v := by
      intro v
      rw [mark_replayOne, if_neg fun h => hj h.1]
    refine ⟨ws, hranked.of_mark_eq hmark (by omega), ?_⟩
    rw [← htags]
    exact List.map_congr_left fun v _ => congrArg LineMark.tag (hmark v)

theorem follows_replay (g : Geometry) (ops : List Operation) :
    ((empty g).replay ops).Follows ops := by
  induction ops using List.reverseRecOn with
  | nil => exact follows_empty
  | append_singleton ops o ih =>
    rw [replay_snoc]
    exact ih.step o

/-- The address of the block that the line in a way of a set holds. -/
def blockIn (c : Cache g) (i : Fin g.setCount) (w : Fin g.ways) : Word :=
  g.blockAddress (c.line i w).tag i

theorem blockIn_of_covers {a : Word} {w : Fin g.ways} (h : c.Covers a w) :
    c.blockIn (g.index a) w = g.blockBase a := by
  rw [blockIn, h.2, g.blockAddress_eq]

/-- The ways of a set in the order of their stamps hold its residents in their order. -/
theorem Follows.blocks (h : c.Follows ops) (i : Fin g.setCount) :
    ∃ ws, c.Ranked i ws ∧ ws.map (c.blockIn i) = g.residents i ops := by
  obtain ⟨ws, hranked, htags⟩ := h i
  refine ⟨ws, hranked, ?_⟩
  calc ws.map (c.blockIn i)
      = (ws.map fun w => (c.line i w).tag).map fun t => g.blockAddress t i := by
        rw [List.map_map]
        rfl
    _ = (g.residents i ops).map fun b => g.blockAddress (g.tag b) i := by
        rw [htags, List.map_map]
        rfl
    _ = (g.residents i ops).map id := by
        refine List.map_congr_left fun b hb => ?_
        obtain ⟨hi, hbase⟩ := Geometry.of_mem_residents hb
        rw [← hi, g.blockAddress_eq, hbase, id]
    _ = g.residents i ops := List.map_id _

/-- Every resident has one way to itself. -/
theorem Follows.existsUnique_way (h : c.Follows ops) {i : Fin g.setCount} {b : Word}
    (hb : b ∈ g.residents i ops) :
    ∃ w, ((c.line i w).valid = true ∧ c.blockIn i w = b) ∧
      ∀ v, (c.line i v).valid = true ∧ c.blockIn i v = b → v = w := by
  obtain ⟨ws, hranked, hblocks⟩ := h.blocks i
  have hnodup : (ws.map (c.blockIn i)).Nodup := by
    rw [hblocks]
    exact Geometry.nodup_residents i ops
  rw [← hblocks, List.mem_map] at hb
  obtain ⟨w, hw, rfl⟩ := hb
  refine ⟨w, ⟨(hranked.valid w).1 hw, rfl⟩, fun v hv => ?_⟩
  exact List.inj_on_of_nodup_map hnodup ((hranked.valid v).2 hv.1) hw hv.2

theorem fst_probe (c : Cache g) (a : Word) (kind : AccessKind) :
    (c.probe a kind).1 = (c.way? a).isSome := by
  unfold probe
  cases c.way? a <;> rfl

/-- Whatever trace is replayed, an access hits exactly if its block has been accessed before and
fewer other blocks of its set than there are ways have been since. Every set holds the blocks
accessed last, as many as it has ways or has seen at all, each of them in one way. -/
theorem replay_keeps_latest (g : Geometry) (ops : List Operation) :
    let c := (empty g).replay ops
    (∀ next : Operation, (c.probe next.address next.kind).1 = true ↔
      ∃ old latest since, ops = old ++ latest :: since ∧
        g.blockBase latest.address = g.blockBase next.address ∧
        (∀ o ∈ since, g.blockBase o.address ≠ g.blockBase next.address) ∧
        (g.recency (g.index next.address) since).length < g.ways) ∧
    (∀ i w, (c.line i w).valid = true → c.blockIn i w ∈ g.residents i ops) ∧
    (∀ i, ∀ b ∈ g.residents i ops, ∃ w, ((c.line i w).valid = true ∧ c.blockIn i w = b) ∧
      ∀ v, (c.line i v).valid = true ∧ c.blockIn i v = b → v = w) ∧
    (∀ i, (g.residents i ops).length = min g.ways (g.recency i ops).length) ∧
    c.clock = ops.length := by
  intro c
  have hfollows : c.Follows ops := follows_replay g ops
  refine ⟨fun next => ?_, fun i w hv => ?_, fun i b hb => hfollows.existsUnique_way hb,
    fun i => List.length_take, clock_replay ops⟩
  · rw [fst_probe, isSome_way?_iff, hfollows.covers_iff]
    exact Geometry.mem_residents_iff next.address
  · obtain ⟨ws, hranked, hblocks⟩ := hfollows.blocks i
    rw [← hblocks]
    exact List.mem_map_of_mem ((hranked.valid w).2 hv)

end Cache

end FiveStage
