import FiveStage.Proofs.Checkpoint.Lines

/-!
# Reading a checkpoint

* `Checkpoint.headLines_injective`, `Checkpoint.sections_injective`, `cacheLines_injective` : what
  each part of the text tells;
* `Checkpoint.text_inj` : different checkpoints have different texts;
* `Checkpoint.entriesUnder` : the doublewords under the name of a segment, and
  `Checkpoint.filter_isEntry_text` : all of them.
-/

namespace FiveStage

/-! ## What the parts tell -/

theorem Status.text_injective {a b : Status} (h : a.text = b.text) : a = b := by
  revert h
  cases a <;> cases b <;> decide

theorem Flags.text_injective {f g : Flags} (h : f.text = g.text) : f = g := by
  have key : ∀ n z c v n' z' c' v' : Bool,
      (Flags.mk n z c v).text = (Flags.mk n' z' c' v').text →
        Flags.mk n z c v = Flags.mk n' z' c' v' := by decide +kernel
  exact key _ _ _ _ _ _ _ _ h

/-- The stack pointer and the general registers are all there is to a register file. -/
theorem RegisterFile.eq_of_shown {rf rg : RegisterFile} (hsp : rf.sp = rg.sp)
    (h : ∀ r < 31, rf.read r = rg.read r) : rf = rg := by
  refine ext_read fun r => ?_
  by_cases hr : r < 31
  · exact h r hr
  · by_cases hr' : r = 31
    · subst hr'
      exact hsp
    · rw [read, read, dif_neg (by omega), dif_neg (by omega)]

namespace Checkpoint

theorem wordEntry_injective {p q : Word × Word} (h : wordEntry p = wordEntry q) : p = q := by
  have hsep : EndsNumeral ": " := by decide
  simp only [wordEntry, Word.hex, String.append_assoc, String.append_right_inj] at h
  obtain ⟨haddress, hrest⟩ := hexadecimal_append_inj (hsep.append (by decide) _)
    (hsep.append (by decide) _) h
  simp only [String.append_right_inj] at hrest
  exact Prod.ext (BitVec.eq_of_toNat_eq haddress) (hexadecimal_injective hrest)

theorem registerLines_injective {rf rg : RegisterFile} (h : registerLines rf = registerLines rg) :
    ∀ r < 31, rf.read r = rg.read r := by
  intro r hr
  have hline := List.map_inj_left.1 h r (List.mem_range.2 hr)
  simp only [String.append_right_inj] at hline
  exact hexadecimal_injective hline

theorem headLines_injective {c d : Checkpoint} (h : c.headLines = d.headLines) :
    c.cycles = d.cycles ∧ c.core = d.core := by
  have hends : EndsNumeral " cycles:" := by decide
  unfold headLines at h
  obtain ⟨h, hlast⟩ := List.append_inj h (by simp [registerLines])
  obtain ⟨hfirst, hregisters⟩ := List.append_inj h rfl
  simp only [List.cons.injEq, String.append_right_inj, true_and, and_true] at hfirst hlast
  obtain ⟨hcycles, hpc, hsp, hflags⟩ := hfirst
  have hregisters : c.core.registers = d.core.registers :=
    RegisterFile.eq_of_shown (hexadecimal_injective hsp) (registerLines_injective hregisters)
  refine ⟨(decimal_append_inj hends hends hcycles).1, ?_⟩
  show Core.mk c.core.pc c.core.registers c.core.flags c.core.status = d.core
  rw [hexadecimal_injective hpc, hregisters, Flags.text_injective hflags,
    Status.text_injective hlast]

theorem cacheLines_injective {m n : Option CacheCounters} (h : cacheLines m = cacheLines n) :
    m = n := by
  have hsep : EndsNumeral ", " := by decide
  match m, n with
  | none, none => rfl
  | none, some n => cases h
  | some m, none => cases h
  | some m, some n =>
    simp only [cacheLines, List.cons.injEq, String.append_right_inj, true_and, and_true] at h
    obtain ⟨hprobes, hevictions⟩ := h
    obtain ⟨hhits, hmisses⟩ := decimal_pair_inj hsep (by decide) hprobes
    obtain ⟨hdirty, hclean⟩ := decimal_pair_inj hsep (by decide) hevictions
    show some (CacheCounters.mk m.hits m.misses m.dirtyEvictions m.cleanEvictions) = some n
    rw [hhits, hmisses, hdirty, hclean]

/-- Below the doublewords of a segment stands no line of a doubleword. -/
theorem isEntry_head_below (c : Checkpoint) (kinds : List SegmentKind) {below : List String}
    (h : ∀ line ∈ below, isEntry line = false) :
    ∀ line ∈ (kinds.flatMap c.sectionLines ++ below).head?, isEntry line = false := by
  intro line hline
  cases kinds with
  | nil => exact h line (List.mem_of_mem_head? hline)
  | cons kind rest =>
    obtain rfl : kind.heading = line := Option.some.inj hline
    exact isEntry_heading kind

/-- A section ends where a line is no doubleword: at the next name, or at the cache. -/
theorem sections_injective {c d : Checkpoint} (kinds : List SegmentKind)
    (h : kinds.flatMap c.sectionLines ++ c.lastLines =
      kinds.flatMap d.sectionLines ++ d.lastLines) :
    (∀ kind ∈ kinds, c.wordsOf kind = d.wordsOf kind) ∧ c.lastLines = d.lastLines := by
  induction kinds with
  | nil => exact ⟨List.forall_mem_nil _, h⟩
  | cons kind rest ih =>
    simp only [List.flatMap_cons, sectionLines, List.cons_append, List.append_assoc,
      List.cons.injEq, true_and] at h
    obtain ⟨hentries, hrest⟩ := append_inj_of_head
      (isEntry_of_mem_entries _) (isEntry_of_mem_entries _)
      (c.isEntry_head_below rest c.isEntry_lastLines)
      (d.isEntry_head_below rest d.isEntry_lastLines) h
    obtain ⟨hwords, hlast⟩ := ih hrest
    exact ⟨List.forall_mem_cons.2
      ⟨(List.map_inj_right fun _ _ => wordEntry_injective).1 hentries, hwords⟩, hlast⟩

/-- Different checkpoints have different texts. -/
theorem text_inj {c d : Checkpoint} : c.text = d.text ↔ c = d := by
  refine ⟨fun h => ?_, congrArg text⟩
  -- only the sections have a length of their own, so the lines above them are found by counting
  have hlines := congrArg linesOf h
  rw [linesOf_text, linesOf_text, List.append_left_inj] at hlines
  have hlength : c.headLines.length = d.headLines.length := by
    simp only [headLines, registerLines, List.length_append, List.length_map]
    rfl
  obtain ⟨hhead, hrest⟩ := List.append_inj hlines hlength
  obtain ⟨hwords, hlast⟩ := sections_injective _ hrest
  obtain ⟨hcycles, hcore⟩ := headLines_injective hhead
  have hwordsOf : c.wordsOf = d.wordsOf := funext fun kind => hwords kind kind.mem_all
  show Checkpoint.mk c.cycles c.core c.wordsOf c.cache = d
  rw [hcycles, hcore, hwordsOf, cacheLines_injective (List.append_cancel_right hlast)]

/-! ## Reading a section -/

/-- The lines of doublewords under the name of a segment. -/
def entriesUnder (kind : SegmentKind) (text : String) : List String :=
  (((linesOf text).dropWhile (· != kind.heading)).drop 1).takeWhile isEntry

theorem heading_injective {kind kind' : SegmentKind} (h : kind.heading = kind'.heading) :
    kind = kind' := by
  revert h
  cases kind <;> cases kind' <;> decide

theorem heading_notMem_sections {c : Checkpoint} {kind : SegmentKind} {kinds : List SegmentKind}
    (h : kind ∉ kinds) : kind.heading ∉ kinds.flatMap c.sectionLines := by
  intro hmem
  obtain ⟨kind', hkind', hmem⟩ := List.mem_flatMap.1 hmem
  rcases List.mem_cons.1 hmem with heq | hentry
  · exact h (heading_injective heq ▸ hkind')
  · have := isEntry_of_mem_entries _ _ hentry
    rw [isEntry_heading] at this
    cases this

/-- Under the name of a segment stand its doublewords. -/
theorem entriesUnder_text (c : Checkpoint) (kind : SegmentKind) :
    entriesUnder kind c.text = (c.wordsOf kind).map wordEntry := by
  obtain ⟨before, after, hall, hbefore⟩ := List.eq_append_cons_of_mem kind.mem_all
  have hlines : linesOf c.text = (c.headLines ++ before.flatMap c.sectionLines) ++
      (kind.heading :: ((c.wordsOf kind).map wordEntry ++
        (after.flatMap c.sectionLines ++ (c.lastLines ++ [""])))) := by
    rw [linesOf_text, lines, hall, List.flatMap_append, List.flatMap_cons, sectionLines]
    simp only [List.append_assoc, List.cons_append]
  have habove : ∀ line ∈ c.headLines ++ before.flatMap c.sectionLines,
      (line != kind.heading) = true := by
    intro line hline
    rw [bne_iff_ne]
    rintro rfl
    exact (List.mem_append.1 hline).elim (c.heading_notMem_headLines kind)
      (heading_notMem_sections hbefore)
  have hbelow : ∀ line ∈ c.lastLines ++ [""], isEntry line = false :=
    List.forall_mem_append.2 ⟨c.isEntry_lastLines, by decide⟩
  rw [entriesUnder, hlines, List.dropWhile_append_of_pos habove,
    List.dropWhile_cons_of_neg (by simp), List.drop_one, List.tail_cons,
    takeWhile_append_of_head (isEntry_of_mem_entries _) (c.isEntry_head_below after hbelow)]

/-- The lines of doublewords are those of the segments, one after the other. -/
theorem filter_isEntry_text (c : Checkpoint) : (linesOf c.text).filter isEntry =
    (SegmentKind.all.flatMap c.wordsOf).map wordEntry := by
  have hnone : ∀ {lines : List String}, (∀ line ∈ lines, isEntry line = false) →
      lines.filter isEntry = [] := fun h =>
    List.filter_eq_nil_iff.2 fun line hline => by rw [h line hline]; decide
  have hsection : ∀ kind, (c.sectionLines kind).filter isEntry =
      (c.wordsOf kind).map wordEntry := by
    intro kind
    rw [sectionLines, List.filter_cons_of_neg (by rw [isEntry_heading]; decide),
      List.filter_eq_self.2 (isEntry_of_mem_entries _)]
  have hbelow : ([""] : List String).filter isEntry = [] := by decide
  rw [linesOf_text, lines, List.filter_append, List.filter_append, List.filter_append,
    hnone c.isEntry_headLines, hnone c.isEntry_lastLines, hbelow, List.filter_flatMap,
    List.map_flatMap]
  simp only [hsection, List.nil_append, List.append_nil]

end Checkpoint

end FiveStage
