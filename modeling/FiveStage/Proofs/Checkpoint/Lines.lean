import FiveStage.Checkpoint
import FiveStage.Proofs.Text.Lines

/-!
# The lines of a checkpoint

* `Checkpoint.lines` : the lines before the segments, those of each segment, those behind them;
* `Checkpoint.linesOf_text` : they are the lines of the text;
* `Checkpoint.marked_headLines`, `Checkpoint.marked_cacheLines` : what lines start with;
* `Checkpoint.isEntry` : whether a line is that of a doubleword. No other line looks like one, and
  the name of a segment stands nowhere but above its doublewords.
-/

namespace FiveStage

/-! ## The lines of a checkpoint -/

/-- The segments in the order they are shown. -/
def SegmentKind.all : List SegmentKind := [.text, .data, .heap, .stack]

theorem SegmentKind.mem_all (kind : SegmentKind) : kind ∈ SegmentKind.all := by
  cases kind <;> decide

/-- The line that names a segment. -/
def SegmentKind.heading : SegmentKind → String
  | text => "\t\tText segment:"
  | data => "\t\tData segment:"
  | heap => "\t\tHeap:"
  | stack => "\t\tStack:"

namespace Checkpoint

/-- What a line of a doubleword starts with. -/
def entryMark : String := "\t\t\tAddress "

/-- The line of a doubleword. -/
def wordEntry (w : Word × Word) : String := entryMark ++ (w.1.hex ++ (": " ++ w.2.hex))

/-- Whether a line is that of a doubleword. -/
def isEntry (line : String) : Bool := entryMark.toList.isPrefixOf line.toList

/-- The lines of the general registers. -/
def registerLines (rf : RegisterFile) : List String :=
  (List.range 31).map fun i =>
    "\t\t\tRegister X" ++ (decimal i ++ (": " ++ hexadecimal (rf.read i).toNat))

/-- The lines before the first segment. -/
def headLines (c : Checkpoint) : List String :=
  ["Machine state checkpoint after " ++ (decimal c.cycles ++ " cycles:"),
    "\tProcessor state:",
    "\t\tProgram Counter: " ++ hexadecimal c.core.pc.toNat,
    "\t\tStack Pointer: " ++ hexadecimal c.core.registers.sp.toNat,
    "\t\tCondition Flags: " ++ c.core.flags.text,
    "\t\tGeneral Purpose Register File state:"] ++
  registerLines c.core.registers ++
  ["\t\tStatus: " ++ c.core.status.text, "\tMemory state:"]

/-- A segment: its name, and its doublewords. -/
def sectionLines (c : Checkpoint) (kind : SegmentKind) : List String :=
  kind.heading :: (c.wordsOf kind).map wordEntry

/-- The lines of the cache. -/
def cacheLines : Option CacheCounters → List String
  | some n =>
    ["\tCache state:",
      "\t\tNumber of cache hits, misses: " ++ (decimal n.hits ++ (", " ++ decimal n.misses)),
      "\t\tNumber of dirty, clean evictions: " ++ (decimal n.dirtyEvictions ++
        (", " ++ decimal n.cleanEvictions))]
  | none => []

/-- The lines behind the last segment. -/
def lastLines (c : Checkpoint) : List String := cacheLines c.cache ++ [""]

/-- The lines of a checkpoint. -/
def lines (c : Checkpoint) : List String :=
  c.headLines ++ (SegmentKind.all.flatMap c.sectionLines ++ c.lastLines)

theorem zipIdx_general (rf : RegisterFile) :
    rf.general.zipIdx = (List.range 31).map fun i => (rf.read i, i) := by
  rw [RegisterFile.general]
  rfl

theorem unlines_entries (words : List (Word × Word)) :
    unlines (words.map wordEntry) = String.join (words.map wordLine) := by
  rw [unlines, List.map_map]
  refine congrArg String.join (List.map_congr_left fun w _ => ?_)
  show wordEntry w ++ "\n" = wordLine w
  unfold wordEntry entryMark wordLine
  simp only [String.append_assoc]

theorem unlines_sectionLines (c : Checkpoint) (kind : SegmentKind) :
    unlines (c.sectionLines kind) =
      kind.heading ++ "\n" ++ String.join ((c.wordsOf kind).map wordLine) := by
  rw [sectionLines, unlines_cons, unlines_entries]

theorem unlines_registerLines (rf : RegisterFile) : unlines (registerLines rf) =
    String.join (rf.general.zipIdx.map fun (v, i) => registerLine i v) := by
  rw [unlines, registerLines, List.map_map, zipIdx_general, List.map_map]
  refine congrArg String.join (List.map_congr_left fun i _ => ?_)
  show _ ++ "\n" = registerLine i (rf.read i)
  unfold registerLine
  simp only [String.append_assoc]

theorem unlines_headLines (c : Checkpoint) : unlines c.headLines =
    "Machine state checkpoint after " ++ decimal c.cycles ++ " cycles:\n" ++ coreText c.core ++
      "\tMemory state:\n" := by
  unfold headLines coreText
  rw [unlines_append, unlines_append, unlines_registerLines,
    show " cycles:\n" = " cycles:" ++ "\n" from rfl,
    show "\tProcessor state:\n" = "\tProcessor state:" ++ "\n" from rfl,
    show "\t\tGeneral Purpose Register File state:\n" =
      "\t\tGeneral Purpose Register File state:" ++ "\n" from rfl,
    show "\tMemory state:\n" = "\tMemory state:" ++ "\n" from rfl]
  simp only [unlines_cons, unlines_nil, String.append_empty, String.append_assoc]

theorem unlines_cacheLines (n : CacheCounters) : unlines (cacheLines (some n)) = cacheText n := by
  unfold cacheText
  rw [cacheLines, show "\tCache state:\n" = "\tCache state:" ++ "\n" from rfl]
  simp only [unlines_cons, unlines_nil, String.append_empty, String.append_assoc]

theorem text_eq_unlines (c : Checkpoint) : c.text = unlines c.lines := by
  have hsection : ∀ title kind, SegmentKind.heading kind = "\t\t" ++ title ++ ":" →
      segmentText title (c.wordsOf kind) = unlines (c.sectionLines kind) := by
    intro title kind h
    unfold segmentText
    rw [unlines_sectionLines, h, show ":\n" = ":" ++ "\n" from rfl]
    simp only [String.append_assoc]
  unfold text
  rw [lines, unlines_append, unlines_headLines, unlines_append, lastLines, unlines_append,
    hsection _ .text rfl, hsection _ .data rfl, hsection _ .heap rfl, hsection _ .stack rfl]
  simp only [SegmentKind.all, List.flatMap_cons, List.flatMap_nil, unlines_append, unlines_nil,
    String.append_empty, String.append_assoc]
  cases c.cache with
  | none => rfl
  | some n =>
    rw [unlines_cacheLines]
    rfl

/-! ## No line is broken -/

theorem unbroken_flags (f : Flags) : Unbroken f.text := by
  obtain ⟨n, z, c, v⟩ := f
  revert n z c v
  decide +kernel

theorem unbroken_status (s : Status) : Unbroken s.text := by
  cases s <;> decide

theorem unbroken_headLines (c : Checkpoint) : ∀ line ∈ c.headLines, Unbroken line := by
  rw [headLines, List.forall_mem_append, List.forall_mem_append]
  refine ⟨⟨?_, fun line h => ?_⟩, ?_⟩
  · simp only [List.forall_mem_cons]
    exact ⟨.append (by decide) (.append (unbroken_decimal _) (by decide)), by decide,
      .append (by decide) (unbroken_hexadecimal _), .append (by decide) (unbroken_hexadecimal _),
      .append (by decide) (unbroken_flags _), by decide, List.forall_mem_nil _⟩
  · obtain ⟨i, -, rfl⟩ := List.mem_map.1 h
    exact .append (by decide) (.append (unbroken_decimal i)
      (.append (by decide) (unbroken_hexadecimal _)))
  · simp only [List.forall_mem_cons]
    exact ⟨.append (by decide) (unbroken_status _), by decide, List.forall_mem_nil _⟩

theorem unbroken_sectionLines (c : Checkpoint) (kind : SegmentKind) :
    ∀ line ∈ c.sectionLines kind, Unbroken line := by
  have hhex : ∀ w : Word, Unbroken w.hex := fun w =>
    .append (by decide) (unbroken_hexadecimal w.toNat)
  refine List.forall_mem_cons.2 ⟨by cases kind <;> decide, fun line h => ?_⟩
  obtain ⟨w, -, rfl⟩ := List.mem_map.1 h
  exact .append (by decide) (.append (hhex _) (.append (by decide) (hhex _)))

theorem unbroken_cacheLines (n : Option CacheCounters) :
    ∀ line ∈ cacheLines n, Unbroken line := by
  have hpair : ∀ i j, Unbroken (decimal i ++ (", " ++ decimal j)) := fun i j =>
    .append (unbroken_decimal i) (.append (by decide) (unbroken_decimal j))
  cases n with
  | none => exact List.forall_mem_nil _
  | some n =>
    simp only [cacheLines, List.forall_mem_cons]
    exact ⟨by decide, .append (by decide) (hpair _ _), .append (by decide) (hpair _ _),
      List.forall_mem_nil _⟩

theorem unbroken_lines (c : Checkpoint) : ∀ line ∈ c.lines, Unbroken line := by
  rw [lines, lastLines, List.forall_mem_append, List.forall_mem_append, List.forall_mem_append]
  refine ⟨c.unbroken_headLines, fun line h => ?_, unbroken_cacheLines c.cache, by decide⟩
  obtain ⟨kind, -, h⟩ := List.mem_flatMap.1 h
  exact c.unbroken_sectionLines kind line h

theorem linesOf_text (c : Checkpoint) : linesOf c.text = c.lines ++ [""] := by
  rw [text_eq_unlines, linesOf_unlines c.unbroken_lines]

/-! ## What lines start with -/

/-- What the lines before the first segment start with. -/
def headMarks : List String :=
  ["Machine state checkpoint after ", "\tProcessor state:", "\t\tProgram Counter: ",
    "\t\tStack Pointer: ", "\t\tCondition Flags: ", "\t\tGeneral Purpose Register File state:",
    "\t\t\tRegister X", "\t\tStatus: ", "\tMemory state:"]

theorem marked_headLines (c : Checkpoint) : ∀ line ∈ c.headLines, Marked headMarks line := by
  rw [headLines, List.forall_mem_append, List.forall_mem_append]
  refine ⟨⟨?_, fun line h => ?_⟩, ?_⟩
  · simp only [List.forall_mem_cons]
    exact ⟨marked_append (by decide) _, marked_self (by decide), marked_append (by decide) _,
      marked_append (by decide) _, marked_append (by decide) _, marked_self (by decide),
      List.forall_mem_nil _⟩
  · obtain ⟨i, -, rfl⟩ := List.mem_map.1 h
    exact marked_append (by decide) _
  · simp only [List.forall_mem_cons]
    exact ⟨marked_append (by decide) _, marked_self (by decide), List.forall_mem_nil _⟩

/-- What the lines of the cache start with. -/
def cacheMarks : List String :=
  ["\tCache state:", "\t\tNumber of cache hits, misses: ",
    "\t\tNumber of dirty, clean evictions: "]

theorem marked_cacheLines (n : Option CacheCounters) :
    ∀ line ∈ cacheLines n, Marked cacheMarks line := by
  cases n with
  | none => exact List.forall_mem_nil _
  | some n =>
    simp only [cacheLines, List.forall_mem_cons]
    exact ⟨marked_self (by decide), marked_append (by decide) _, marked_append (by decide) _,
      List.forall_mem_nil _⟩

theorem isEntry_of_marked {marks : List String} {line : String} (h : Marked marks line)
    (hne : ∀ mark ∈ marks,
      ¬ mark.toList <+: entryMark.toList ∧ ¬ entryMark.toList <+: mark.toList) :
    isEntry line = false := by
  rw [isEntry, Bool.eq_false_iff, ne_eq, List.isPrefixOf_iff_prefix]
  exact h.not_start hne

theorem isEntry_headLines (c : Checkpoint) : ∀ line ∈ c.headLines, isEntry line = false :=
  fun line h => isEntry_of_marked (c.marked_headLines line h) (by decide)

theorem isEntry_lastLines (c : Checkpoint) : ∀ line ∈ c.lastLines, isEntry line = false :=
  List.forall_mem_append.2
    ⟨fun line h => isEntry_of_marked (marked_cacheLines c.cache line h) (by decide), by decide⟩

theorem isEntry_heading (kind : SegmentKind) : isEntry kind.heading = false := by
  cases kind <;> decide

theorem isEntry_wordEntry (w : Word × Word) : isEntry (wordEntry w) = true := by
  rw [isEntry, List.isPrefixOf_iff_prefix, wordEntry, String.toList_append]
  exact List.prefix_append _ _

theorem isEntry_of_mem_entries (words : List (Word × Word)) :
    ∀ line ∈ words.map wordEntry, isEntry line = true :=
  List.forall_mem_map.2 fun w _ => isEntry_wordEntry w

theorem heading_notMem_headLines (c : Checkpoint) (kind : SegmentKind) :
    kind.heading ∉ c.headLines := by
  intro h
  refine (c.marked_headLines _ h).not_start ?_ (List.prefix_refl _)
  cases kind <;> decide

end Checkpoint

end FiveStage
