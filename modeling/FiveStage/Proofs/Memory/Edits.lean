import FiveStage.Proofs.Memory.Bytes

/-!
# Edits of a memory

* `MemoryEdit` : what can be done to a memory, to its pages and to the map that it stands for;
* `MemoryEdit.byte_apply` : one edit; `Memory.edited_byte` : any number of them;
* `Memory.toNat_word`, `Memory.toNat_instrWord` : words as numbers;
* `Memory.mem_populatedWords`, `Memory.pairwise_populatedWords` : what is listed, and in which
  order;
* `Memory.edited_shows` : all of it, for a memory that starts without pages.
-/

namespace FiveStage

/-! ## Edits -/

/-- What can be done to a memory: a page is added, or one byte, a doubleword or a run of bytes is
stored. -/
inductive MemoryEdit where
  | allocate (a : Word)
  | byte (a : Word) (v : Byte)
  | word (a v : Word)
  | block (a : Word) (bs : List Byte)

namespace MemoryEdit

/-- The pages after an edit. -/
def apply (m : Memory) : MemoryEdit → Memory
  | allocate a => (m.allocate a).getD m
  | byte a v => m.setByte a v
  | word a v => m.setWord a v
  | block a bs => m.writeBytes a bs

/-- The map after an edit. -/
def update (f : ByteMap) : MemoryEdit → ByteMap
  | allocate _ => f
  | byte a v => f.store a [v]
  | word a v => f.store a (littleBytes 8 v.toNat)
  | block a bs => f.store a bs

end MemoryEdit

theorem Word.map_byte_eq_littleBytes (v : Word) (n : Nat) :
    (List.range n).map v.byte = littleBytes n v.toNat := by
  refine List.map_congr_left fun i _ => ?_
  rw [Word.byte, Byte.ofNat_eq, Nat.shiftRight_eq_div_pow, Nat.pow_mul]

/-- An edit does to what the pages show what it does to the map. -/
theorem MemoryEdit.byte_apply (e : MemoryEdit) (m : Memory) :
    (e.apply m).byte = e.update m.byte := by
  cases e with
  | allocate a =>
    funext x
    rw [apply, update]
    cases h : m.allocate a with
    | none => rfl
    | some m' => exact Memory.byte_of_allocate h x
  | byte a v =>
    funext x
    rw [apply, update, Memory.byte_setByte]
    simp only [ByteMap.store, eq_comm]
  | word a v =>
    rw [apply, update, Memory.setWord, Memory.byte_writeBytes_eq_store,
      Word.map_byte_eq_littleBytes]
  | block a bs => exact m.byte_writeBytes_eq_store a bs

namespace Memory

/-- After any edits the pages show what the map holds. -/
theorem edited_byte (edits : List MemoryEdit) (m : Memory) :
    (edits.foldl MemoryEdit.apply m).byte = edits.foldl MemoryEdit.update m.byte := by
  induction edits generalizing m with
  | nil => rfl
  | cons e rest ih => rw [List.foldl_cons, ih, e.byte_apply, List.foldl_cons]

/-! ## Words as numbers -/

theorem toNat_word (m : Memory) (a : Word) :
    (m.word a).toNat = littleEndian (ByteMap.read m.byte a 8) := by
  have hb := fun i => (m.byte (a + BitVec.ofNat 64 i)).isLt
  have h0 := hb 0; have h1 := hb 1; have h2 := hb 2; have h3 := hb 3
  have h4 := hb 4; have h5 := hb 5; have h6 := hb 6; have h7 := hb 7
  rw [word_eq, Word.ofBytes, Word.ofNat_eq, BitVec.toNat_ofNat]
  simp only [ByteMap.read, List.range_succ, List.range_zero, List.nil_append, List.map_cons,
    List.map_nil, List.cons_append, littleEndian]
  omega

theorem toNat_instrWord (m : Memory) (a : Word) :
    (m.instrWord a).toNat = littleEndian (ByteMap.read m.byte a 4) := by
  rw [instrWord_eq, InstrWord.ofBytes, BitVec.toNat_ofNatLT]
  rfl

/-! ## What is listed -/

variable {m : Memory} {a v : Word}

/-- The address of a doubleword of a page. -/
theorem toNat_ofNat_page (page : PageKey) {i : Nat} (hi : i < pageSize / 8) :
    (BitVec.ofNat 64 (page.toNat * pageSize + 8 * i)).toNat = page.toNat * pageSize + 8 * i := by
  have hpage := page.isLt
  have hlt : page.toNat * pageSize + 8 * i < 2 ^ 64 := by
    simp only [pageSize] at *
    omega
  rw [BitVec.toNat_ofNat, Nat.mod_eq_of_lt hlt]

/-- Where a doubleword at a multiple of 8 is not zero, its page is present. -/
theorem mem_pages_of_word_ne_zero (ha : a.toNat % 8 = 0) (h : m.word a ≠ 0) :
    a.page ∈ m.pages := by
  false_or_by_contra
  rename_i hpage
  have hnone : m.pages[a.page]? = none := Std.TreeMap.getElem?_eq_none hpage
  have hzeros : m.word a = Word.ofBytes fun _ => 0 := by
    rw [word_eq]
    refine Word.ofBytes_congr fun i hi => ?_
    -- all eight bytes lie in the page of the first one
    have hin : (a + BitVec.ofNat 64 i).page = a.page := by
      have hlt := a.isLt
      rw [Word.page_eq_iff, Word.pageNumber, Word.pageNumber, pageSize, BitVec.toNat_add,
        BitVec.toNat_ofNat]
      omega
    rw [byte, hin, hnone]
  exact h (hzeros.trans (by decide))

theorem mem_pageWords {page : PageKey} : (a, v) ∈ m.pageWords page ↔
    (∃ i < pageSize / 8, a = BitVec.ofNat 64 (page.toNat * pageSize + 8 * i)) ∧ v = m.word a ∧
      v ≠ 0 := by
  simp only [pageWords, List.mem_filter, List.mem_map, List.mem_range, Prod.mk.injEq, bne_iff_ne]
  constructor
  · rintro ⟨⟨i, hi, rfl, rfl⟩, hv⟩
    exact ⟨⟨i, hi, rfl⟩, rfl, hv⟩
  · rintro ⟨⟨i, hi, rfl⟩, rfl, hv⟩
    exact ⟨⟨i, hi, rfl, rfl⟩, hv⟩

/-- The doublewords that are listed are those at multiples of 8 that are not zero. -/
theorem mem_populatedWords :
    (a, v) ∈ m.populatedWords ↔ a.toNat % 8 = 0 ∧ v = m.word a ∧ v ≠ 0 := by
  rw [populatedWords, List.mem_flatMap]
  constructor
  · rintro ⟨page, -, hmem⟩
    obtain ⟨⟨i, hi, rfl⟩, hv⟩ := mem_pageWords.1 hmem
    refine ⟨?_, hv⟩
    rw [toNat_ofNat_page page hi, pageSize]
    omega
  · rintro ⟨ha, rfl, hv⟩
    refine ⟨a.page, Std.TreeMap.mem_keys.2 (mem_pages_of_word_ne_zero ha hv),
      mem_pageWords.2 ⟨⟨a.pageOffset / 8, ?_, BitVec.eq_of_toNat_eq ?_⟩, rfl, hv⟩⟩
    · have := a.pageOffset_lt
      simp only [pageSize] at *
      omega
    · have hlt := a.isLt
      have hpage : a.page.toNat = a.toNat / pageSize := rfl
      rw [hpage, Word.pageOffset, pageSize, BitVec.toNat_ofNat]
      omega

theorem pairwise_pageWords (page : PageKey) :
    (m.pageWords page).Pairwise (fun p q => p.1 < q.1) := by
  refine List.Pairwise.filter _ (List.pairwise_map.2 ?_)
  refine List.pairwise_lt_range.imp_of_mem fun {i j} hi hj hij => ?_
  rw [List.mem_range] at hi hj
  rw [BitVec.lt_def, toNat_ofNat_page page hi, toNat_ofNat_page page hj]
  omega

/-- Doublewords are listed in the order of their addresses. -/
theorem pairwise_populatedWords (m : Memory) :
    m.populatedWords.Pairwise (fun p q => p.1 < q.1) := by
  rw [populatedWords, List.pairwise_flatMap]
  refine ⟨fun page _ => pairwise_pageWords page, ?_⟩
  refine m.pages.ordered_keys.imp fun {p q} hpq => ?_
  rintro ⟨a, v⟩ ha ⟨b, w⟩ hb
  obtain ⟨⟨i, hi, rfl⟩, -⟩ := mem_pageWords.1 ha
  obtain ⟨⟨j, hj, rfl⟩, -⟩ := mem_pageWords.1 hb
  rw [BitVec.lt_def, toNat_ofNat_page p hi, toNat_ofNat_page q hj]
  have hlt : p.toNat < q.toNat := BitVec.lt_def.1 (compareOfLessAndEq_eq_lt.1 hpq)
  simp only [pageSize] at *
  omega

/-- A memory that starts without pages shows, after any edits, what the map holds: bytes one by one,
numbers with the low byte first, and runs. It lists every doubleword at a multiple of 8 that is not
zero, once, by address. -/
theorem edited_shows (edits : List MemoryEdit) :
    let m := edits.foldl MemoryEdit.apply empty
    let f := edits.foldl MemoryEdit.update ByteMap.zero
    (∀ a, m.byte a = f a) ∧
    (∀ a, (m.instrWord a).toNat = littleEndian (f.read a 4)) ∧
    (∀ a, (m.word a).toNat = littleEndian (f.read a 8)) ∧
    (∀ a n, m.readBytes a n = f.read a n) ∧
    (∀ a v, (a, v) ∈ m.populatedWords ↔ a.toNat % 8 = 0 ∧ v = m.word a ∧ v ≠ 0) ∧
    m.populatedWords.Pairwise (fun p q => p.1 < q.1) := by
  intro m f
  have hbyte : m.byte = f := by
    have hzero : empty.byte = ByteMap.zero := funext byte_empty
    rw [edited_byte, hzero]
  refine ⟨fun a => congrFun hbyte a, fun a => ?_, fun a => ?_, fun a n => ?_,
    fun a v => mem_populatedWords, m.pairwise_populatedWords⟩
  · rw [toNat_instrWord, hbyte]
  · rw [toNat_word, hbyte]
  · rw [readBytes_eq, hbyte, ByteMap.read]

end Memory

end FiveStage
