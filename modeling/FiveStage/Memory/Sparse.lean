import Std.Data.TreeMap
import FiveStage.Bits.Bytes

/-!
# Sparse memory

* `Memory` : pages of 4096 bytes, kept only where something was written or allocated; a page that
  is absent reads as zero; `Word.page`, `Word.pageOffset` : where an address lies;
* `Memory.byte`, `Memory.setByte` : one byte, and what a read sees after a write;
* `Memory.word`, `Memory.setWord`, `Memory.instrWord` : little-endian accesses, with addresses that
  wrap at the end of the address space;
* `Memory.readBytes`, `Memory.writeBytes` : runs of bytes;
* `Memory.populatedWords` : every nonzero doubleword, by address.
-/

namespace FiveStage

/-- Bytes in a page. -/
def pageSize : Nat := 4096

/-- The bytes of one page. -/
abbrev Page := Vector Byte pageSize

/-- A page of zeros. -/
def Page.blank : Page := Vector.replicate pageSize 0

/-- Stores bytes one after the other from an offset on. Those beyond the end of the page are
lost. -/
def Page.store (p : Page) (offset : Nat) : List Byte → Page
  | [] => p
  | b :: rest => Page.store (p.setIfInBounds offset b) (offset + 1) rest

/-- What a page is found by: the pages of the address space are numbered in 52 bits. -/
abbrev PageKey := BitVec 52

/-- Byte-addressed memory over the whole address space. -/
structure Memory where
  pages : Std.TreeMap PageKey Page

namespace Word

/-- The number of the page an address lies in. -/
def pageNumber (a : Word) : Nat := a.toNat / pageSize

theorem pageNumber_lt (a : Word) : a.pageNumber < 2 ^ 52 := by
  have ha := a.isLt
  rw [pageNumber, pageSize]
  omega

/-- The page an address lies in. -/
def page (a : Word) : PageKey := BitVec.ofNatLT a.pageNumber a.pageNumber_lt

theorem page_eq_iff {a b : Word} : a.page = b.page ↔ a.pageNumber = b.pageNumber :=
  BitVec.toNat_inj.symm

/-- The place of an address within its page. -/
def pageOffset (a : Word) : Nat := a.toNat % pageSize

theorem pageOffset_lt (a : Word) : a.pageOffset < pageSize := Nat.mod_lt _ (by decide)

theorem eq_of_page_eq {a b : Word} (hn : a.page = b.page) (ho : a.pageOffset = b.pageOffset) :
    a = b := by
  apply BitVec.eq_of_toNat_eq
  rw [← Nat.div_add_mod a.toNat pageSize, ← Nat.div_add_mod b.toNat pageSize]
  exact congr (congrArg _ (congrArg _ (page_eq_iff.1 hn))) ho

end Word

namespace Memory

/-- Memory without any page. -/
def empty : Memory := ⟨∅⟩

/-- Whether the page of an address is present. -/
def hasPage (m : Memory) (a : Word) : Bool := m.pages.contains a.page

/-- Adds a page of zeros for an address, unless there is one already. -/
def allocate (m : Memory) (a : Word) : Option Memory :=
  if m.hasPage a then none else some ⟨m.pages.insert a.page Page.blank⟩

/-- The byte at an address. -/
def byte (m : Memory) (a : Word) : Byte :=
  match m.pages[a.page]? with
  | some page =>
    have := a.pageOffset_lt
    page[a.pageOffset]
  | none => 0

/-- Stores a byte, adding its page if need be. -/
def setByte (m : Memory) (a : Word) (v : Byte) : Memory :=
  ⟨m.pages.alter a.page fun page =>
    some ((page.getD Page.blank).set a.pageOffset v a.pageOffset_lt)⟩

/-- The first `n` bytes from an address on, by their distance from it. If they share a page, it is
looked up once. -/
def bytesFrom (m : Memory) (a : Word) (n : Nat) : Nat → Byte :=
  if a.pageOffset + n ≤ pageSize then
    match m.pages[a.page]? with
    | some page => fun i => page[a.pageOffset + i]?.getD 0
    | none => fun _ => 0
  else fun i => m.byte (a.sum (Word.ofNat i))

/-- The doubleword at an address. -/
def word (m : Memory) (a : Word) : Word := Word.ofBytes (m.bytesFrom a 8)

/-- The instruction word at an address. -/
def instrWord (m : Memory) (a : Word) : InstrWord := InstrWord.ofBytes (m.bytesFrom a 4)

/-- Stores bytes that share a page, adding it if need be. -/
def writeInPage (m : Memory) (a : Word) (bs : List Byte) : Memory :=
  ⟨m.pages.alter a.page fun page =>
    some ((page.getD Page.blank).store a.pageOffset bs)⟩

/-- Stores bytes one after the other from an address on, page by page, in at most so many pages. -/
def writePages : Nat → Memory → Word → List Byte → Memory
  | 0, m, _, _ => m
  | _, m, _, [] => m
  | n + 1, m, a, b :: rest =>
    let room := pageSize - a.pageOffset
    writePages n (m.writeInPage a ((b :: rest).take room)) (a + BitVec.ofNat 64 room)
      ((b :: rest).drop room)

/-- Stores bytes one after the other from an address on. -/
def writeBytes (m : Memory) (a : Word) (bs : List Byte) : Memory := writePages bs.length m a bs

/-- The `n` bytes from an address on, page by page, those of at most so many pages. -/
def readPages (m : Memory) : Nat → Word → Nat → List Byte
  | 0, _, _ => []
  | pages + 1, a, n =>
    let here := min n (pageSize - a.pageOffset)
    if here = n then (List.range n).map (m.bytesFrom a n)
    else
      (List.range here).map (m.bytesFrom a here) ++
        m.readPages pages (a + BitVec.ofNat 64 here) (n - here)

/-- The `n` bytes from an address on. -/
def readBytes (m : Memory) (a : Word) (n : Nat) : List Byte := m.readPages (n + 1) a n

/-- Stores a doubleword. -/
def setWord (m : Memory) (a v : Word) : Memory :=
  m.writeBytes a ((List.range 8).map v.byte)

/-- The nonzero doublewords of one page. -/
def pageWords (m : Memory) (page : PageKey) : List (Word × Word) :=
  ((List.range (pageSize / 8)).map fun i =>
      let a := BitVec.ofNat 64 (page.toNat * pageSize + 8 * i)
      (a, m.word a)).filter
    fun (_, v) => v != 0

/-- Every nonzero doubleword at a multiple of 8, in order of address. -/
def populatedWords (m : Memory) : List (Word × Word) := m.pages.keys.flatMap m.pageWords

/-! ## Reading what was written -/

@[simp] theorem byte_empty (a : Word) : empty.byte a = 0 := by
  simp [byte, empty]

theorem byte_setByte (m : Memory) (a b : Word) (v : Byte) :
    (m.setByte a v).byte b = if a = b then v else m.byte b := by
  simp only [byte, setByte, Std.TreeMap.getElem?_alter, Std.LawfulEqCmp.compare_eq_iff_eq]
  by_cases hn : a.page = b.page
  · rw [if_pos hn]
    simp only [hn]
    by_cases ho : a.pageOffset = b.pageOffset
    · simp only [Word.eq_of_page_eq hn ho, if_true, Vector.getElem_set_self]
    · have hab : a ≠ b := fun h => ho (h ▸ rfl)
      rw [if_neg hab, Vector.getElem_set_ne _ _ ho]
      split <;> rename_i h <;> simp [h, Page.blank]
  · have hab : a ≠ b := fun h => hn (h ▸ rfl)
    rw [if_neg hn, if_neg hab]

/-- A new page changes no byte. -/
theorem byte_of_allocate {m m' : Memory} {a : Word} (h : m.allocate a = some m') (b : Word) :
    m'.byte b = m.byte b := by
  by_cases hc : m.hasPage a = true
  · rw [allocate, if_pos hc] at h
    cases h
  · rw [allocate, if_neg hc] at h
    obtain rfl := Option.some.inj h
    simp only [byte, Std.TreeMap.getElem?_insert, Std.LawfulEqCmp.compare_eq_iff_eq]
    by_cases hp : a.page = b.page
    · have hnone : m.pages[b.page]? = none := by
        rw [← hp]
        exact Std.TreeMap.getElem?_eq_none_of_contains_eq_false (Bool.eq_false_iff.2 hc)
      rw [if_pos hp, hnone]
      simp [Page.blank]
    · rw [if_neg hp]

/-! ## Runs of bytes -/

/-- A byte stored in a page is found at its distance from the first one. -/
theorem getElem_store (p : Page) (offset : Nat) (bs : List Byte) (i : Nat) (hi : i < pageSize) :
    (p.store offset bs)[i] = if offset ≤ i then bs[i - offset]?.getD p[i] else p[i] := by
  induction bs generalizing p offset with
  | nil => simp [Page.store]
  | cons v rest ih =>
    rw [Page.store, ih, Vector.getElem_setIfInBounds]
    by_cases h : offset = i
    · subst h
      rw [if_neg (by omega), if_pos rfl, if_pos (Nat.le_refl _), Nat.sub_self]
      rfl
    · rw [if_neg h]
      by_cases hlt : offset ≤ i
      · rw [if_pos (by omega), if_pos hlt, show i - offset = i - (offset + 1) + 1 by omega,
          List.getElem?_cons_succ]
      · rw [if_neg (by omega), if_neg hlt]

/-- How far an address lies behind another one of its page. -/
private theorem toNat_sub_of_le {a b : Word} (hpage : a.page = b.page)
    (ho : a.pageOffset ≤ b.pageOffset) : (b - a).toNat = b.pageOffset - a.pageOffset := by
  have hn := Word.page_eq_iff.1 hpage
  have ha := a.isLt
  have hb := b.isLt
  simp only [Word.pageNumber, Word.pageOffset, pageSize] at hn ho ⊢
  rw [BitVec.toNat_sub]
  omega

/-- An address outside the run is at least as far away as the run is long. -/
private theorem le_toNat_sub {a b : Word} {n : Nat} (hr : a.pageOffset + n ≤ pageSize)
    (h : a.page = b.page → b.pageOffset < a.pageOffset) : n ≤ (b - a).toNat := by
  have ha := a.isLt
  have hb := b.isLt
  simp only [Word.page_eq_iff, Word.pageNumber, Word.pageOffset, pageSize] at hr h
  rw [BitVec.toNat_sub]
  omega

/-- Bytes written into a page are found again at their distance from the first one. -/
theorem byte_writeInPage (m : Memory) {a : Word} {bs : List Byte}
    (h : a.pageOffset + bs.length ≤ pageSize) (b : Word) :
    (m.writeInPage a bs).byte b = bs[(b - a).toNat]?.getD (m.byte b) := by
  simp only [byte, writeInPage, Std.TreeMap.getElem?_alter, Std.LawfulEqCmp.compare_eq_iff_eq]
  by_cases hn : a.page = b.page
  · rw [if_pos hn]
    simp only [hn, getElem_store]
    by_cases ho : a.pageOffset ≤ b.pageOffset
    · rw [if_pos ho, toNat_sub_of_le hn ho]
      split <;> rename_i hp <;> simp [hp, Page.blank]
    · rw [if_neg ho, List.getElem?_eq_none (le_toNat_sub h fun _ => by omega), Option.getD_none]
      split <;> rename_i hp <;> simp [hp, Page.blank]
  · rw [if_neg hn, List.getElem?_eq_none (le_toNat_sub h fun e => absurd e hn), Option.getD_none]

/-- Reading a run shows the bytes one by one. -/
theorem bytesFrom_eq (m : Memory) (a : Word) {n i : Nat} (hi : i < n) :
    m.bytesFrom a n i = m.byte (a + BitVec.ofNat 64 i) := by
  rw [bytesFrom]
  split
  · rename_i h
    have ha := a.isLt
    have hnat : (a + BitVec.ofNat 64 i).toNat = a.toNat + i := by
      simp only [Word.pageOffset, pageSize] at h
      rw [BitVec.toNat_add, BitVec.toNat_ofNat]
      omega
    have hn : (a + BitVec.ofNat 64 i).page = a.page := by
      simp only [Word.pageOffset, pageSize] at h
      rw [Word.page_eq_iff, Word.pageNumber, Word.pageNumber, hnat, pageSize]
      omega
    have ho : (a + BitVec.ofNat 64 i).pageOffset = a.pageOffset + i := by
      simp only [Word.pageOffset, pageSize] at h ⊢
      rw [hnat]
      omega
    have hlt : a.pageOffset + i < pageSize := by omega
    simp only [byte, hn, ho]
    split <;> rename_i hp <;> simp [hp, hlt]
  · rfl

/-- A doubleword, byte by byte. -/
theorem word_eq (m : Memory) (a : Word) :
    m.word a = Word.ofBytes fun i => m.byte (a + BitVec.ofNat 64 i) := by
  simp only [word, Word.ofBytes, bytesFrom_eq m a (show 0 < 8 by decide),
    bytesFrom_eq m a (show 1 < 8 by decide), bytesFrom_eq m a (show 2 < 8 by decide),
    bytesFrom_eq m a (show 3 < 8 by decide), bytesFrom_eq m a (show 4 < 8 by decide),
    bytesFrom_eq m a (show 5 < 8 by decide), bytesFrom_eq m a (show 6 < 8 by decide),
    bytesFrom_eq m a (show 7 < 8 by decide)]

/-- An instruction word, byte by byte. -/
theorem instrWord_eq (m : Memory) (a : Word) :
    m.instrWord a = InstrWord.ofBytes fun i => m.byte (a + BitVec.ofNat 64 i) := by
  simp only [instrWord, InstrWord.ofBytes, bytesFrom_eq m a (show 0 < 4 by decide),
    bytesFrom_eq m a (show 1 < 4 by decide), bytesFrom_eq m a (show 2 < 4 by decide),
    bytesFrom_eq m a (show 3 < 4 by decide)]

private theorem map_bytesFrom (m : Memory) (a : Word) (n : Nat) :
    (List.range n).map (m.bytesFrom a n) =
      (List.range n).map fun i => m.byte (a + BitVec.ofNat 64 i) :=
  List.map_congr_left fun _ hi => m.bytesFrom_eq a (List.mem_range.1 hi)

theorem readPages_eq (m : Memory) (pages : Nat) (a : Word) (n : Nat) (h : n < pages) :
    m.readPages pages a n = (List.range n).map fun i => m.byte (a + BitVec.ofNat 64 i) := by
  induction pages generalizing a n with
  | zero => omega
  | succ pages ih =>
    have ho := a.pageOffset_lt
    rw [readPages]
    generalize hhere : min n (pageSize - a.pageOffset) = here
    by_cases hn : here = n
    · rw [if_pos hn, map_bytesFrom]
    · have hsum : n = here + (n - here) := by omega
      rw [if_neg hn, map_bytesFrom, ih _ _ (by omega)]
      conv => rhs; rw [hsum, List.range_add, List.map_append, List.map_map]
      congr 1
      apply List.map_congr_left
      intro i _
      simp only [Function.comp, BitVec.ofNat_add, BitVec.add_assoc]

/-- A run, byte by byte. -/
theorem readBytes_eq (m : Memory) (a : Word) (n : Nat) :
    m.readBytes a n = (List.range n).map fun i => m.byte (a + BitVec.ofNat 64 i) :=
  m.readPages_eq _ a n (Nat.lt_succ_self n)

end Memory

end FiveStage
