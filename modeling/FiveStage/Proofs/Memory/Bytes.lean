import FiveStage.Proofs.Memory.ByteMap

/-!
# Memory as bytes

* `Word.Within a n x` : `x` is one of the `n` addresses from `a` on;
* `Memory.byte_setWord` : what a doubleword store leaves at every address;
* `Memory.word_congr`, `Memory.instrWord_congr` : a load depends on its own bytes alone.
-/

namespace FiveStage

/-- `x` is one of the `n` addresses from `a` on, which wrap at the end of the address space. -/
def Word.Within (a : Word) (n : Nat) (x : Word) : Prop := (x - a).toNat < n

instance (a : Word) (n : Nat) (x : Word) : Decidable (Word.Within a n x) :=
  inferInstanceAs (Decidable (_ < _))

theorem Word.within_add (a : Word) {n i : Nat} (hi : i < n) (hn : n ≤ 2 ^ 64) :
    Word.Within a n (a + BitVec.ofNat 64 i) := by
  rw [Word.Within, BitVec.add_comm, BitVec.add_sub_cancel, BitVec.toNat_ofNat,
    Nat.mod_eq_of_lt (by omega)]
  exact hi

/-- An address is found at its distance from another one. -/
theorem Word.add_sub_toNat (a x : Word) : a + BitVec.ofNat 64 (x - a).toNat = x := by
  rw [BitVec.ofNat_toNat, BitVec.setWidth_eq, BitVec.add_comm, BitVec.sub_add_cancel]

/-- A run that does not wrap holds the addresses between its ends. -/
theorem Word.within_iff {a : Word} {n : Nat} (h : a.toNat + n ≤ 2 ^ 64) (x : Word) :
    Word.Within a n x ↔ a.toNat ≤ x.toNat ∧ x.toNat < a.toNat + n := by
  have ha := a.isLt
  have hx := x.isLt
  rw [Word.Within, BitVec.toNat_sub]
  omega

theorem Word.toNat_sub_of_within {a : Word} {n : Nat} (h : a.toNat + n ≤ 2 ^ 64) {x : Word}
    (hx : Word.Within a n x) : (x - a).toNat = x.toNat - a.toNat := by
  have ha := a.isLt
  have hlt := x.isLt
  obtain ⟨h1, h2⟩ := (Word.within_iff h x).1 hx
  rw [BitVec.toNat_sub]
  omega

theorem Word.ofBytes_congr {f f' : Nat → Byte} (h : ∀ i, i < 8 → f i = f' i) :
    Word.ofBytes f = Word.ofBytes f' := by
  simp only [Word.ofBytes, h 0 (by decide), h 1 (by decide), h 2 (by decide), h 3 (by decide),
    h 4 (by decide), h 5 (by decide), h 6 (by decide), h 7 (by decide)]

namespace Memory

theorem byte_setWord (m : Memory) (a v x : Word) :
    (m.setWord a v).byte x =
      if Word.Within a 8 x then v.byte (x - a).toNat else m.byte x := by
  rw [setWord, byte_writeBytes _ _ _ (by simp)]
  by_cases h : (x - a).toNat < 8
  · rw [if_pos (show Word.Within a 8 x from h), List.getElem?_map, List.getElem?_range h]
    rfl
  · rw [if_neg (show ¬ Word.Within a 8 x from h), List.getElem?_eq_none (by simpa using h),
      Option.getD_none]

theorem word_congr {m m' : Memory} {a : Word}
    (h : ∀ x, Word.Within a 8 x → m.byte x = m'.byte x) : m.word a = m'.word a := by
  rw [word_eq, word_eq]
  exact Word.ofBytes_congr fun i hi => h _ (Word.within_add a hi (by decide))

theorem instrWord_congr {m m' : Memory} {a : Word}
    (h : ∀ x, Word.Within a 4 x → m.byte x = m'.byte x) : m.instrWord a = m'.instrWord a := by
  have key : ∀ i, i < 4 → m.byte (a + BitVec.ofNat 64 i) = m'.byte (a + BitVec.ofNat 64 i) :=
    fun i hi => h _ (Word.within_add a hi (by decide))
  simp only [instrWord_eq, InstrWord.ofBytes, key 0 (by decide), key 1 (by decide),
    key 2 (by decide), key 3 (by decide)]

/-- A doubleword that is stored changes the two instructions that lie in it. -/
theorem instrWord_setWord_of_ne {m : Memory} {a v p : Word} (ha : a.toNat % 8 = 0)
    (hp : p.toNat % 4 = 0) (h0 : p ≠ a) (h4 : p ≠ a + 4) :
    (m.setWord a v).instrWord p = m.instrWord p := by
  have halt := a.isLt
  have hplt := p.isLt
  have hnext : (a + 4).toNat = a.toNat + 4 := by
    rw [BitVec.toNat_add]
    exact Nat.mod_eq_of_lt (by change a.toNat + 4 < 2 ^ 64; omega)
  have hne0 : p.toNat ≠ a.toNat := fun h => h0 (BitVec.eq_of_toNat_eq h)
  have hne4 : p.toNat ≠ a.toNat + 4 := fun h => h4 (BitVec.eq_of_toNat_eq (h.trans hnext.symm))
  refine instrWord_congr fun x hx => ?_
  rw [Word.within_iff (by omega)] at hx
  rw [byte_setWord, if_neg]
  rw [Word.within_iff (by omega)]
  omega

theorem instrWord_empty (p : Word) : Memory.empty.instrWord p = 0 := by
  have hbyte : ∀ x, Memory.empty.byte x = 0 := fun x => by simp [empty, byte]
  rw [instrWord_eq]
  simp only [hbyte]
  rfl

/-- An image of two doublewords holds four instructions. -/
theorem instrWord_pair {a b v w p : Word} (ha : a.toNat % 8 = 0) (hb : b.toNat % 8 = 0)
    (hp : p.toNat % 4 = 0) : p = a ∨ p = a + 4 ∨ p = b ∨ p = b + 4 ∨
      ((Memory.empty.setWord a v).setWord b w).instrWord p = 0 := by
  by_cases h0 : p = a
  · exact .inl h0
  by_cases h4 : p = a + 4
  · exact .inr (.inl h4)
  by_cases h8 : p = b
  · exact .inr (.inr (.inl h8))
  by_cases h12 : p = b + 4
  · exact .inr (.inr (.inr (.inl h12)))
  refine .inr (.inr (.inr (.inr ?_)))
  rw [instrWord_setWord_of_ne hb hp h8 h12, instrWord_setWord_of_ne ha hp h0 h4, instrWord_empty]

end Memory

end FiveStage
