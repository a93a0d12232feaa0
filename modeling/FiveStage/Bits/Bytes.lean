import FiveStage.Bits.Field

/-!
# Words as bytes

* `Word.byte w i` : byte `i` of a word, the low one first;
* `Word.ofBytes`, `InstrWord.ofBytes` : the word with given bytes, little-endian;
* `Word.byte_ofBytes` : it has these bytes.
-/

namespace FiveStage

namespace Word

/-- Byte `i` of a word; byte 0 is the low one. -/
def byte (w : Word) (i : Nat) : Byte := Byte.ofNat (w.toNat >>> (8 * i))

theorem byte_eq_extractLsb' (w : Word) (i : Nat) : w.byte i = w.extractLsb' (8 * i) 8 := rfl

/-- The word whose byte `i` is `f i`. -/
def ofBytes (f : Nat → Byte) : Word :=
  ofNat ((f 0).toNat + 256 * ((f 1).toNat + 256 * ((f 2).toNat + 256 * ((f 3).toNat +
    256 * ((f 4).toNat + 256 * ((f 5).toNat + 256 * ((f 6).toNat + 256 * (f 7).toNat)))))))

theorem ofBytes_eq_append (f : Nat → Byte) :
    ofBytes f = f 7 ++ f 6 ++ f 5 ++ f 4 ++ f 3 ++ f 2 ++ f 1 ++ f 0 := by
  apply BitVec.eq_of_toNat_eq
  have h := fun i => (f i).isLt
  have join : ∀ i a, a <<< 8 ||| (f i).toNat = a * 2 ^ 8 + (f i).toNat := fun i a => by
    rw [← Nat.shiftLeft_add_eq_or_of_lt (h i), Nat.shiftLeft_eq]
  simp only [BitVec.toNat_append, join]
  rw [ofBytes, ofNat_eq, BitVec.toNat_ofNat]
  have h0 := h 0; have h1 := h 1; have h2 := h 2; have h3 := h 3
  have h4 := h 4; have h5 := h 5; have h6 := h 6; have h7 := h 7
  omega

theorem getLsbD_ofBytes (f : Nat → Byte) (k : Nat) (hk : k < 64) :
    (ofBytes f).getLsbD k = (f (k / 8)).getLsbD (k % 8) := by
  have key : ∀ i j, k / 8 = i → k % 8 = j →
      (f i).getLsbD j = (f (k / 8)).getLsbD (k % 8) := by
    rintro _ _ rfl rfl
    rfl
  simp only [ofBytes_eq_append, BitVec.getLsbD_append]
  repeat' split
  all_goals refine key _ _ ?_ ?_ <;> omega

theorem byte_ofBytes (f : Nat → Byte) (i : Nat) (hi : i < 8) : (ofBytes f).byte i = f i := by
  apply BitVec.eq_of_getLsbD_eq
  intro j hj
  rw [byte_eq_extractLsb', BitVec.getLsbD_extractLsb', getLsbD_ofBytes f _ (by omega),
    show (8 * i + j) / 8 = i by omega, show (8 * i + j) % 8 = j by omega]
  simp [hj]

end Word

namespace InstrWord

/-- The instruction word whose byte `i` is `f i`. -/
def ofBytes (f : Nat → Byte) : InstrWord :=
  BitVec.ofNatLT ((f 0).toNat + 256 * ((f 1).toNat + 256 * ((f 2).toNat + 256 * (f 3).toNat)))
    (by
      have h0 := (f 0).isLt
      have h1 := (f 1).isLt
      have h2 := (f 2).isLt
      have h3 := (f 3).isLt
      omega)

end InstrWord

end FiveStage
