import FiveStage.Text.Blank
import FiveStage.Text.Unsigned

/-!
# Numerals that are read

* `numeralValue` is the number that digits stand for, however large; `readDigits_ok_iff` : it is
  read exactly if a word can hold it, although every digit is judged when it is reached;
* `readUnsigned_ok_iff` : the texts that are read as a number, with or without a sign;
* `digit_of_numeralValue`, `isBlank_of_digitValue` : what stands in a numeral.
-/

namespace FiveStage

variable {base acc n d : Nat} {c : Char} {cs : List Char}

/-! ## Digits -/

theorem appendDigit_eq (base acc : Nat) (c : Char) :
    appendDigit base acc c = (appendDigit base 0 c).map (acc * base + ·) := by
  unfold appendDigit
  cases digitValue? c with
  | none => rfl
  | some d =>
    dsimp only
    split
    · rw [Option.map_some, Nat.zero_mul, Nat.zero_add]
    · rfl

theorem le_of_appendDigit (hb : 0 < base) (h : appendDigit base acc c = some n) : acc ≤ n := by
  rw [appendDigit_eq, Option.map_eq_some_iff] at h
  obtain ⟨d, -, rfl⟩ := h
  exact Nat.le_trans (Nat.le_mul_of_pos_right acc hb) (Nat.le_add_right _ _)

/-- Digits only make a number larger. -/
theorem le_of_foldlM_appendDigit (hb : 0 < base)
    (h : cs.foldlM (appendDigit base) acc = some n) : acc ≤ n := by
  induction cs generalizing acc with
  | nil => exact Nat.le_of_eq (Option.some.inj h)
  | cons c cs ih =>
    rw [List.foldlM_cons, Option.bind_eq_bind, Option.bind_eq_some_iff] at h
    obtain ⟨next, hnext, h⟩ := h
    exact Nat.le_trans (le_of_appendDigit hb hnext) (ih h)

theorem addDigit_ok (h : appendDigit base acc c = some n) (hn : n < 2 ^ 64) :
    addDigit base acc c = .ok n := by
  rw [appendDigit_eq, Option.map_eq_some_iff] at h
  obtain ⟨d, hd, rfl⟩ := h
  simp only [addDigit, hd, if_pos hn]

theorem addDigit_of_le (h : appendDigit base acc c = some n) (hn : 2 ^ 64 ≤ n) :
    addDigit base acc c = .error .tooLarge := by
  rw [appendDigit_eq, Option.map_eq_some_iff] at h
  obtain ⟨d, hd, rfl⟩ := h
  simp only [addDigit, hd, if_neg (Nat.not_lt.2 hn)]

theorem addDigit_of_none (h : appendDigit base acc c = none) :
    addDigit base acc c = .error .badDigit := by
  rw [appendDigit_eq, Option.map_eq_none_iff] at h
  simp only [addDigit, h]

/-- A number that has become too large stays so, so that judging every digit comes to the same as
judging the whole number. -/
theorem foldlM_addDigit_ok_iff (hb : 0 < base) (hacc : acc < 2 ^ 64) :
    cs.foldlM (addDigit base) acc = .ok n ↔
      cs.foldlM (appendDigit base) acc = some n ∧ n < 2 ^ 64 := by
  induction cs generalizing acc with
  | nil =>
    constructor
    · intro h
      obtain rfl := Except.ok.inj h
      exact ⟨rfl, hacc⟩
    · rintro ⟨h, -⟩
      obtain rfl := Option.some.inj h
      rfl
  | cons c cs ih =>
    rw [List.foldlM_cons, List.foldlM_cons]
    cases h : appendDigit base acc c with
    | none =>
      rw [addDigit_of_none h]
      exact ⟨fun hok => (nomatch hok), fun hsome => (nomatch hsome.1)⟩
    | some next =>
      by_cases hnext : next < 2 ^ 64
      · rw [addDigit_ok h hnext]
        exact ih hnext
      · rw [addDigit_of_le h (Nat.le_of_not_lt hnext)]
        refine ⟨fun hok => (nomatch hok), fun ⟨hsome, hn⟩ => ?_⟩
        exact absurd (Nat.lt_of_le_of_lt (le_of_foldlM_appendDigit hb hsome) hn) hnext

/-! ## Numbers -/

theorem readDigits_ok_iff (hb : 0 < base) {a : Word} :
    readDigits base cs = .ok a ↔ numeralValue base cs = some a.toNat := by
  rw [readDigits, numeralValue]
  constructor
  · intro h
    cases hfold : cs.foldlM (addDigit base) 0 with
    | error e =>
      rw [hfold] at h
      cases h
    | ok n =>
      obtain ⟨hvalue, hn⟩ := (foldlM_addDigit_ok_iff hb (by decide)).1 hfold
      rw [hfold] at h
      obtain rfl := Except.ok.inj h
      rw [hvalue, BitVec.toNat_ofNat, Nat.mod_eq_of_lt hn]
  · intro h
    rw [(foldlM_addDigit_ok_iff hb (by decide)).2 ⟨h, a.isLt⟩]
    refine congrArg Except.ok (BitVec.eq_of_toNat_eq ?_)
    rw [BitVec.toNat_ofNat, Nat.mod_eq_of_lt a.isLt]

theorem readUnsigned_of_plus (h : cs ≠ []) :
    readUnsigned base ('+' :: cs) = readDigits base cs := by
  cases cs with
  | nil => exact absurd rfl h
  | cons c cs => rfl

theorem readUnsigned_of_ne_plus (h : c ≠ '+') (cs : List Char) :
    readUnsigned base (c :: cs) = readDigits base (c :: cs) := by
  unfold readUnsigned
  split <;> simp_all

theorem numeralValue_plus (base : Nat) (cs : List Char) : numeralValue base ('+' :: cs) = none := by
  have hsign : appendDigit base 0 '+' = none := rfl
  rw [numeralValue, List.foldlM_cons, hsign]
  rfl

/-- A text is read as a number if it is digits of one that a word can hold. A plus sign may stand
before them. -/
theorem readUnsigned_ok_iff (hb : 0 < base) {a : Word} :
    readUnsigned base cs = .ok a ↔ ∃ sign digits, (sign = [] ∨ sign = ['+']) ∧
      cs = sign ++ digits ∧ digits ≠ [] ∧ numeralValue base digits = some a.toNat := by
  constructor
  · intro h
    match cs with
    | [] => cases h
    | c :: cs =>
      by_cases hc : c = '+'
      · subst hc
        have hne : cs ≠ [] := by
          rintro rfl
          cases h
        rw [readUnsigned_of_plus hne, readDigits_ok_iff hb] at h
        exact ⟨['+'], cs, .inr rfl, rfl, hne, h⟩
      · rw [readUnsigned_of_ne_plus hc, readDigits_ok_iff hb] at h
        exact ⟨[], c :: cs, .inl rfl, rfl, List.cons_ne_nil _ _, h⟩
  · rintro ⟨sign, digits, rfl | rfl, rfl, hne, h⟩
    · obtain ⟨c, rest, rfl⟩ := List.exists_cons_of_ne_nil hne
      have hc : c ≠ '+' := by
        rintro rfl
        rw [numeralValue_plus] at h
        cases h
      rw [readUnsigned_of_ne_plus hc, readDigits_ok_iff hb, h]
    · rw [List.singleton_append, readUnsigned_of_plus hne, readDigits_ok_iff hb, h]

/-! ## What stands in a numeral -/

theorem isBlank_of_digitValue (h : digitValue? c = some d) : isBlank c = false := by
  have hle : ∀ a b : Char, a ≤ b ↔ a.toNat ≤ b.toNat := fun _ _ => Iff.rfl
  have hranges : (48 ≤ c.toNat ∧ c.toNat ≤ 57) ∨ (97 ≤ c.toNat ∧ c.toNat ≤ 102) ∨
      (65 ≤ c.toNat ∧ c.toNat ≤ 70) := by
    simp only [digitValue?, hle] at h
    split at h
    · exact .inl (by assumption)
    · split at h
      · exact .inr (.inl (by assumption))
      · split at h
        · exact .inr (.inr (by assumption))
        · cases h
  simp only [isBlank, blankRanges, List.any_cons, List.any_nil, Bool.or_false,
    Bool.or_eq_false_iff, Bool.and_eq_false_imp, decide_eq_true_eq, decide_eq_false_iff_not]
  omega

theorem digit_of_foldlM_appendDigit (h : cs.foldlM (appendDigit base) acc = some n) :
    ∀ c ∈ cs, ∃ d, digitValue? c = some d := by
  induction cs generalizing acc with
  | nil => exact fun c hc => absurd hc List.not_mem_nil
  | cons c cs ih =>
    rw [List.foldlM_cons, Option.bind_eq_bind, Option.bind_eq_some_iff] at h
    obtain ⟨next, hnext, h⟩ := h
    refine List.forall_mem_cons.2 ⟨?_, ih h⟩
    unfold appendDigit at hnext
    split at hnext
    · exact ⟨_, by assumption⟩
    · cases hnext

theorem digit_of_numeralValue (h : numeralValue base cs = some n) :
    ∀ c ∈ cs, ∃ d, digitValue? c = some d :=
  digit_of_foldlM_appendDigit h

theorem numeral_ne_nil (base n : Nat) : numeral base n ≠ [] := by
  rw [numeral]
  split <;> simp

end FiveStage
