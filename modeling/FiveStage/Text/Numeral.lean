import FiveStage.Bits.Field

/-!
# Numerals

* `numeral base n` : the digits of a number, the highest first, without leading zeros;
* `decimal`, `hexadecimal`, `Word.hex` : the forms that reports and messages use;
* `numeralValue` : the number that digits stand for; `numeralValue_numeral` : it reads a numeral
  back, so different numbers have different numerals.
-/

namespace FiveStage

/-- The digit of a value below 16. -/
def digitChar (d : Nat) : Char :=
  if d < 10 then Char.ofNat (48 + d) else Char.ofNat (87 + d)

/-- The digits of `n`, the highest first. Zero has one digit. A base below 2 has no numerals and
gives a single digit. -/
def numeral (base n : Nat) : List Char :=
  if n < base ∨ base < 2 then [digitChar n]
  else numeral base (n / base) ++ [digitChar (n % base)]
termination_by n
decreasing_by
  rename_i h
  exact Nat.div_lt_self (by omega) (by omega)

/-- A number in base 10. -/
def decimal (n : Nat) : String := String.ofList (numeral 10 n)

/-- A number in base 16, lower case. -/
def hexadecimal (n : Nat) : String := String.ofList (numeral 16 n)

/-- A word in base 16 behind `0x`. -/
def Word.hex (w : Word) : String := "0x" ++ hexadecimal w.toNat

/-! ## Reading numerals back -/

/-- The value of a digit, for both cases of the letters `a` to `f`. -/
def digitValue? (c : Char) : Option Nat :=
  if '0' ≤ c ∧ c ≤ '9' then some (c.toNat - 48)
  else if 'a' ≤ c ∧ c ≤ 'f' then some (c.toNat - 87)
  else if 'A' ≤ c ∧ c ≤ 'F' then some (c.toNat - 55)
  else none

/-- The number so far with one more digit behind it, if that is a digit of the base. -/
def appendDigit (base acc : Nat) (c : Char) : Option Nat :=
  match digitValue? c with
  | some d => if d < base then some (acc * base + d) else none
  | none => none

/-- The number that digits stand for, if all of them are digits of the base. -/
def numeralValue (base : Nat) (cs : List Char) : Option Nat := cs.foldlM (appendDigit base) 0

theorem digitValue?_digitChar (d : Nat) (h : d < 16) : digitValue? (digitChar d) = some d := by
  have : ∀ d < 16, digitValue? (digitChar d) = some d := by decide
  exact this d h

theorem numeralValue_append (base : Nat) (cs : List Char) (d : Nat) (hd : d < base)
    (hb : base ≤ 16) :
    numeralValue base (cs ++ [digitChar d]) = (numeralValue base cs).map (· * base + d) := by
  rw [numeralValue, numeralValue, List.foldlM_append]
  cases cs.foldlM (appendDigit base) 0 <;>
    simp [appendDigit, digitValue?_digitChar d (by omega), hd]

theorem numeralValue_numeral (base n : Nat) (h2 : 2 ≤ base) (hb : base ≤ 16) :
    numeralValue base (numeral base n) = some n := by
  induction n using Nat.strongRecOn with
  | ind n ih =>
    rw [numeral]
    split
    · rename_i h
      have hn : n < base := by omega
      have := numeralValue_append base [] n hn hb
      simpa [numeralValue] using this
    · rename_i h
      rw [numeralValue_append base _ _ (Nat.mod_lt _ (by omega)) hb,
        ih (n / base) (Nat.div_lt_self (by omega) (by omega)), Option.map_some]
      rw [Nat.mul_comm, Nat.div_add_mod]

end FiveStage
