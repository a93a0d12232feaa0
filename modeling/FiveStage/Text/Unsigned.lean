import FiveStage.Text.Numeral

/-!
# Reading unsigned numbers

* `NumberError` : why a text is no number of 64 bits;
* `readUnsigned` : digits of a base, read from the left behind an optional plus sign.
-/

namespace FiveStage

/-- Why a text is no number. -/
inductive NumberError where
  | empty | badDigit | tooLarge
  deriving DecidableEq, Repr

/-- The text of a refusal. -/
def NumberError.message : NumberError → String
  | empty => "cannot parse integer from empty string"
  | badDigit => "invalid digit found in string"
  | tooLarge => "number too large to fit in target type"

/-- The number so far with one more digit behind it. -/
def addDigit (base acc : Nat) (c : Char) : Except NumberError Nat :=
  match appendDigit base 0 c with
  | none => .error .badDigit
  | some d => if acc * base + d < 2 ^ 64 then .ok (acc * base + d) else .error .tooLarge

/-- The number that digits stand for. The first digit that is none, or at which the number no longer
fits, decides. -/
def readDigits (base : Nat) (cs : List Char) : Except NumberError Word :=
  (cs.foldlM (addDigit base) 0).map (BitVec.ofNat 64)

/-- The number that a text stands for. A plus sign may stand before the digits, but not alone. -/
def readUnsigned (base : Nat) (cs : List Char) : Except NumberError Word :=
  match cs with
  | [] => .error .empty
  | ['+'] => .error .badDigit
  | '+' :: digits => readDigits base digits
  | digits => readDigits base digits

end FiveStage
