import FiveStage.Text.Numeral

/-!
# Numbers with a fixed number of places

* `roundHalfEven` : the nearest whole number to a quotient, the even one of two;
* `fixedQuotient` : a quotient with a fixed number of places;
* `fixedFloat` : the same for the exact value of a floating-point number.
-/

namespace FiveStage

/-- The whole number nearest to `num / den`, the even one of two. -/
def roundHalfEven (num den : Nat) : Nat :=
  let q := num / den
  let r := num % den
  if den < 2 * r ∨ (2 * r = den ∧ q % 2 = 1) then q + 1 else q

/-- The quotient `num / den` with `places` digits behind the point. -/
def fixedQuotient (places num den : Nat) : String :=
  let scaled := roundHalfEven (num * 10 ^ places) den
  let whole := decimal (scaled / 10 ^ places)
  let behind := numeral 10 (scaled % 10 ^ places)
  whole ++ "." ++ String.ofList (List.replicate (places - behind.length) '0' ++ behind)

/-- The exact value of a finite number that is not negative, as numerator and denominator. -/
def floatQuotient (x : Float) : Nat × Nat :=
  let bits := x.toBits.toNat
  let exponent := bits / 2 ^ 52 % 2 ^ 11
  let fraction := bits % 2 ^ 52
  let mantissa := if exponent = 0 then fraction else 2 ^ 52 + fraction
  let shift := max exponent 1
  if 1075 ≤ shift then (mantissa * 2 ^ (shift - 1075), 1) else (mantissa, 2 ^ (1075 - shift))

/-- A finite number that is not negative, with `places` digits behind the point. -/
def fixedFloat (places : Nat) (x : Float) : String :=
  let (num, den) := floatQuotient x
  fixedQuotient places num den

end FiveStage
