import FiveStage.Bits.Field

/-!
# Condition flags and conditions

* `Flags` : negative, zero, carry, overflow, and their packing into four bits;
* `Cond` : the sixteen conditions in encoding order, `Cond.holds` : when each one holds.
-/

namespace FiveStage

/-- The four condition flags. -/
structure Flags where
  negative : Bool
  zero : Bool
  carry : Bool
  overflow : Bool
  deriving DecidableEq, Repr, Inhabited

namespace Flags

/-- No flag set. -/
def clear : Flags := ⟨false, false, false, false⟩

/-- The flags a fresh core starts with: only `zero`. -/
def initial : Flags := ⟨false, true, false, false⟩

/-- Packed with `negative` on top: 8, 4, 2, 1. -/
def toBits (f : Flags) : Nat :=
  f.negative.toNat * 8 + f.zero.toNat * 4 + f.carry.toNat * 2 + f.overflow.toNat

/-- The flags in the four low bits of a number. -/
def ofBits (b : Nat) : Flags := ⟨b.testBit 3, b.testBit 2, b.testBit 1, b.testBit 0⟩

theorem ofBits_toBits (f : Flags) : ofBits f.toBits = f := by
  obtain ⟨n, z, c, v⟩ := f
  revert n z c v
  decide

private def digit (b : Bool) : String := if b then "1" else "0"

/-- The form a checkpoint shows. -/
def text (f : Flags) : String :=
  "[N,Z,C,V] = [" ++ digit f.negative ++ ", " ++ digit f.zero ++ ", " ++ digit f.carry ++ ", " ++
    digit f.overflow ++ "]"

end Flags

/-- The conditions of a conditional branch, in encoding order. -/
inductive Cond where
  | eq | ne | cs | cc | mi | pl | vs | vc | hi | ls | ge | lt | gt | le | al | nv
  deriving DecidableEq, Repr, Inhabited

namespace Cond

/-- The condition that the four low bits of a number encode. -/
def ofBits (b : Nat) : Cond :=
  match b % 16 with
  | 0 => eq
  | 1 => ne
  | 2 => cs
  | 3 => cc
  | 4 => mi
  | 5 => pl
  | 6 => vs
  | 7 => vc
  | 8 => hi
  | 9 => ls
  | 10 => ge
  | 11 => lt
  | 12 => gt
  | 13 => le
  | 14 => al
  | _ => nv

/-- Whether a condition holds of the flags. -/
def holds (f : Flags) : Cond → Bool
  | eq => f.zero
  | ne => !f.zero
  | cs => f.carry
  | cc => !f.carry
  | mi => f.negative
  | pl => !f.negative
  | vs => f.overflow
  | vc => !f.overflow
  | hi => f.carry && !f.zero
  | ls => !(f.carry && !f.zero)
  | ge => f.negative == f.overflow
  | lt => f.negative != f.overflow
  | gt => !f.zero && f.negative == f.overflow
  | le => !(!f.zero && f.negative == f.overflow)
  | al => true
  | nv => true

end Cond

end FiveStage
