import FiveStage.Isa.Flags

/-!
# The arithmetic and logic unit

* `AluOp.apply` : the result of an operation on two operands;
* `AluOp.flags` : the flags that a result sets;
* `AluOp.run` : one evaluation, with the condition's verdict.
-/

namespace FiveStage

/-- What the arithmetic and logic unit can do. -/
inductive AluOp where
  | add | sub | and | or | xor
  /-- The first operand or the complement of the second. -/
  | orNot
  /-- The first operand or the second one moved up by whole halfwords. -/
  | insert
  | shiftLeft | shiftRight | shiftRightSigned
  /-- The first operand as it is; only the condition is evaluated. -/
  | pass
  deriving DecidableEq, Repr, Inhabited

/-- What one evaluation yields. -/
structure AluResult where
  value : Word
  /-- Whether the condition holds; true when it is not asked for. -/
  holds : Bool
  flags : Flags
  deriving DecidableEq, Repr

namespace AluOp

/-- The result of an operation. Shifts take the six low bits of the second operand as amount; a
halfword moved up by 64 bits or more is lost. -/
def apply (op : AluOp) (a b : Word) (halfwordShift : Nat) : Word :=
  match op with
  | add => a.sum b
  | sub => a.difference b
  | and => a &&& b
  | or => a ||| b
  | xor => a ^^^ b
  | orNot => a ||| ~~~b
  | insert => a ||| (if halfwordShift < 64 then b <<< halfwordShift else 0)
  | shiftLeft => a <<< (b.toNat % 64)
  | shiftRight => a >>> (b.toNat % 64)
  | shiftRightSigned => a.sshiftRight (b.toNat % 64)
  | pass => a

/-- Carry is the carry out of an addition and the absence of a borrow in a subtraction. Overflow is
set when both addends have a sign that the sum lacks, or when the operands of a subtraction differ
in sign and the result has the second one's. All other operations clear both. -/
def flags (op : AluOp) (a b result : Word) : Flags where
  negative := result.msb
  zero := result == 0
  carry :=
    match op with
    | add => result.ult a
    | sub => b.ule a
    | _ => false
  overflow :=
    match op with
    | add => ((a ^^^ result) &&& (b ^^^ result)).msb
    | sub => ((a ^^^ b) &&& (a ^^^ result)).msb
    | _ => false

/-- One evaluation. The flags change only when `setFlags` is on, and the condition is then judged by
the new ones; else it is judged by the old ones, and only by `pass`. -/
def run (op : AluOp) (a b : Word) (halfwordShift : Nat) (setFlags : Bool) (cond : Cond)
    (old : Flags) : AluResult :=
  let value := op.apply a b halfwordShift
  if setFlags then
    let new := op.flags a b value
    ⟨value, cond.holds new, new⟩
  else
    ⟨value, if op = pass then cond.holds old else true, old⟩

end AluOp

end FiveStage
