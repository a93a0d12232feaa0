import FiveStage.Memory.Segment
import FiveStage.Text.Blank
import FiveStage.Text.Unsigned

/-!
# Memory traces as text

One operation a line: `r` or `w`, blanks, and an address in base 16 behind `0x`. Lines without a
word say nothing.

* `Operation`, `Operation.text` : one access, and the line that stands for it;
* `TraceFault` : what is wrong with a line; `operationOfWords` : the operation on a line;
* `readTrace` : the operations of a text, or the first line at fault and what is wrong with it;
* `traceText` : a text that stands for some operations.
-/

namespace FiveStage

/-- One access of a trace. -/
structure Operation where
  kind : AccessKind
  address : Word
  deriving DecidableEq, Repr

/-- What is wrong with a line. -/
inductive TraceFault where
  | notTwoWords
  | unknownKind (word : String)
  | noHexMark
  | badAddress
  deriving DecidableEq, Repr

/-- The text of a fault. -/
def TraceFault.message : TraceFault → String
  | notTwoWords => "Invalid format: expected 'op address'"
  | unknownKind w => "Invalid operation '" ++ w ++ "': expected 'r' or 'w'"
  | noHexMark => "Invalid address format: expected hexadecimal starting with '0x'"
  | badAddress => "Invalid hexadecimal address"

/-- The letter of a kind of access. -/
def AccessKind.letter : AccessKind → Char
  | read => 'r'
  | write => 'w'

/-- The kind of access that a word stands for. -/
def AccessKind.ofWord? : List Char → Option AccessKind
  | ['r'] => some read
  | ['w'] => some write
  | _ => none

/-- The address that a word stands for. -/
def addressOfWord : List Char → Except TraceFault Word
  | '0' :: 'x' :: digits => (readUnsigned 16 digits).mapError fun _ => .badAddress
  | _ => .error .noHexMark

/-- The operation that the words of a line stand for. -/
def operationOfWords : List (List Char) → Except TraceFault Operation
  | [op, address] =>
    match AccessKind.ofWord? op with
    | none => .error (.unknownKind (String.ofList op))
    | some kind => (addressOfWord address).map (Operation.mk kind)
  | _ => .error .notTwoWords

/-- The operations on some lines, the first of which has a given number. -/
def operationsOfLines : Nat → List (List Char) → Except (Nat × TraceFault) (List Operation)
  | _, [] => .ok []
  | n, line :: rest =>
    match words line with
    | [] => operationsOfLines (n + 1) rest
    | ws =>
      match operationOfWords ws with
      | .error fault => .error (n, fault)
      | .ok o => (operationsOfLines (n + 1) rest).map (o :: ·)

/-- The operations of a text, or the number of the first line at fault, counted from one. -/
def readTrace (text : List Char) : Except (Nat × TraceFault) (List Operation) :=
  operationsOfLines 1 (textLines text)

/-- The line of an operation, without its end. -/
def Operation.text (o : Operation) : String := o.kind.letter.toString ++ " " ++ o.address.hex

/-- A text with a line for each operation. -/
def traceText (ops : List Operation) : String := String.join (ops.map fun o => o.text ++ "\n")

end FiveStage
