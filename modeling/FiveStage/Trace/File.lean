import FiveStage.Files.Basic
import FiveStage.Trace.Operation

/-!
# Trace files

* `TraceError` : why a trace file cannot be replayed, `TraceError.message`;
* `readTraceFile` : the operations of a file, from what reading it gave.
-/

namespace FiveStage

/-- Why a trace file cannot be replayed. -/
inductive TraceError where
  | unreadable (cause : FileError)
  | malformed (path : String) (line : Nat) (fault : TraceFault)
  deriving DecidableEq, Repr

/-- The text of a refusal. -/
def TraceError.message : TraceError → String
  | unreadable e => "IO error: " ++ e.message
  | malformed path line fault =>
    "Malformed trace '" ++ path ++ "': " ++ fault.message ++ " at line " ++ decimal line

/-- The operations of a file. -/
def readTraceFile (path : String) (contents : Except FileError (Array Byte)) :
    Except TraceError (List Operation) :=
  match contents with
  | .error e => .error (.unreadable e)
  | .ok bytes =>
    match bytesText? bytes with
    | none => .error (.unreadable .notText)
    | some text => (readTrace text.toList).mapError fun (line, fault) => .malformed path line fault

end FiveStage
