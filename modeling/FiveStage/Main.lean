import FiveStage.Program.Evaluation

/-!
# The executables

One program under two names: called by a name that ends in `sim-eval` it compares caches, else it
runs a program. Here are only the files of the system and the two streams; what is read and said is
decided by `simulate` and `evaluate`.
-/

namespace FiveStage

/-- The number of an error. Some calls of the system give it negated, in two's complement. -/
def errorNumber (code : UInt32) : Nat :=
  if code.toNat < 2 ^ 31 then code.toNat else 2 ^ 32 - code.toNat

/-- The number and the text that the system gives an error. -/
def systemError : IO.Error → Nat × String
  | .alreadyExists _ code text | .interrupted _ code text | .noFileOrDirectory _ code text
  | .invalidArgument _ code text | .permissionDenied _ code text | .resourceExhausted _ code text
  | .inappropriateType _ code text | .noSuchThing _ code text | .otherError code text
  | .resourceBusy code text | .resourceVanished code text | .unsupportedOperation code text
  | .hardwareFault code text | .unsatisfiedConstraints code text | .illegalOperation code text
  | .protocolError code text | .timeExpired code text => (errorNumber code, text)
  | .unexpectedEof => (0, "end of file")
  | .userError text => (0, text)

/-- What an error of the system means. -/
def FileError.ofSystem (e : IO.Error) : FileError :=
  match systemError e with
  | (2, _) => .notFound
  | (13, _) => .denied
  | (17, _) => .alreadyExists
  | (20, _) => .notDirectory
  | (21, _) => .isDirectory
  | (28, _) => .noSpace
  | (36, _) => .nameTooLong
  | (code, text) => .other code text

/-- What an action on the files of the system gives, with the cause if it fails. -/
def onSystem {α : Type} (act : IO α) : IO (Except FileError α) := do
  return (← act.toBaseIO).mapError FileError.ofSystem

/-- Makes a file, or replaces what is in it. It is only after the last byte has left the buffer that
the system is known to have room for them. -/
def writeWhole (path : String) (bytes : ByteArray) : IO Unit :=
  IO.FS.withFile path .write fun h => do
    h.write bytes
    h.flush

instance : Files IO where
  readBytes path := do
    return (← onSystem (IO.FS.readBinFile path)).map fun bytes => bytes.data.map UInt8.toBitVec
  writeBytes path bytes := onSystem (writeWhole path ⟨bytes.map UInt8.ofBitVec⟩)
  makeDirectory path := onSystem (IO.FS.createDirAll path)

end FiveStage

open FiveStage in
/-- Runs the command that the program's own name asks for. -/
def main (words : List String) : IO UInt32 := do
  let comparing := (← IO.appPath).toString.endsWith "sim-eval"
  let outcome : Outcome ← if comparing then evaluate words else simulate words
  for line in outcome.errors do
    IO.eprintln line
  for line in outcome.output do
    IO.println line
  return UInt32.ofNat outcome.code
