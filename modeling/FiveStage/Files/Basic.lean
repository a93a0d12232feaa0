import FiveStage.Bits.Field

/-!
# Files

* `FileError` : why a file cannot be used; `FileError.message`, `FileError.describe` : in a
  sentence, and with its number and kind;
* `Files` : what a program does with files, in any monad;
* `textBytes`, `bytesText?` : text as bytes and back.
-/

namespace FiveStage

/-- Why a file cannot be used. -/
inductive FileError where
  | notFound | denied | alreadyExists | notDirectory | isDirectory | noSpace | nameTooLong
  /-- The bytes of the file are no text. -/
  | notText
  /-- The name holds the character that ends names. -/
  | nulInName
  /-- Anything else, with its number. -/
  | other (code : Nat) (text : String)
  deriving DecidableEq, Repr

namespace FileError

/-- The number of an error, its kind, and what it says. What the system is never asked has no
number. -/
def parts : FileError → Option Nat × String × String
  | notFound => (some 2, "NotFound", "No such file or directory")
  | denied => (some 13, "PermissionDenied", "Permission denied")
  | alreadyExists => (some 17, "AlreadyExists", "File exists")
  | notDirectory => (some 20, "NotADirectory", "Not a directory")
  | isDirectory => (some 21, "IsADirectory", "Is a directory")
  | noSpace => (some 28, "StorageFull", "No space left on device")
  | nameTooLong => (some 36, "InvalidFilename", "File name too long")
  | notText => (none, "InvalidData", "stream did not contain valid UTF-8")
  | nulInName => (none, "InvalidInput", "file name contained an unexpected NUL byte")
  | other code text => (some code, "Uncategorized", text)

/-- The error in a sentence. -/
def message (e : FileError) : String :=
  match e.parts with
  | (some code, _, text) => text ++ " (os error " ++ toString code ++ ")"
  | (none, _, text) => text

/-- The error with its number and kind. -/
def describe (e : FileError) : String :=
  match e.parts with
  | (some code, kind, text) =>
    "Os \x7b code: " ++ toString code ++ ", kind: " ++ kind ++ ", message: \"" ++ text ++ "\" \x7d"
  | (none, kind, text) => "Error \x7b kind: " ++ kind ++ ", message: \"" ++ text ++ "\" \x7d"

end FileError

/-- What a program does with files. -/
class Files (m : Type → Type) where
  /-- The bytes of a file. -/
  readBytes : String → m (Except FileError (Array Byte))
  /-- Makes a file, or replaces what is in it. -/
  writeBytes : String → Array Byte → m (Except FileError Unit)
  /-- Makes a directory, unless there is one. -/
  makeDirectory : String → m (Except FileError Unit)

/-- The characters of a text as bytes. -/
def textBytes (s : String) : Array Byte := s.toUTF8.data.map UInt8.toBitVec

/-- The text that bytes stand for, if they do. -/
def bytesText? (bytes : Array Byte) : Option String :=
  String.fromUTF8? ⟨bytes.map UInt8.ofBitVec⟩

end FiveStage
