import FiveStage.Text.Numeral

/-!
# Address-space layout

* `Permissions`, `Segment`, `SegmentMap` : four segments with their protections, and the range of
  special addresses that no protection covers;
* `SegmentMap.find` : the first segment that holds an address;
* `SegmentMap.checkFetch`, `SegmentMap.checkData` : whether an access is allowed, and if not, why.
-/

namespace FiveStage

/-- Loading or storing. -/
inductive AccessKind where
  | read | write
  deriving DecidableEq, Repr, Inhabited

/-- What may be done with the bytes of a segment. -/
structure Permissions where
  read : Bool
  write : Bool
  execute : Bool
  deriving DecidableEq, Repr, Inhabited

namespace Permissions

/-- Whether a data access is allowed. -/
def allows (p : Permissions) : AccessKind → Bool
  | .read => p.read
  | .write => p.write

/-- Three letters, with a dash for what is not allowed. -/
def text (p : Permissions) : String :=
  (if p.read then "r" else "-") ++ (if p.write then "w" else "-") ++
    (if p.execute then "x" else "-")

end Permissions

/-- The roles a segment can have. -/
inductive SegmentKind where
  | text | data | heap | stack
  deriving DecidableEq, Repr, Inhabited

/-- A range of addresses, without its end, and what it allows. -/
structure Segment where
  start : Word
  stop : Word
  permissions : Permissions
  deriving DecidableEq, Repr, Inhabited

/-- Whether an address lies in a segment. -/
def Segment.contains (s : Segment) (a : Word) : Bool := s.start.ule a && a.ult s.stop

/-- The segments a program runs with, one for each role. -/
structure SegmentMap where
  text : Segment
  data : Segment
  heap : Segment
  stack : Segment
  deriving DecidableEq, Repr

/-- Why an access is refused. -/
inductive AccessError where
  | misaligned (address : Word) (alignment : Nat)
  | notExecutable (address : Word)
  | notReadable (address : Word)
  | notWritable (address : Word)
  deriving DecidableEq, Repr

/-- The text of a refusal. -/
def AccessError.message : AccessError → String
  | misaligned a n =>
    "Invalid memory alignment: address " ++ a.hex ++ " is not aligned to " ++ decimal n ++ " bytes"
  | notExecutable a =>
    "Memory access error at address " ++ a.hex ++ ": Address is not in an executable segment"
  | notReadable a =>
    "Memory access error at address " ++ a.hex ++ ": Address is not in a readable segment"
  | notWritable a =>
    "Memory access error at address " ++ a.hex ++ ": Address is not in a writable segment"

/-! ## The layout -/

/-- Where the text segment starts by default. -/
def textStart : Word := 0x400000

/-- Where the data segment starts by default. -/
def dataStart : Word := 0x800000

/-- Where the heap starts. -/
def heapStart : Word := 0x10000000

/-- Where the stack segment starts. -/
def stackStart : Word := 0x400000000

/-- One past the last address of the stack. -/
def stackTop : Word := 0x800000000

/-- Where the special addresses start. -/
def specialStart : Word := 0x1000000000000

/-- How many special addresses there are. -/
def specialSize : Word := 0x1000

/-- Special addresses skip every check. -/
def isSpecial (a : Word) : Bool := specialStart.ule a && a.ult (specialStart + specialSize)

namespace SegmentMap

/-- The layout of a program that says nothing about it. -/
def default : SegmentMap where
  text := ⟨textStart, dataStart, ⟨true, false, true⟩⟩
  data := ⟨dataStart, heapStart, ⟨true, true, false⟩⟩
  heap := ⟨heapStart, stackStart, ⟨true, true, false⟩⟩
  stack := ⟨stackStart, stackTop, ⟨true, true, false⟩⟩

instance : Inhabited SegmentMap := ⟨default⟩

/-- The segment of a role. -/
def get (map : SegmentMap) : SegmentKind → Segment
  | .text => map.text
  | .data => map.data
  | .heap => map.heap
  | .stack => map.stack

/-- Gives a role another segment. -/
def set (map : SegmentMap) (kind : SegmentKind) (s : Segment) : SegmentMap :=
  match kind with
  | .text => { map with text := s }
  | .data => { map with data := s }
  | .heap => { map with heap := s }
  | .stack => { map with stack := s }

/-- The first role, in the order text, data, heap, stack, whose segment holds an address. -/
def find (map : SegmentMap) (a : Word) : Option SegmentKind :=
  [SegmentKind.text, .data, .heap, .stack].find? fun kind => (map.get kind).contains a

/-- What may be done at an address; nothing outside all segments. -/
def permissionsAt (map : SegmentMap) (a : Word) : Permissions :=
  match map.find a with
  | some kind => (map.get kind).permissions
  | none => ⟨false, false, false⟩

/-- Whether an instruction may be fetched: at a multiple of 4, from an executable segment. -/
def checkFetch (map : SegmentMap) (a : Word) : Except AccessError Unit :=
  if a % 4 != 0 then .error (.misaligned a 4)
  else if (map.permissionsAt a).execute then .ok ()
  else .error (.notExecutable a)

/-- Whether a doubleword may be loaded or stored: at a special address, or at a multiple of 8 in a
segment that allows it. -/
def checkData (map : SegmentMap) (a : Word) (kind : AccessKind) : Except AccessError Unit :=
  if isSpecial a then .ok ()
  else if a % 8 != 0 then .error (.misaligned a 8)
  else if (map.permissionsAt a).allows kind then .ok ()
  else
    match kind with
    | .read => .error (.notReadable a)
    | .write => .error (.notWritable a)

end SegmentMap

end FiveStage
