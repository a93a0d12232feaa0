import FiveStage.Elf.Header
import FiveStage.Files.Basic
import FiveStage.Log
import FiveStage.Memory.Segment
import FiveStage.Memory.Sparse
import FiveStage.Text.Quoted

/-!
# Loading programs

* `ElfError` : why a file cannot be run;
* `ObjectFile`, `ObjectFile.open` : a file made for this machine;
* `Image` : memory, layout and entry point of a loaded program;
* `ProgramHeader.check`, `Image.place` : whether one loadable header is sound, and what it adds;
* `ObjectFile.load` : the image of a whole file; `ObjectFile.loadLog` : what loading says.
-/

namespace FiveStage

/-- Why a file cannot be run. -/
inductive ElfError where
  | unreadable (path : String) (cause : FileError)
  | unparsable (path : String) (cause : HeaderError)
  | wrongMachine (machine : Nat)
  | badTable (cause : TableError)
  /-- The end of a segment is beyond the address space. -/
  | outOfBounds (address : Word)
  /-- A segment takes more bytes from the file than it has in memory. -/
  | tooManyBytes (address : Word) (fileSize memorySize : Nat)
  | outsideFile (address : Word)
  deriving DecidableEq, Repr

namespace ElfError

/-- What a malformed file gets wrong. -/
def fault : ElfError → String
  | badTable e => e.message
  | tooManyBytes a f m =>
    "segment at " ++ a.hex ++ " has file size 0x" ++ hexadecimal f ++
      " larger than memory size 0x" ++ hexadecimal m
  | outsideFile a => "segment at " ++ a.hex ++ " lies outside the file"
  | _ => ""

/-- The error in a sentence. -/
def message (e : ElfError) : String :=
  match e with
  | unreadable path cause => "Failed to read ELF file '" ++ path ++ "': " ++ cause.message
  | unparsable path cause => "Failed to parse ELF file '" ++ path ++ "': " ++ cause.message
  | wrongMachine m => "Invalid ELF machine type: " ++ decimal m
  | outOfBounds a => "Segment at " ++ a.hex ++ " does not fit in the 64-bit address space"
  | badTable _ | tooManyBytes _ _ _ | outsideFile _ => "Invalid ELF format: " ++ e.fault

/-- The error with its name and everything it holds. -/
def describe (e : ElfError) : String :=
  match e with
  | unreadable path cause =>
    "FileReadError(" ++ quoted path ++ ", " ++ cause.describe ++ ")"
  | unparsable path cause =>
    "ParseError(" ++ quoted path ++ ", " ++ quoted cause.message ++ ")"
  | wrongMachine m => "InvalidMachine(" ++ decimal m ++ ")"
  | outOfBounds a => "AddressOutOfBounds(" ++ decimal a.toNat ++ ")"
  | badTable _ | tooManyBytes _ _ _ | outsideFile _ =>
    "InvalidFormat(" ++ quoted e.fault ++ ")"

end ElfError

/-- A file with its header. -/
structure ObjectFile where
  header : ObjectHeader
  bytes : Array Byte

/-- The number of the machine that programs have to be made for. -/
def arm64Machine : Nat := 183

/-- A file made for this machine, from what reading it gave. -/
def ObjectFile.open (path : String) (contents : Except FileError (Array Byte)) :
    Except ElfError ObjectFile :=
  match contents with
  | .error e => .error (.unreadable path e)
  | .ok bytes =>
    match ObjectHeader.ofBytes bytes with
    | .error e => .error (.unparsable path e)
    | .ok h => if h.machine = arm64Machine then .ok ⟨h, bytes⟩ else .error (.wrongMachine h.machine)

/-! ## Segments of a file -/

/-- The protections that the flags of a program header ask for. -/
def Permissions.ofFlags (flags : Nat) : Permissions :=
  ⟨flags.testBit 2, flags.testBit 1, flags.testBit 0⟩

/-- The kind of program header whose bytes are loaded. -/
def loadable : Nat := 1

namespace ProgramHeader

/-- The protections a header asks for. -/
def permissions (p : ProgramHeader) : Permissions := .ofFlags p.flags

/-- One past the last address of a header's segment. -/
def stop (p : ProgramHeader) : Word := p.address + BitVec.ofNat 64 p.memorySize

/-- Whether a loadable header is sound: its end is an address, it does not take more bytes from the
file than it has in memory, and the file has them. -/
def check (p : ProgramHeader) (file : Array Byte) : Except ElfError Unit :=
  if 2 ^ 64 ≤ p.address.toNat + p.memorySize then .error (.outOfBounds p.address)
  else if p.memorySize < p.fileSize then
    .error (.tooManyBytes p.address p.fileSize p.memorySize)
  else if file.size < p.offset + p.fileSize then .error (.outsideFile p.address)
  else .ok ()

/-- The bytes of a segment: those in the file, then zeros. -/
def contents (p : ProgramHeader) (file : Array Byte) : List Byte :=
  (file.extract p.offset (p.offset + p.fileSize)).toList ++
    List.replicate (p.memorySize - p.fileSize) 0

end ProgramHeader

/-- A program in memory. -/
structure Image where
  memory : Memory
  segments : SegmentMap

namespace Image

/-- No program at all. -/
def empty : Image := ⟨Memory.empty, SegmentMap.default⟩

/-- The layout once a header's segment is in it: code becomes the text segment, other bytes that can
be written become the data segment, which runs up to the heap at least. -/
def layout (map : SegmentMap) (p : ProgramHeader) : SegmentMap :=
  if p.permissions.execute then map.set .text ⟨p.address, p.stop, p.permissions⟩
  else if p.permissions.write then
    map.set .data ⟨p.address, if p.stop.ult heapStart then heapStart else p.stop, p.permissions⟩
  else map

/-- The image with a header's segment in it. -/
def place (image : Image) (p : ProgramHeader) (file : Array Byte) : Image where
  memory := image.memory.writeBytes p.address (p.contents file)
  segments := layout image.segments p

/-- The image with the loadable segments of some headers in it, up to the first unsound one. -/
def placeAll (file : Array Byte) : List ProgramHeader → Image → Except ElfError Image
  | [], image => .ok image
  | p :: rest, image =>
    if p.kind = loadable then
      match p.check file with
      | .error e => .error e
      | .ok () => placeAll file rest (image.place p file)
    else placeAll file rest image

end Image

namespace ObjectFile

/-- Where a program is entered. -/
def entry (f : ObjectFile) : Word := f.header.entry

/-- The program headers of a file. -/
def programHeaders (f : ObjectFile) : Except ElfError (List ProgramHeader) :=
  (f.header.programHeaders f.bytes).mapError .badTable

/-- The image of a whole file. -/
def load (f : ObjectFile) : Except ElfError Image :=
  match f.programHeaders with
  | .error e => .error e
  | .ok headers => Image.placeAll f.bytes headers .empty

/-! ## The log -/

/-- What loading one segment says. -/
def segmentRecord (p : ProgramHeader) : LogRecord :=
  ⟨.debug, .loader,
    "loading segment " ++ p.address.hex ++ ".." ++ p.stop.hex ++ " (" ++ p.permissions.text ++
      "), 0x" ++ hexadecimal p.fileSize ++ " bytes from file"⟩

/-- What loading says: the entry point, then every segment before the first unsound one. -/
def loadLog (f : ObjectFile) : Log :=
  let headers :=
    match f.programHeaders with
    | .ok headers => headers.filter fun p : ProgramHeader => p.kind = loadable
    | .error _ => []
  let sound := headers.takeWhile fun p : ProgramHeader => (p.check f.bytes).isOk
  ⟨.info, .loader, "Initial PC: " ++ f.entry.hex⟩ :: sound.map segmentRecord

end ObjectFile

end FiveStage
