import FiveStage.Bits.Field

/-!
# Object file headers

The headers of a 64-bit ELF file, in either byte order.

* `ByteOrder`, `readNumber` : unsigned fields of a file;
* `ObjectHeader`, `ObjectHeader.ofBytes` : the file header, or why the file has none;
* `ProgramHeader`, `programHeaders` : the table of program headers, or why there is none.
-/

namespace FiveStage

/-- Which byte of a field comes first. -/
inductive ByteOrder where
  | little | big
  deriving DecidableEq, Repr, Inhabited

/-- The number in the `n` bytes of a file from a place on. Bytes beyond the end count as zero. -/
def readNumber (order : ByteOrder) (file : Array Byte) (start n : Nat) : Nat :=
  let field := (List.range n).map fun i => (file[start + i]?.getD 0).toNat
  match order with
  | .little => field.foldr (fun b rest => b + 256 * rest) 0
  | .big => field.foldl (fun rest b => 256 * rest + b) 0

/-- What a file says about itself. -/
structure ObjectHeader where
  order : ByteOrder
  machine : Nat
  entry : Word
  programOffset : Nat
  sectionOffset : Nat
  programEntrySize : Nat
  programCount : Nat
  sectionEntrySize : Nat
  deriving DecidableEq, Repr

/-- Why a file has no header that can be used. -/
inductive HeaderError where
  | tooShort | unsupported
  deriving DecidableEq, Repr

/-- The text of a refusal. -/
def HeaderError.message : HeaderError → String
  | tooShort => "Invalid ELF header size or alignment"
  | unsupported => "Unsupported ELF header"

/-- Bytes in a file header. -/
def objectHeaderSize : Nat := 64

/-- Bytes in a program header. -/
def programHeaderSize : Nat := 56

/-- Bytes in a section header. -/
def sectionHeaderSize : Nat := 64

/-- The byte order that the identification of a file names. The mark, the 64-bit class and the
version have to be right as well. -/
def identifiedOrder? (file : Array Byte) : Option ByteOrder :=
  let ident := (file.extract 0 7).toList.map BitVec.toNat
  if ident = [0x7F, 0x45, 0x4C, 0x46, 2, 1, 1] then some .little
  else if ident = [0x7F, 0x45, 0x4C, 0x46, 2, 2, 1] then some .big
  else none

/-- The header of a file. -/
def ObjectHeader.ofBytes (file : Array Byte) : Except HeaderError ObjectHeader :=
  if file.size < objectHeaderSize then .error .tooShort
  else
    match identifiedOrder? file with
    | none => .error .unsupported
    | some order =>
      let number := readNumber order file
      .ok
        { order := order
          machine := number 18 2
          entry := BitVec.ofNat 64 (number 24 8)
          programOffset := number 32 8
          sectionOffset := number 40 8
          programEntrySize := number 54 2
          programCount := number 56 2
          sectionEntrySize := number 58 2 }

/-! ## Program headers -/

/-- One entry of the table of program headers. -/
structure ProgramHeader where
  kind : Nat
  flags : Nat
  offset : Nat
  address : Word
  fileSize : Nat
  memorySize : Nat
  deriving DecidableEq, Repr

/-- The program header at a place of a file. -/
def ProgramHeader.ofBytes (order : ByteOrder) (file : Array Byte) (start : Nat) :
    ProgramHeader where
  kind := readNumber order file start 4
  flags := readNumber order file (start + 4) 4
  offset := readNumber order file (start + 8) 8
  address := BitVec.ofNat 64 (readNumber order file (start + 16) 8)
  fileSize := readNumber order file (start + 32) 8
  memorySize := readNumber order file (start + 40) 8

/-- Why a file has no table of program headers that can be used. -/
inductive TableError where
  | noSections | badSectionSize | sectionOutside | badEntrySize | tableOutside
  deriving DecidableEq, Repr

/-- The text of a refusal. -/
def TableError.message : TableError → String
  | noSections => "Missing ELF section headers for e_phnum overflow"
  | badSectionSize => "Invalid ELF section header entry size"
  | sectionOutside => "Invalid ELF section header offset or size"
  | badEntrySize => "Invalid ELF program header entry size"
  | tableOutside => "Invalid ELF program header size or alignment"

namespace ObjectHeader

/-- The count that says that the real one is too large for its field. -/
def countOverflow : Nat := 0xFFFF

/-- The number of program headers. If it is too large for its field, the first section header holds
it. -/
def programHeaderCount (h : ObjectHeader) (file : Array Byte) : Except TableError Nat :=
  if h.programCount ≠ countOverflow then .ok h.programCount
  else if h.sectionOffset = 0 then .error .noSections
  else if h.sectionEntrySize ≠ sectionHeaderSize then .error .badSectionSize
  else if file.size < h.sectionOffset + sectionHeaderSize then .error .sectionOutside
  else .ok (readNumber h.order file (h.sectionOffset + 44) 4)

/-- The program headers of a file; none if the file says nothing of a table. -/
def programHeaders (h : ObjectHeader) (file : Array Byte) :
    Except TableError (List ProgramHeader) :=
  if h.programOffset = 0 then .ok []
  else
    match h.programHeaderCount file with
    | .error e => .error e
    | .ok n =>
      if n = 0 then .ok []
      else if h.programEntrySize ≠ programHeaderSize then .error .badEntrySize
      else if file.size < h.programOffset + n * programHeaderSize then .error .tableOutside
      else
        .ok ((List.range n).map fun i =>
          ProgramHeader.ofBytes h.order file (h.programOffset + i * programHeaderSize))

end ObjectHeader

end FiveStage
