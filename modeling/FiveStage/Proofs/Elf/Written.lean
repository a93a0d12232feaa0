import FiveStage.Proofs.Elf.Loading

/-!
# Files with given segments

* `fieldBytes` : numbers of given widths, one behind the other; `readNumber_field` : each of them is
  read back where it stands;
* `ProgramHeader.Fits` : a header whose numbers fit their fields; `ProgramHeader.ofBytes_fields` :
  it is read back;
* `writtenFile` : a file with a table of headers; `ObjectFile.open_written` : it is opened and shows
  this table;
* `writableCode` : a file whose code may be written.
-/

namespace FiveStage

/-! ## Fields -/

/-- The bytes of fields, given by value and width, the low byte of each first. -/
def fieldBytes (fields : List (Nat × Nat)) : List Byte :=
  fields.flatMap fun f => littleBytes f.2 f.1

/-- The bytes that fields take. -/
def fieldsSize : List (Nat × Nat) → Nat
  | [] => 0
  | f :: rest => f.2 + fieldsSize rest

theorem length_fieldBytes (fields : List (Nat × Nat)) :
    (fieldBytes fields).length = fieldsSize fields := by
  induction fields with
  | nil => rfl
  | cons f rest ih =>
    rw [fieldsSize, ← ih, fieldBytes, List.flatMap_cons, List.length_append, length_littleBytes,
      fieldBytes]

theorem fieldBytes_append (xs ys : List (Nat × Nat)) :
    fieldBytes (xs ++ ys) = fieldBytes xs ++ fieldBytes ys :=
  List.flatMap_append

theorem fieldsSize_append (xs ys : List (Nat × Nat)) :
    fieldsSize (xs ++ ys) = fieldsSize xs + fieldsSize ys := by
  simp only [← length_fieldBytes, fieldBytes_append, List.length_append]

theorem readNumber_eq_littleEndian (file : Array Byte) (start n : Nat) :
    readNumber .little file start n =
      littleEndian ((List.range n).map fun i => file[start + i]?.getD 0) := by
  have hfold : ∀ bs : List Byte,
      (bs.map BitVec.toNat).foldr (fun b rest => b + 256 * rest) 0 = littleEndian bs := by
    intro bs
    induction bs with
    | nil => rfl
    | cons b rest ih => rw [List.map_cons, List.foldr_cons, ih, littleEndian]
  rw [readNumber, ← hfold, List.map_map]
  rfl

/-- A number is read back from its bytes, whatever stands before and behind them. -/
theorem readNumber_littleBytes (before after : List Byte) (n v : Nat) :
    readNumber .little (before ++ (littleBytes n v ++ after)).toArray before.length n =
      v % 256 ^ n := by
  rw [readNumber_eq_littleEndian, ← littleEndian_littleBytes]
  congr 1
  refine List.ext_getElem (by simp) fun i hi hi' => ?_
  rw [List.getElem_map, List.getElem_range, List.getElem?_toArray,
    List.getElem?_append_right (Nat.le_add_right _ _), Nat.add_sub_cancel_left,
    List.getElem?_append_left hi', List.getElem?_eq_getElem hi', Option.getD_some]

/-- A number that fits its field is read back from a file of fields. -/
theorem readNumber_field (before fields after : List (Nat × Nat)) (i start : Nat) {v n : Nat}
    (h : fields[i]? = some (v, n)) (hv : v < 256 ^ n)
    (hstart : fieldsSize (fields.take i) = start) :
    readNumber .little (fieldBytes (before ++ fields ++ after)).toArray
      (fieldsSize before + start) n = v := by
  obtain ⟨hi, hfield⟩ := List.getElem?_eq_some_iff.1 h
  have hsplit : before ++ fields ++ after =
      (before ++ fields.take i) ++ (v, n) :: (fields.drop (i + 1) ++ after) := by
    rw [← hfield, List.append_assoc, List.append_assoc, ← List.cons_append,
      List.getElem_cons_drop, ← List.append_assoc (fields.take i), List.take_append_drop]
  rw [← hstart, ← fieldsSize_append, ← length_fieldBytes, hsplit, fieldBytes_append]
  exact (readNumber_littleBytes _ _ n v).trans (Nat.mod_eq_of_lt hv)

/-! ## Headers as fields -/

namespace ProgramHeader

/-- The fields of a program header. -/
def fields (p : ProgramHeader) : List (Nat × Nat) :=
  [(p.kind, 4), (p.flags, 4), (p.offset, 8), (p.address.toNat, 8), (p.address.toNat, 8),
    (p.fileSize, 8), (p.memorySize, 8), (8, 8)]

/-- The numbers of a header fit their fields. -/
def Fits (p : ProgramHeader) : Prop :=
  p.kind < 2 ^ 32 ∧ p.flags < 2 ^ 32 ∧ p.offset < 2 ^ 64 ∧ p.fileSize < 2 ^ 64 ∧
    p.memorySize < 2 ^ 64

instance (p : ProgramHeader) : Decidable p.Fits := inferInstanceAs (Decidable (_ ∧ _))

theorem ofBytes_fields {p : ProgramHeader} (h : p.Fits) (before after : List (Nat × Nat)) :
    ofBytes .little (fieldBytes (before ++ p.fields ++ after)).toArray (fieldsSize before) = p := by
  obtain ⟨hkind, hflags, hoffset, hfile, hmemory⟩ := h
  have hread := readNumber_field before p.fields after
  have haddress := congrArg (BitVec.ofNat 64) (hread 3 16 rfl p.address.isLt rfl)
  rw [BitVec.ofNat_toNat, BitVec.setWidth_eq] at haddress
  exact (mk.injEq ..).mpr ⟨hread 0 0 rfl hkind rfl, hread 1 4 rfl hflags rfl,
    hread 2 8 rfl hoffset rfl, haddress, hread 5 32 rfl hfile rfl, hread 6 40 rfl hmemory rfl⟩

theorem fieldsSize_flatMap_fields (headers : List ProgramHeader) :
    fieldsSize (headers.flatMap fields) = headers.length * programHeaderSize := by
  induction headers with
  | nil => rfl
  | cons p rest ih =>
    have hsize : fieldsSize p.fields = programHeaderSize := rfl
    rw [List.flatMap_cons, fieldsSize_append, ih, hsize, List.length_cons, Nat.succ_mul,
      Nat.add_comm]

end ProgramHeader

/-- The header of a file with so many program headers right behind it. -/
def writtenHeader (entry : Word) (count : Nat) : ObjectHeader :=
  ⟨.little, arm64Machine, entry, objectHeaderSize, 0, programHeaderSize, count, 0⟩

/-- The fields of this header. -/
def writtenHeaderFields (entry : Word) (count : Nat) : List (Nat × Nat) :=
  let identification := [(0x10102464C457F, 16), (2, 2), (arm64Machine, 2), (1, 4)]
  let places := [(entry.toNat, 8), (objectHeaderSize, 8), (0, 8), (0, 4)]
  let sizes := [(objectHeaderSize, 2), (programHeaderSize, 2), (count, 2), (0, 2), (0, 2), (0, 2)]
  identification ++ places ++ sizes

/-- A file with some program headers, and some contents behind them. -/
def writtenFile (entry : Word) (headers : List ProgramHeader) (contents : List (Nat × Nat)) :
    Array Byte :=
  (fieldBytes (writtenHeaderFields entry headers.length ++ headers.flatMap ProgramHeader.fields ++
    contents)).toArray

section Written

variable (entry : Word) (headers : List ProgramHeader) (contents : List (Nat × Nat))

theorem size_writtenFile : (writtenFile entry headers contents).size =
    objectHeaderSize + headers.length * programHeaderSize + fieldsSize contents := by
  rw [writtenFile, List.size_toArray, length_fieldBytes, fieldsSize_append, fieldsSize_append,
    ProgramHeader.fieldsSize_flatMap_fields]
  rfl

theorem identifiedOrder?_written :
    identifiedOrder? (writtenFile entry headers contents) = some .little := by
  have hident : ((writtenFile entry headers contents).extract 0 7).toList =
      (littleBytes 16 0x10102464C457F).take 7 := by
    rw [writtenFile, List.extract_toArray, List.extract_eq_take_drop]
    rfl
  rw [identifiedOrder?, hident]
  rfl

/-- The header that a file is written with is the one that it has. -/
theorem ObjectHeader.ofBytes_written (hcount : headers.length < countOverflow) :
    ofBytes (writtenFile entry headers contents) = .ok (writtenHeader entry headers.length) := by
  have hsize : ¬ (writtenFile entry headers contents).size < objectHeaderSize := by
    rw [size_writtenFile]
    omega
  have hread : ∀ i start {v n}, (writtenHeaderFields entry headers.length)[i]? = some (v, n) →
      v < 256 ^ n → fieldsSize ((writtenHeaderFields entry headers.length).take i) = start →
      readNumber .little (writtenFile entry headers contents) start n = v := by
    intro i start v n hi hv hstart
    have h := readNumber_field [] _ (headers.flatMap ProgramHeader.fields ++ contents) i start hi hv
      hstart
    rwa [List.nil_append, ← List.append_assoc, show fieldsSize [] = 0 from rfl, Nat.zero_add] at h
  have hentry := congrArg (BitVec.ofNat 64)
    (hread 4 24 rfl entry.isLt rfl)
  rw [BitVec.ofNat_toNat, BitVec.setWidth_eq] at hentry
  rw [ofBytes, if_neg hsize, identifiedOrder?_written]
  -- the type of the file, its version, its flags and its own size are not looked at
  refine congrArg Except.ok ((ObjectHeader.mk.injEq ..).mpr ⟨rfl, ?_, hentry, ?_, ?_, ?_, ?_, ?_⟩)
  · exact hread 2 18 rfl (by decide) rfl
  · exact hread 5 32 rfl (by decide) rfl
  · exact hread 6 40 rfl (by decide) rfl
  · exact hread 9 54 rfl (by decide) rfl
  · exact hread 10 56 rfl (Nat.lt_succ_of_lt hcount) rfl
  · exact hread 11 58 rfl (by decide) rfl

theorem ProgramHeader.ofBytes_written {i : Nat} (hi : i < headers.length) (h : headers[i].Fits) :
    ofBytes .little (writtenFile entry headers contents)
      (objectHeaderSize + i * programHeaderSize) = headers[i] := by
  have hheaders : headers.flatMap fields = (headers.take i).flatMap fields ++
      (headers[i].fields ++ (headers.drop (i + 1)).flatMap fields) := by
    rw [← List.flatMap_cons, ← List.flatMap_append, List.getElem_cons_drop, List.take_append_drop]
  have hstart : objectHeaderSize + i * programHeaderSize = fieldsSize
      (writtenHeaderFields entry headers.length ++ (headers.take i).flatMap fields) := by
    rw [fieldsSize_append, fieldsSize_flatMap_fields, List.length_take,
      Nat.min_eq_left (Nat.le_of_lt hi)]
    rfl
  rw [writtenFile, hheaders, hstart]
  simp only [← List.append_assoc]
  rw [List.append_assoc _ _ contents]
  exact ofBytes_fields h _ _

/-- So is the table, if its numbers fit their fields. -/
theorem ObjectHeader.programHeaders_written (hcount : headers.length < countOverflow)
    (hfits : ∀ p ∈ headers, p.Fits) :
    (writtenHeader entry headers.length).programHeaders (writtenFile entry headers contents) =
      .ok headers := by
  have hoffset : (writtenHeader entry headers.length).programOffset ≠ 0 :=
    show objectHeaderSize ≠ 0 by decide
  have hn : (writtenHeader entry headers.length).programHeaderCount
      (writtenFile entry headers contents) = .ok headers.length := if_pos (Nat.ne_of_lt hcount)
  rw [programHeaders, if_neg hoffset, hn]
  by_cases hempty : headers.length = 0
  · rw [List.length_eq_zero_iff.1 hempty]
    rfl
  · have hsize : ¬ (writtenFile entry headers contents).size <
        (writtenHeader entry headers.length).programOffset +
          headers.length * programHeaderSize := by
      rw [size_writtenFile]
      exact Nat.not_lt.2 (Nat.le_add_right _ _)
    have hentry : ¬ (writtenHeader entry headers.length).programEntrySize ≠ programHeaderSize :=
      fun h => h rfl
    simp only [if_neg hempty, if_neg hentry, if_neg hsize]
    refine congrArg Except.ok (List.ext_getElem (by simp) fun i hi hi' => ?_)
    rw [List.getElem_map, List.getElem_range]
    exact ProgramHeader.ofBytes_written entry headers contents hi' (hfits _ (List.getElem_mem hi'))

/-- Every table whose numbers fit their fields is that of a file that is opened. -/
theorem ObjectFile.open_written (path : String)
    (hcount : headers.length < ObjectHeader.countOverflow) (hfits : ∀ p ∈ headers, p.Fits) :
    ∃ f : ObjectFile, ObjectFile.open path (.ok (writtenFile entry headers contents)) = .ok f ∧
      f.bytes = writtenFile entry headers contents ∧ f.entry = entry ∧
      f.programHeaders = .ok headers := by
  refine ⟨⟨writtenHeader entry headers.length, writtenFile entry headers contents⟩, ?_, rfl, rfl,
    ?_⟩
  · rw [ObjectFile.open]
    simp only [ObjectHeader.ofBytes_written entry headers contents hcount]
    rfl
  · rw [programHeaders, ObjectHeader.programHeaders_written entry headers contents hcount hfits]
    rfl

end Written

/-! ## A file whose code may be written -/

/-- The segment of the file. -/
def writableSegment : ProgramHeader := ⟨loadable, 7, 120, 0x400000, 24, 24⟩

/-- Its six instructions. The program stores zero over the last one, which halts. -/
def selfModifying : List (Nat × Nat) :=
  [(0xD2A00802, 4), (0x91004042, 4), (0xF8000041, 4), (0xD503201F, 4), (0xD503201F, 4),
    (0xD4400000, 4)]

/-- A file whose one segment may be written as well as executed. -/
def writableCode : Array Byte := writtenFile 0x400000 [writableSegment] selfModifying

/-- The layout of a program whose text may be written. -/
def writableLayout : SegmentMap :=
  { SegmentMap.default with text := ⟨0x400000, 0x400018, ⟨true, true, true⟩⟩ }

/-- Loading accepts the file. -/
theorem load_writableCode (path : String) : ∃ file image,
    ObjectFile.open path (.ok writableCode) = .ok file ∧ file.load = .ok image ∧
    image.segments = writableLayout := by
  obtain ⟨file, hopen, hbytes, -, hheaders⟩ :=
    ObjectFile.open_written 0x400000 [writableSegment] selfModifying path (by decide) (by decide)
  have hsound : writableSegment.Sound file.bytes := by
    rw [ProgramHeader.Sound, hbytes, size_writtenFile]
    decide
  refine ⟨file, Image.empty.place writableSegment file.bytes, hopen, ?_, rfl⟩
  rw [ObjectFile.load_eq hheaders, Image.placeAll_sound rfl hsound]
  rfl

end FiveStage
