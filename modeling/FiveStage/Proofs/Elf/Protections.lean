import FiveStage.Proofs.Elf.Written
import FiveStage.Proofs.Memory.Layout

/-!
# The protections of a loaded program

* `SegmentMap.Grants` : an address is protected as some permissions ask; `SegmentMap.grants_iff` :
  these are then the permissions of the layout there;
* `lastLoadable`, `SegmentMap.ofHeaders` : the header that a role is taken from, and the layout that
  some headers make; `Image.segments_placeAll` : loading makes this layout;
* `constantFile` : a file with a segment that is only to be read;
* `Protects` : whose protections hold in a layout, and where;
  `ObjectFile.protects_of_load` : the layout of every file that is loaded;
* `ObjectFile.unreadable_constants` : a segment that is only to be read cannot be read.
-/

namespace FiveStage

/-! ## What a layout grants -/

namespace SegmentMap

variable {map : SegmentMap} {asked : Permissions} {a : Word}

/-- Accesses to an address are admitted as the permissions say: doublewords if it is a multiple of
8, instructions if it is one of 4. -/
structure Grants (map : SegmentMap) (asked : Permissions) (a : Word) : Prop where
  data : a.toNat % 8 = 0 → ∀ kind, map.checkData a kind = .ok () ↔ asked.allows kind = true
  fetch : a.toNat % 4 = 0 → (map.checkFetch a = .ok () ↔ asked.execute = true)

theorem grants_permissionsAt (map : SegmentMap) (hs : isSpecial a = false) :
    map.Grants (map.permissionsAt a) a :=
  ⟨fun ha kind => checkData_ok_iff hs ha kind, fun ha => checkFetch_ok_iff ha⟩

/-- At a multiple of 8 all three kinds of access are judged, and no two permissions are judged
alike. -/
theorem grants_iff (hs : isSpecial a = false) (ha : a.toNat % 8 = 0) :
    map.Grants asked a ↔ map.permissionsAt a = asked := by
  constructor
  · intro h
    have hhere := grants_permissionsAt map hs
    have hdata : ∀ kind, (map.permissionsAt a).allows kind = asked.allows kind := fun kind =>
      Bool.eq_iff_iff.2 ((hhere.data ha kind).symm.trans (h.data ha kind))
    have hfetch : (map.permissionsAt a).execute = asked.execute :=
      Bool.eq_iff_iff.2 ((hhere.fetch (by omega)).symm.trans (h.fetch (by omega)))
    cases hp : map.permissionsAt a
    cases asked
    rw [hp] at hdata hfetch
    congr
    · exact hdata .read
    · exact hdata .write
  · rintro rfl
    exact grants_permissionsAt map hs

theorem permissionsAt_of_text (h : map.text.contains a = true) :
    map.permissionsAt a = map.text.permissions := by
  have hfind : map.find a = some .text := List.find?_cons_of_pos h
  rw [permissionsAt, hfind]
  rfl

theorem permissionsAt_of_data (htext : map.text.contains a = false)
    (h : map.data.contains a = true) : map.permissionsAt a = map.data.permissions := by
  have hfind : map.find a = some .data := by
    rw [find, List.find?_cons_of_neg (by rw [get, htext]; exact Bool.false_ne_true)]
    exact List.find?_cons_of_pos h
  rw [permissionsAt, hfind]
  rfl

/-- Nothing is granted but what some segment grants. -/
theorem permissionsAt_cases (map : SegmentMap) (a : Word) :
    (∃ kind, map.permissionsAt a = (map.get kind).permissions) ∨
      map.permissionsAt a = ⟨false, false, false⟩ := by
  unfold permissionsAt
  split
  · exact .inl ⟨_, rfl⟩
  · exact .inr rfl

end SegmentMap

/-! ## The layout that headers make -/

namespace Permissions

/-- What is to be executed becomes the text segment. -/
def isCode (p : Permissions) : Bool := p.execute

/-- What is to be written, but not executed, becomes the data segment. -/
def isData (p : Permissions) : Bool := !p.execute && p.write

end Permissions

namespace ProgramHeader

/-- The text segment that a header makes. -/
def textSegment (p : ProgramHeader) : Segment := ⟨p.address, p.stop, p.permissions⟩

/-- The data segment that a header makes. It runs up to the heap at least. -/
def dataSegment (p : ProgramHeader) : Segment :=
  ⟨p.address, if p.stop.ult heapStart then heapStart else p.stop, p.permissions⟩

end ProgramHeader

/-- The last loadable header with a role. -/
def lastLoadable (role : Permissions → Bool) (headers : List ProgramHeader) :
    Option ProgramHeader :=
  headers.reverse.find? fun p => p.kind = loadable ∧ role p.permissions = true

/-- The layout with the roles that some headers have: for each role its last header decides. -/
def SegmentMap.ofHeaders (map : SegmentMap) (headers : List ProgramHeader) : SegmentMap :=
  { map with
    text := ((lastLoadable Permissions.isCode headers).map ProgramHeader.textSegment).getD map.text
    data :=
      ((lastLoadable Permissions.isData headers).map ProgramHeader.dataSegment).getD map.data }

section Layout

variable {role : Permissions → Bool} {p : ProgramHeader} {headers : List ProgramHeader}
  {file : Array Byte} {map : SegmentMap}

theorem lastLoadable_cons (role : Permissions → Bool) (p : ProgramHeader)
    (headers : List ProgramHeader) : lastLoadable role (p :: headers) =
      (lastLoadable role headers).or
        (if p.kind = loadable ∧ role p.permissions = true then some p else none) := by
  rw [lastLoadable, find?_reverse_cons]
  simp only [decide_eq_true_eq]
  rfl

theorem mem_of_lastLoadable (h : lastLoadable role headers = some p) :
    p ∈ headers ∧ p.kind = loadable ∧ role p.permissions = true := by
  have hp := List.find?_some h
  rw [decide_eq_true_eq] at hp
  exact ⟨List.mem_reverse.1 (List.mem_of_find?_eq_some h), hp⟩

/-- What a header changes of a segment is kept unless a later header changes it again. -/
theorem getD_lastLoadable_cons (f : ProgramHeader → Segment) (s : Segment)
    (hk : p.kind = loadable) : ((lastLoadable role (p :: headers)).map f).getD s =
      ((lastLoadable role headers).map f).getD (if role p.permissions = true then f p else s) := by
  rw [lastLoadable_cons]
  cases lastLoadable role headers with
  | some q => rfl
  | none =>
    by_cases hr : role p.permissions = true
    · rw [if_pos ⟨hk, hr⟩, if_pos hr]
      rfl
    · rw [if_neg fun h => hr h.2, if_neg hr]
      rfl

theorem lastLoadable_skip (hk : p.kind ≠ loadable) :
    lastLoadable role (p :: headers) = lastLoadable role headers := by
  rw [lastLoadable_cons, if_neg fun h => hk h.1, Option.or_none]

theorem layout_eq (map : SegmentMap) (p : ProgramHeader) : Image.layout map p =
    { map with
      text := if p.permissions.isCode = true then p.textSegment else map.text
      data := if p.permissions.isData = true then p.dataSegment else map.data } := by
  unfold Image.layout Permissions.isData Permissions.isCode
  cases p.permissions.execute <;> cases p.permissions.write <;> rfl

theorem ofHeaders_cons (hk : p.kind = loadable) :
    map.ofHeaders (p :: headers) = (Image.layout map p).ofHeaders headers := by
  rw [layout_eq]
  simp only [SegmentMap.ofHeaders, getD_lastLoadable_cons _ _ hk]

theorem ofHeaders_skip (hk : p.kind ≠ loadable) :
    map.ofHeaders (p :: headers) = map.ofHeaders headers := by
  simp only [SegmentMap.ofHeaders, lastLoadable_skip hk]

/-- Loading makes the layout of its headers, whatever the layout was before. -/
theorem Image.segments_placeAll {image loaded : Image}
    (h : Image.placeAll file headers image = .ok loaded) :
    loaded.segments = image.segments.ofHeaders headers := by
  induction headers generalizing image with
  | nil =>
    obtain rfl := Except.ok.inj h
    rfl
  | cons p rest ih =>
    by_cases hk : p.kind = loadable
    · have hs : p.Sound file := (placeAll_ok_iff image).1 ⟨loaded, h⟩ p List.mem_cons_self hk
      rw [placeAll_sound hk hs] at h
      rw [ofHeaders_cons hk]
      exact ih h
    · rw [placeAll_skip hk] at h
      rw [ofHeaders_skip hk]
      exact ih h

end Layout

/-! ## A file with constants -/

/-- Its segments: instructions, constants and variables. -/
def codeSegment : ProgramHeader := ⟨loadable, 5, 232, 0x400000, 8, 8⟩

def constantSegment : ProgramHeader := ⟨loadable, 4, 240, 0x402000, 8, 8⟩

def variableSegment : ProgramHeader := ⟨loadable, 6, 248, 0x800000, 8, 8⟩

def constantHeaders : List ProgramHeader := [codeSegment, constantSegment, variableSegment]

/-- What the segments hold. -/
def constantContents : List (Nat × Nat) := [(0xD503201F, 4), (0xD4400000, 4), (42, 8), (7, 8)]

/-- A file with two instructions, the second of which halts, a constant that is only to be read, and
a variable, in a segment each. -/
def constantFile : Array Byte := writtenFile 0x400000 constantHeaders constantContents

theorem sound_constantFile : ∀ p ∈ constantHeaders, p.kind = loadable → p.Sound constantFile := by
  have hsize : constantFile.size = 256 := size_writtenFile _ _ _
  intro p hp _
  simp only [constantHeaders, List.mem_cons, List.not_mem_nil, or_false] at hp
  rw [ProgramHeader.Sound, hsize]
  obtain rfl | rfl | rfl := hp <;> decide

/-- Loading accepts the file. -/
theorem load_constantFile (path : String) : ∃ file image,
    ObjectFile.open path (.ok constantFile) = .ok file ∧
    file.programHeaders = .ok constantHeaders ∧ file.load = .ok image := by
  obtain ⟨file, hopen, hbytes, -, hheaders⟩ := ObjectFile.open_written 0x400000 constantHeaders
    constantContents path (by decide) (by decide)
  obtain ⟨image, hload⟩ := Image.placeAll_of_sound sound_constantFile .empty
  refine ⟨file, image, hopen, hheaders, ?_⟩
  rw [ObjectFile.load_eq hheaders, hbytes]
  exact hload

/-! ## Whose protections hold -/

namespace ProgramHeader

variable {p : ProgramHeader} {file : Array Byte} {a : Word}

theorem Sound.contains_textSegment (h : p.Sound file) :
    p.textSegment.contains a = true ↔ p.Covers a := by
  rw [Segment.contains, Bool.and_eq_true, BitVec.ule_iff_le, BitVec.ult_iff_lt, BitVec.le_def,
    BitVec.lt_def, textSegment, h.noOverflow.stop]
  rfl

theorem Sound.contains_dataSegment (h : p.Sound file) (hc : p.Covers a) :
    p.dataSegment.contains a = true := by
  obtain ⟨hfrom, hto⟩ := hc
  rw [Segment.contains, Bool.and_eq_true, BitVec.ule_iff_le, BitVec.ult_iff_lt, BitVec.le_def,
    BitVec.lt_def]
  refine ⟨hfrom, ?_⟩
  rw [← h.noOverflow.stop] at hto
  rw [dataSegment]
  split
  · rename_i hlt
    exact Nat.lt_trans hto (BitVec.lt_def.1 (BitVec.ult_iff_lt.1 hlt))
  · exact hto

end ProgramHeader

/-- Whose protections hold in the layout that some headers make of the default one: those of the
last header with code on all of its segment; those of the last header with data on what does not
belong to the text segment, be it of a header or, if none has code, the default one. Elsewhere no
protections hold but those of the layout itself, and these never are to be read only. -/
structure Protects (headers : List ProgramHeader) (map : SegmentMap) : Prop where
  layout : map = SegmentMap.default.ofHeaders headers
  code : ∀ p a, lastLoadable Permissions.isCode headers = some p → p.Covers a →
    isSpecial a = false → map.Grants p.permissions a
  data : ∀ p a, lastLoadable Permissions.isData headers = some p → p.Covers a →
    (∀ q, lastLoadable Permissions.isCode headers = some q → ¬ q.Covers a) →
    (lastLoadable Permissions.isCode headers = none → SegmentMap.default.text.contains a = false) →
    isSpecial a = false → map.Grants p.permissions a
  other : ∀ asked a, isSpecial a = false → a.toNat % 8 = 0 →
    (map.Grants asked a ↔ map.permissionsAt a = asked)
  readOnly : ∀ a, map.permissionsAt a ≠ ⟨true, false, false⟩

section Roles

variable {headers : List ProgramHeader} {file : Array Byte} {p : ProgramHeader} {a : Word}
  {map : SegmentMap}

theorem text_ofHeaders (h : lastLoadable Permissions.isCode headers = some p) :
    (map.ofHeaders headers).text = p.textSegment := by
  rw [SegmentMap.ofHeaders, h]
  rfl

theorem text_ofHeaders_of_none (h : lastLoadable Permissions.isCode headers = none) :
    (map.ofHeaders headers).text = map.text := by
  rw [SegmentMap.ofHeaders, h]
  rfl

theorem data_ofHeaders (h : lastLoadable Permissions.isData headers = some p) :
    (map.ofHeaders headers).data = p.dataSegment := by
  rw [SegmentMap.ofHeaders, h]
  rfl

theorem data_ofHeaders_of_none (h : lastLoadable Permissions.isData headers = none) :
    (map.ofHeaders headers).data = map.data := by
  rw [SegmentMap.ofHeaders, h]
  rfl

/-- In every layout that headers make of the default one, each segment may be written or
executed. -/
theorem used_ofHeaders (headers : List ProgramHeader) (kind : SegmentKind) :
    let used := ((SegmentMap.default.ofHeaders headers).get kind).permissions
    used.execute = true ∨ used.write = true := by
  cases kind with
  | text =>
    cases h : lastLoadable Permissions.isCode headers with
    | none => rw [SegmentMap.get, text_ofHeaders_of_none h]; exact .inl rfl
    | some p => rw [SegmentMap.get, text_ofHeaders h]; exact .inl (mem_of_lastLoadable h).2.2
  | data =>
    cases h : lastLoadable Permissions.isData headers with
    | none => rw [SegmentMap.get, data_ofHeaders_of_none h]; exact .inr rfl
    | some p =>
      have hrole := (mem_of_lastLoadable h).2.2
      rw [Permissions.isData, Bool.and_eq_true] at hrole
      rw [SegmentMap.get, data_ofHeaders h]
      exact .inr hrole.2
  | heap => exact .inr rfl
  | stack => exact .inr rfl

theorem permissionsAt_ofHeaders_ne_readOnly (headers : List ProgramHeader) (a : Word) :
    (SegmentMap.default.ofHeaders headers).permissionsAt a ≠ ⟨true, false, false⟩ := by
  intro hread
  obtain ⟨kind, h⟩ | h := (SegmentMap.default.ofHeaders headers).permissionsAt_cases a
  · have hused := used_ofHeaders headers kind
    rw [← h, hread] at hused
    obtain hx | hw := hused
    · cases hx
    · cases hw
  · rw [h] at hread
    cases hread

theorem grants_code (hsound : ∀ q ∈ headers, q.kind = loadable → q.Sound file)
    (hp : lastLoadable Permissions.isCode headers = some p) (hc : p.Covers a)
    (hs : isSpecial a = false) : (map.ofHeaders headers).Grants p.permissions a := by
  obtain ⟨hmem, hk, -⟩ := mem_of_lastLoadable hp
  have htext : (map.ofHeaders headers).text = p.textSegment := text_ofHeaders hp
  have hin : (map.ofHeaders headers).text.contains a = true := by
    rw [htext]
    exact (hsound p hmem hk).contains_textSegment.2 hc
  have hgrants := SegmentMap.grants_permissionsAt (map.ofHeaders headers) hs
  rwa [SegmentMap.permissionsAt_of_text hin, htext] at hgrants

theorem grants_data (hsound : ∀ q ∈ headers, q.kind = loadable → q.Sound file)
    (hp : lastLoadable Permissions.isData headers = some p) (hc : p.Covers a)
    (hcode : ∀ q, lastLoadable Permissions.isCode headers = some q → ¬ q.Covers a)
    (hnone : lastLoadable Permissions.isCode headers = none → map.text.contains a = false)
    (hs : isSpecial a = false) : (map.ofHeaders headers).Grants p.permissions a := by
  obtain ⟨hmem, hk, -⟩ := mem_of_lastLoadable hp
  have hdata : (map.ofHeaders headers).data = p.dataSegment := data_ofHeaders hp
  have hin : (map.ofHeaders headers).data.contains a = true := by
    rw [hdata]
    exact (hsound p hmem hk).contains_dataSegment hc
  -- the text segment is asked first
  have hout : (map.ofHeaders headers).text.contains a = false := by
    cases hq : lastLoadable Permissions.isCode headers with
    | none =>
      rw [text_ofHeaders_of_none hq]
      exact hnone hq
    | some q =>
      obtain ⟨hqmem, hqk, -⟩ := mem_of_lastLoadable hq
      rw [text_ofHeaders hq]
      exact Bool.eq_false_iff.2 fun h =>
        hcode q hq ((hsound q hqmem hqk).contains_textSegment.1 h)
  have hgrants := SegmentMap.grants_permissionsAt (map.ofHeaders headers) hs
  rwa [SegmentMap.permissionsAt_of_data hout hin, hdata] at hgrants

end Roles

/-- The layout of a file that is loaded has the protections of the last header with code and of the
last header with data, on their segments, and no others but the default ones. -/
theorem ObjectFile.protects_of_load {f : ObjectFile} {headers : List ProgramHeader} {image : Image}
    (hheaders : f.programHeaders = .ok headers) (hload : f.load = .ok image) :
    Protects headers image.segments := by
  rw [load_eq hheaders] at hload
  have hsound := (Image.placeAll_ok_iff .empty).1 ⟨image, hload⟩
  have hlayout : image.segments = SegmentMap.default.ofHeaders headers :=
    Image.segments_placeAll hload
  rw [hlayout]
  exact
    { layout := rfl
      code := fun _ _ hp hc hs => grants_code hsound hp hc hs
      data := fun _ _ hp hc hcode hnone hs => grants_data hsound hp hc hcode hnone hs
      other := fun _ _ hs ha => SegmentMap.grants_iff hs ha
      readOnly := permissionsAt_ofHeaders_ne_readOnly headers }

/-- The instructions and the variable are protected as the file asks. -/
theorem ObjectFile.protects_of_load_constants : ∃ file image,
    ObjectFile.open "prog.elf" (.ok constantFile) = .ok file ∧ file.load = .ok image ∧
    image.segments.Grants codeSegment.permissions 0x400000 ∧
    image.segments.Grants variableSegment.permissions 0x800000 := by
  obtain ⟨file, image, hopen, hheaders, hload⟩ := load_constantFile "prog.elf"
  have h := ObjectFile.protects_of_load hheaders hload
  have hcode : lastLoadable Permissions.isCode constantHeaders = some codeSegment := by rfl
  have hdata : lastLoadable Permissions.isData constantHeaders = some variableSegment := by rfl
  refine ⟨file, image, hopen, hload, h.code _ _ hcode (by decide) (by rfl),
    h.data _ _ hdata (by decide) (fun q hq => ?_) (fun hnone => ?_) (by rfl)⟩
  · obtain rfl := Option.some.inj (hcode.symm.trans hq)
    decide
  · rw [hcode] at hnone
    cases hnone

/-- The eight bytes from `a` on lie in the segment of a loadable header, and no other loadable
segment has one of them. -/
def AloneAt (headers : List ProgramHeader) (p : ProgramHeader) (a : Word) : Prop :=
  ∃ before after, headers = before ++ p :: after ∧ p.kind = loadable ∧ ∀ x, Word.Within a 8 x →
    p.Covers x ∧ ∀ q ∈ before ++ after, q.kind = loadable → ¬ q.Covers x

/-- The constant has a segment of its own, which the file asks to be read, but the text segment ends
before it and the data segment starts behind it: it cannot be read. -/
theorem ObjectFile.unreadable_constants : ∃ file image,
    ObjectFile.open "prog.elf" (.ok constantFile) = .ok file ∧
    file.programHeaders = .ok constantHeaders ∧ file.load = .ok image ∧
    AloneAt constantHeaders constantSegment 0x402000 ∧ isSpecial 0x402000 = false ∧
    (0x402000 : Word).toNat % 8 = 0 ∧ constantSegment.permissions.read = true ∧
    image.segments.checkData 0x402000 .read = .error (.notReadable 0x402000) := by
  obtain ⟨file, image, hopen, hheaders, hload⟩ := load_constantFile "prog.elf"
  have hlayout : image.segments = SegmentMap.default.ofHeaders constantHeaders := by
    rw [load_eq hheaders] at hload
    exact Image.segments_placeAll hload
  have halone : AloneAt constantHeaders constantSegment 0x402000 := by
    refine ⟨[codeSegment], [variableSegment], rfl, rfl, fun x hx => ?_⟩
    rw [Word.within_iff (by decide)] at hx
    refine ⟨hx, fun q hq _ hcovers => ?_⟩
    simp only [List.cons_append, List.nil_append, List.mem_cons, List.not_mem_nil, or_false] at hq
    have hstart : (0x402000 : Word).toNat = 0x402000 := rfl
    obtain rfl | rfl := hq
    · have hstop : x.toNat < 0x400008 := hcovers.2
      omega
    · have hfrom : 0x800000 ≤ x.toNat := hcovers.1
      omega
  refine ⟨file, image, hopen, hheaders, hload, halone, by rfl, by decide, by rfl, ?_⟩
  rw [hlayout]
  rfl

end FiveStage
