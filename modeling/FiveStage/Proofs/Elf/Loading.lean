import FiveStage.Program.Session
import FiveStage.Proofs.Memory.Bytes

/-!
# What loading leaves in memory

* `ProgramHeader.Sound`, `ProgramHeader.Offends` : what `ProgramHeader.check` decides;
  `ProgramHeader.NoOverflow` : no address of a sound segment wraps;
* `lastCovering`, `ProgramHeader.Supplies` : the segment that an address belongs to, and the byte
  that it gives it;
* `Image.byte_place` : one segment; `Image.byte_placeAll` : all of them, in order;
* `Image.placeAll_ok_iff`, `Image.placeAll_error_iff` : which tables are loaded, and the error of
  the others;
* `ObjectFile.loads_segments` : the whole loader, from memory without any byte to the entry point.
-/

namespace FiveStage

namespace ProgramHeader

/-- The segment ends within the address space, takes no more bytes from the file than it has in
memory, and the file has them. -/
def Sound (p : ProgramHeader) (file : Array Byte) : Prop :=
  p.address.toNat + p.memorySize < 2 ^ 64 ∧ p.fileSize ≤ p.memorySize ∧
    p.offset + p.fileSize ≤ file.size

instance (p : ProgramHeader) (file : Array Byte) : Decidable (p.Sound file) :=
  inferInstanceAs (Decidable (_ ∧ _))

/-- The first thing that is wrong with a header. -/
inductive Offends (p : ProgramHeader) (file : Array Byte) : ElfError → Prop where
  | outOfBounds (h : 2 ^ 64 ≤ p.address.toNat + p.memorySize) :
    Offends p file (.outOfBounds p.address)
  | tooManyBytes (hend : p.address.toNat + p.memorySize < 2 ^ 64) (h : p.memorySize < p.fileSize) :
    Offends p file (.tooManyBytes p.address p.fileSize p.memorySize)
  | outsideFile (hend : p.address.toNat + p.memorySize < 2 ^ 64) (hsize : p.fileSize ≤ p.memorySize)
      (h : file.size < p.offset + p.fileSize) :
    Offends p file (.outsideFile p.address)

/-- The segment has a byte at `a`. -/
def Covers (p : ProgramHeader) (a : Word) : Prop :=
  p.address.toNat ≤ a.toNat ∧ a.toNat < p.address.toNat + p.memorySize

instance (p : ProgramHeader) (a : Word) : Decidable (p.Covers a) :=
  inferInstanceAs (Decidable (_ ∧ _))

/-- `v` is what the segment has at `a`: a byte of the file, or zero behind the last of them. -/
def Supplies (p : ProgramHeader) (file : Array Byte) (a : Word) (v : Byte) : Prop :=
  if a.toNat - p.address.toNat < p.fileSize then
    file[p.offset + (a.toNat - p.address.toNat)]? = some v
  else v = 0

/-- The sums of 64-bit numbers that loading a segment takes are those of the numbers. -/
structure NoOverflow (p : ProgramHeader) : Prop where
  sizes : p.fileSize < 2 ^ 64 ∧ p.memorySize < 2 ^ 64
  stop : p.stop.toNat = p.address.toNat + p.memorySize
  zeros : (p.address + BitVec.ofNat 64 p.fileSize).toNat = p.address.toNat + p.fileSize
  bytes : ∀ i < p.memorySize, (p.address + BitVec.ofNat 64 i).toNat = p.address.toNat + i

variable {p : ProgramHeader} {file : Array Byte}

theorem Sound.check (h : p.Sound file) : p.check file = .ok () := by
  obtain ⟨hend, hsize, hfile⟩ := h
  rw [ProgramHeader.check, if_neg (by omega), if_neg (by omega), if_neg (by omega)]

theorem Offends.check {e : ElfError} (h : p.Offends file e) : p.check file = .error e := by
  cases h with
  | outOfBounds hend => rw [ProgramHeader.check, if_pos hend]
  | tooManyBytes hend hsize => rw [ProgramHeader.check, if_neg (by omega), if_pos hsize]
  | outsideFile hend hsize hfile =>
    rw [ProgramHeader.check, if_neg (by omega), if_neg (by omega), if_pos hfile]

theorem exists_offends (h : ¬ p.Sound file) : ∃ e, p.Offends file e := by
  by_cases hend : 2 ^ 64 ≤ p.address.toNat + p.memorySize
  · exact ⟨_, .outOfBounds hend⟩
  by_cases hsize : p.memorySize < p.fileSize
  · exact ⟨_, .tooManyBytes (by omega) hsize⟩
  by_cases hfile : file.size < p.offset + p.fileSize
  · exact ⟨_, .outsideFile (by omega) (by omega) hfile⟩
  · exact absurd ⟨by omega, by omega, by omega⟩ h

theorem Sound.noOverflow (h : p.Sound file) : p.NoOverflow := by
  obtain ⟨hend, hsize, -⟩ := h
  have hsum : ∀ i ≤ p.memorySize,
      (p.address + BitVec.ofNat 64 i).toNat = p.address.toNat + i := by
    intro i hi
    rw [BitVec.toNat_add, BitVec.toNat_ofNat, Nat.mod_eq_of_lt (a := i) (by omega),
      Nat.mod_eq_of_lt (by omega)]
  exact ⟨⟨by omega, by omega⟩, hsum _ (Nat.le_refl _), hsum _ hsize,
    fun i hi => hsum i (Nat.le_of_lt hi)⟩

/-! ## One segment -/

theorem covers_iff_within (h : p.Sound file) (a : Word) :
    p.Covers a ↔ Word.Within p.address p.memorySize a :=
  (Word.within_iff (Nat.le_of_lt h.1) a).symm

theorem length_contents (h : p.Sound file) : (p.contents file).length = p.memorySize := by
  obtain ⟨-, hsize, hfile⟩ := h
  rw [contents, List.length_append, Array.length_toList, Array.size_extract, List.length_replicate]
  omega

/-- The byte of a segment at a distance from its first one. -/
theorem getElem?_contents (h : p.Sound file) {i : Nat} (hi : i < p.memorySize) :
    (p.contents file)[i]? = if i < p.fileSize then file[p.offset + i]? else some 0 := by
  obtain ⟨-, hsize, hfile⟩ := h
  have hlen : (file.extract p.offset (p.offset + p.fileSize)).size = p.fileSize := by
    rw [Array.size_extract]
    omega
  by_cases hlt : i < p.fileSize
  · rw [if_pos hlt, contents, List.getElem?_append_left (by rw [Array.length_toList]; omega),
      Array.getElem?_toList, Array.getElem?_extract, if_pos (by omega)]
  · rw [if_neg hlt, contents, List.getElem?_append_right (by rw [Array.length_toList]; omega),
      Array.length_toList, hlen, List.getElem?_replicate_of_lt (by omega)]

end ProgramHeader

open ProgramHeader

namespace Image

variable {p : ProgramHeader} {headers : List ProgramHeader} {file : Array Byte} {image : Image}

/-- A segment decides the bytes it covers, whatever was there before, and no others. -/
theorem byte_place (h : p.Sound file) (image : Image) (a : Word) :
    if p.Covers a then p.Supplies file a ((image.place p file).memory.byte a)
    else (image.place p file).memory.byte a = image.memory.byte a := by
  have hlen := length_contents h
  have hwrite : (image.place p file).memory.byte a =
      (p.contents file)[(a - p.address).toNat]?.getD (image.memory.byte a) :=
    Memory.byte_writeBytes _ _ _ (by have := h.1; omega) a
  rw [hwrite]
  by_cases hc : p.Covers a
  · have hin := (covers_iff_within h a).1 hc
    rw [if_pos hc, getElem?_contents h hin, Word.toNat_sub_of_within (Nat.le_of_lt h.1) hin,
      Supplies]
    by_cases hlt : a.toNat - p.address.toNat < p.fileSize
    · have hfile : p.offset + (a.toNat - p.address.toNat) < file.size := by
        have := h.2.2
        omega
      rw [if_pos hlt, if_pos hlt, Array.getElem?_eq_getElem hfile, Option.getD_some]
    · rw [if_neg hlt, if_neg hlt, Option.getD_some]
  · have hout := mt (covers_iff_within h a).2 hc
    rw [Word.Within] at hout
    rw [if_neg hc, List.getElem?_eq_none (by omega), Option.getD_none]

/-! ## All segments -/

theorem placeAll_skip (hk : p.kind ≠ loadable) :
    placeAll file (p :: headers) image = placeAll file headers image := by
  rw [placeAll, if_neg hk]

theorem placeAll_sound (hk : p.kind = loadable) (h : p.Sound file) :
    placeAll file (p :: headers) image = placeAll file headers (image.place p file) := by
  rw [placeAll, if_pos hk, h.check]

theorem placeAll_offends {e : ElfError} (hk : p.kind = loadable) (h : p.Offends file e) :
    placeAll file (p :: headers) image = .error e := by
  rw [placeAll, if_pos hk, h.check]

end Image

/-- The last loadable segment with a byte at `a`. -/
def lastCovering (headers : List ProgramHeader) (a : Word) : Option ProgramHeader :=
  headers.reverse.find? fun p => p.kind = loadable ∧ p.Covers a

/-- The first loadable header that is not sound. -/
def firstUnsound (file : Array Byte) (headers : List ProgramHeader) : Option ProgramHeader :=
  headers.find? fun p => p.kind = loadable ∧ ¬ p.Sound file

/-- With one more element in front, the last one with a property is that of the rest, if any. -/
theorem find?_reverse_cons {α : Type} (f : α → Bool) (x : α) (xs : List α) :
    (x :: xs).reverse.find? f = (xs.reverse.find? f).or (if f x = true then some x else none) := by
  rw [List.reverse_cons, List.find?_append, List.find?_singleton]

theorem lastCovering_cons (p : ProgramHeader) (headers : List ProgramHeader) (a : Word) :
    lastCovering (p :: headers) a =
      (lastCovering headers a).or (if p.kind = loadable ∧ p.Covers a then some p else none) := by
  rw [lastCovering, find?_reverse_cons]
  simp only [decide_eq_true_eq]
  rfl

theorem firstUnsound_eq_none_iff {file : Array Byte} {headers : List ProgramHeader} :
    firstUnsound file headers = none ↔ ∀ p ∈ headers, p.kind = loadable → p.Sound file := by
  simp [firstUnsound, List.find?_eq_none]

theorem not_sound_of_firstUnsound {file : Array Byte} {headers : List ProgramHeader}
    {p : ProgramHeader} (h : firstUnsound file headers = some p) : ¬ p.Sound file := by
  have hp := List.find?_some h
  rw [decide_eq_true_eq] at hp
  exact hp.2

namespace Image

variable {headers : List ProgramHeader} {file : Array Byte}

theorem placeAll_of_sound (h : ∀ p ∈ headers, p.kind = loadable → p.Sound file) (image : Image) :
    ∃ loaded, placeAll file headers image = .ok loaded := by
  induction headers generalizing image with
  | nil => exact ⟨image, rfl⟩
  | cons p rest ih =>
    have hrest := fun q hq => h q (List.mem_cons_of_mem p hq)
    by_cases hk : p.kind = loadable
    · rw [placeAll_sound hk (h p List.mem_cons_self hk)]
      exact ih hrest _
    · rw [placeAll_skip hk]
      exact ih hrest _

theorem placeAll_of_unsound {p : ProgramHeader} {e : ElfError}
    (hp : firstUnsound file headers = some p) (h : p.Offends file e) (image : Image) :
    placeAll file headers image = .error e := by
  induction headers generalizing image with
  | nil => cases hp
  | cons q rest ih =>
    rw [firstUnsound, List.find?_cons] at hp
    by_cases hk : q.kind = loadable
    · by_cases hs : q.Sound file
      · rw [placeAll_sound hk hs]
        rw [decide_eq_false (fun hq => hq.2 hs)] at hp
        exact ih hp _
      · rw [decide_eq_true ⟨hk, hs⟩] at hp
        obtain rfl := Option.some.inj hp
        exact placeAll_offends hk h
    · rw [placeAll_skip hk]
      rw [decide_eq_false (fun hq => hk hq.1)] at hp
      exact ih hp _

theorem placeAll_cases (file : Array Byte) (headers : List ProgramHeader) (image : Image) :
    ((∀ p ∈ headers, p.kind = loadable → p.Sound file) ∧
      ∃ loaded, placeAll file headers image = .ok loaded) ∨
    ∃ p e, firstUnsound file headers = some p ∧ p.Offends file e ∧
      placeAll file headers image = .error e := by
  cases hp : firstUnsound file headers with
  | none =>
    have h := firstUnsound_eq_none_iff.1 hp
    exact .inl ⟨h, placeAll_of_sound h image⟩
  | some p =>
    obtain ⟨e, he⟩ := exists_offends (not_sound_of_firstUnsound hp)
    exact .inr ⟨p, e, rfl, he, placeAll_of_unsound hp he image⟩

/-- The loadable segments are all placed exactly if all of them are sound. -/
theorem placeAll_ok_iff (image : Image) : (∃ loaded, placeAll file headers image = .ok loaded) ↔
    ∀ p ∈ headers, p.kind = loadable → p.Sound file := by
  constructor
  · rintro ⟨loaded, hl⟩
    obtain ⟨h, -⟩ | ⟨p, e, -, -, he⟩ := placeAll_cases file headers image
    · exact h
    · rw [he] at hl
      cases hl
  · exact fun h => placeAll_of_sound h image

/-- The error is the one that the first unsound header makes. -/
theorem placeAll_error_iff (image : Image) {e : ElfError} :
    placeAll file headers image = .error e ↔
      ∃ p, firstUnsound file headers = some p ∧ p.Offends file e := by
  constructor
  · intro he
    obtain ⟨-, loaded, hl⟩ | ⟨p, e', hp, hoffends, he'⟩ := placeAll_cases file headers image
    · rw [hl] at he
      cases he
    · rw [he'] at he
      obtain rfl := Except.error.inj he
      exact ⟨p, hp, hoffends⟩
  · rintro ⟨p, hp, he⟩
    exact placeAll_of_unsound hp he image

/-- Where segments overlap the last one decides. -/
theorem byte_placeAll {image loaded : Image} (h : placeAll file headers image = .ok loaded)
    (a : Word) :
    match lastCovering headers a with
    | some p => p.Supplies file a (loaded.memory.byte a)
    | none => loaded.memory.byte a = image.memory.byte a := by
  -- what the rest of the table leaves alone is as the first header has left it
  induction headers generalizing image with
  | nil =>
    obtain rfl := Except.ok.inj h
    rfl
  | cons p rest ih =>
    rw [lastCovering_cons]
    by_cases hk : p.kind = loadable
    · have hs : p.Sound file := (placeAll_ok_iff image).1 ⟨loaded, h⟩ p List.mem_cons_self hk
      rw [placeAll_sound hk hs] at h
      have hrest := ih h
      cases hl : lastCovering rest a with
      | some q =>
        rw [hl] at hrest
        exact hrest
      | none =>
        have hplace := byte_place hs image a
        rw [hl] at hrest
        rw [← show loaded.memory.byte a = _ from hrest] at hplace
        rw [Option.none_or]
        by_cases hc : p.Covers a
        · rw [if_pos hc] at hplace
          rw [if_pos ⟨hk, hc⟩]
          exact hplace
        · rw [if_neg hc] at hplace
          rw [if_neg (fun hp => hc hp.2)]
          exact hplace
    · rw [placeAll_skip hk] at h
      rw [if_neg (fun hp => hk hp.1), Option.or_none]
      exact ih h

end Image

/-! ## The loader -/

/-- What becomes of a file with some program headers: it is loaded if all its segments are sound,
and then memory holds what the last segment over each address supplies; else its first unsound
segment is the reason for the refusal. -/
structure Loads (file : Array Byte) (headers : List ProgramHeader)
    (result : Except ElfError Image) : Prop where
  accepted : (∃ image, result = .ok image) ↔ ∀ p ∈ headers, p.kind = loadable → p.Sound file
  refused : ∀ e, result = .error e ↔
    ∃ p, firstUnsound file headers = some p ∧ p.Offends file e
  bytes : ∀ image, result = .ok image → ∀ a,
    match lastCovering headers a with
    | some p => p.Supplies file a (image.memory.byte a)
    | none => image.memory.byte a = 0

theorem Image.loads_placeAll (file : Array Byte) (headers : List ProgramHeader)
    (map : SegmentMap) : Loads file headers (placeAll file headers ⟨.empty, map⟩) where
  accepted := placeAll_ok_iff _
  refused _ := placeAll_error_iff _
  bytes _ h a := by
    have hb := byte_placeAll h a
    rwa [Memory.byte_empty] at hb

theorem ObjectFile.load_eq {f : ObjectFile} {headers : List ProgramHeader}
    (h : f.programHeaders = .ok headers) : f.load = Image.placeAll f.bytes headers .empty := by
  rw [load, h]

/-- The machine that is prepared holds the image of the file and is pointed at its entry. -/
theorem prepare_of_open {path : String} {contents : Except FileError (Array Byte)} {f : ObjectFile}
    (h : ObjectFile.open path contents = .ok f) (settings : Settings) :
    (prepare path contents settings).1 = f.load.map fun image =>
      Simulation.start f.header.entry (Bus.start image.memory image.segments settings.geometry)
        settings.backend settings.limit := by
  rw [prepare, h]
  dsimp only
  cases f.load <;> rfl

/-- Loading refuses a file for its first unsound segment; and if there is none, leaves in memory
what the last segment over each address supplies and zeros elsewhere, without a sum that overflows,
and enters the program where the header says. -/
theorem ObjectFile.loads_segments (file : Array Byte) (headers : List ProgramHeader) :
    (∀ map, Loads file headers (Image.placeAll file headers ⟨.empty, map⟩)) ∧
    (∀ p ∈ headers, p.Sound file → p.NoOverflow) ∧
    ∀ f : ObjectFile, f.bytes = file → f.programHeaders = .ok headers →
      Loads file headers f.load ∧
      ∀ path settings, ObjectFile.open path (.ok file) = .ok f →
        (prepare path (.ok file) settings).1 = f.load.map fun image =>
          Simulation.start f.header.entry (Bus.start image.memory image.segments settings.geometry)
            settings.backend settings.limit := by
  refine ⟨Image.loads_placeAll file headers, fun p _ h => h.noOverflow, ?_⟩
  rintro f rfl hheaders
  constructor
  · rw [load_eq hheaders]
    exact Image.loads_placeAll f.bytes headers _
  · exact fun path settings hopen => prepare_of_open hopen settings

end FiveStage
