import FiveStage.Isa.Flags

/-!
# The register file

* `Reg.link`, `Reg.sp`, `Reg.zero` : the register numbers with a role of their own;
* `RegisterFile.read`, `RegisterFile.write` : numbers 0 to 30 name the general registers, 31 the
  stack pointer; every number above reads as zero and drops what is written.
-/

namespace FiveStage

namespace Reg

/-- The register a call leaves its return address in. -/
def link : Nat := 30

/-- The stack pointer. -/
def sp : Nat := 31

/-- The register that is always zero, also the one that unused operand slots name. -/
def zero : Nat := 32

end Reg

/-- The 31 general registers and, last, the stack pointer. -/
structure RegisterFile where
  cells : Vector Word 32
  deriving DecidableEq

namespace RegisterFile

/-- Every register zero. -/
def blank : RegisterFile := ⟨Vector.replicate 32 0⟩

/-- What a register holds. -/
def read (rf : RegisterFile) (r : Nat) : Word :=
  if h : r < 32 then rf.cells[r] else 0

/-- Stores a word in a register. -/
def write (rf : RegisterFile) (r : Nat) (v : Word) : RegisterFile :=
  if h : r < 32 then ⟨rf.cells.set r v⟩ else rf

/-- The stack pointer. -/
def sp (rf : RegisterFile) : Word := rf.read Reg.sp

/-- The general registers in order. -/
def general (rf : RegisterFile) : List Word := (List.range 31).map rf.read

/-! ## Reading what was written -/

theorem read_blank (r : Nat) : blank.read r = 0 := by
  simp [read, blank]

theorem read_write (rf : RegisterFile) (r s : Nat) (v : Word) :
    (rf.write r v).read s = if r = s ∧ r < 32 then v else rf.read s := by
  by_cases hr : r < 32
  · by_cases hs : s < 32
    · simp [read, write, hr, hs, Vector.getElem_set]
    · have : r ≠ s := by omega
      simp [read, hr, hs, this]
  · simp [write, hr]

/-- Two register files that read alike are the same. -/
theorem ext_read {rf rg : RegisterFile} (h : ∀ r, rf.read r = rg.read r) : rf = rg := by
  obtain ⟨a⟩ := rf
  obtain ⟨b⟩ := rg
  congr 1
  apply Vector.ext
  intro i hi
  simpa [read, hi] using h i

end RegisterFile

end FiveStage
