import FiveStage.Pipeline.Simulation

/-!
# Checkpoints

* `Checkpoint` : what a checkpoint shows of a machine, `Checkpoint.ofSimulation`;
* `Checkpoint.text` : the state of the machine as text: the core, the nonzero doublewords of each
  segment as the program sees them, and what the cache counted.
-/

namespace FiveStage

/-- What a checkpoint shows. -/
structure Checkpoint where
  cycles : Nat
  core : Core
  /-- The nonzero doublewords of a segment, in the order they are shown. -/
  wordsOf : SegmentKind → List (Word × Word)
  cache : Option CacheCounters

namespace Checkpoint

/-- The nonzero doublewords of a segment by address, those of the stack from the top. -/
def segmentWords (map : SegmentMap) (words : List (Word × Word)) (kind : SegmentKind) :
    List (Word × Word) :=
  let own := words.filter fun (a, _) => map.find a = some kind
  if kind = .stack then own.reverse else own

/-- What a checkpoint shows of a machine. -/
def ofSimulation (s : Simulation) : Checkpoint :=
  let words := s.bus.coherent.populatedWords
  { cycles := s.counters.cycles
    core := s.core
    wordsOf := segmentWords s.bus.segments words
    cache := s.bus.counters }

/-! ## Text -/

/-- One general register. -/
def registerLine (i : Nat) (v : Word) : String :=
  "\t\t\tRegister X" ++ decimal i ++ ": " ++ hexadecimal v.toNat ++ "\n"

/-- One doubleword. -/
def wordLine (w : Word × Word) : String :=
  "\t\t\tAddress " ++ w.1.hex ++ ": " ++ w.2.hex ++ "\n"

/-- The state of the core. -/
def coreText (c : Core) : String :=
  "\tProcessor state:\n" ++
  "\t\tProgram Counter: " ++ hexadecimal c.pc.toNat ++ "\n" ++
  "\t\tStack Pointer: " ++ hexadecimal c.registers.sp.toNat ++ "\n" ++
  "\t\tCondition Flags: " ++ c.flags.text ++ "\n" ++
  "\t\tGeneral Purpose Register File state:\n" ++
  String.join (c.registers.general.zipIdx.map fun (v, i) => registerLine i v) ++
  "\t\tStatus: " ++ c.status.text ++ "\n"

/-- One segment under its title. -/
def segmentText (title : String) (words : List (Word × Word)) : String :=
  "\t\t" ++ title ++ ":\n" ++ String.join (words.map wordLine)

/-- What the cache counted. -/
def cacheText (n : CacheCounters) : String :=
  "\tCache state:\n" ++
  "\t\tNumber of cache hits, misses: " ++ decimal n.hits ++ ", " ++ decimal n.misses ++ "\n" ++
  "\t\tNumber of dirty, clean evictions: " ++ decimal n.dirtyEvictions ++ ", " ++
  decimal n.cleanEvictions ++ "\n"

/-- A checkpoint as text. -/
def text (c : Checkpoint) : String :=
  "Machine state checkpoint after " ++ decimal c.cycles ++ " cycles:\n" ++
  coreText c.core ++
  "\tMemory state:\n" ++
  segmentText "Text segment" (c.wordsOf .text) ++
  segmentText "Data segment" (c.wordsOf .data) ++
  segmentText "Heap" (c.wordsOf .heap) ++
  segmentText "Stack" (c.wordsOf .stack) ++
  (match c.cache with
    | some n => cacheText n
    | none => "") ++
  "\n"

end Checkpoint

namespace Simulation

/-- The text of a machine's checkpoint. -/
def checkpoint (s : Simulation) : String := (Checkpoint.ofSimulation s).text

end Simulation

end FiveStage
