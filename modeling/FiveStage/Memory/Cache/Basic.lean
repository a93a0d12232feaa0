import FiveStage.Memory.Cache.Geometry
import FiveStage.Memory.Segment
import FiveStage.Bits.Bytes

/-!
# A set-associative write-back cache

* `CacheLine`, `Cache` : lines with a stamp of their last use, in ways and sets;
* `Cache.way?` : the way that holds an address, `Cache.victim` : the way a miss replaces;
* `Cache.modifyLine` : changes one line where it stands;
* `Cache.probe` : looks an address up and counts the hit or miss;
* `Cache.fill` : brings a block in and hands back what it displaced;
* `Cache.readWord?`, `Cache.writeWord?` : the doubleword at an address, if its block is present;
* `Cache.dirtyLines` : what memory does not know yet.
-/

namespace FiveStage

/-- One block of a cache. -/
structure CacheLine (g : Geometry) where
  valid : Bool
  dirty : Bool
  tag : Word
  /-- When the line was used last; larger is later. -/
  stamp : Nat
  data : Vector Byte g.blockSize
  deriving DecidableEq

/-- The line that holds nothing. -/
def CacheLine.empty (g : Geometry) : CacheLine g := ⟨false, false, 0, 0, Vector.replicate _ 0⟩

/-- How often a cache found what it was asked for, and what it threw out. -/
structure CacheCounters where
  hits : Nat
  misses : Nat
  dirtyEvictions : Nat
  cleanEvictions : Nat
  deriving DecidableEq, Repr, Inhabited

/-- The lines of one set. -/
abbrev CacheSet (g : Geometry) := Vector (CacheLine g) g.ways

/-- A cache of a given geometry. -/
structure Cache (g : Geometry) where
  sets : Vector (CacheSet g) g.setCount
  counters : CacheCounters
  /-- The latest stamp given out. -/
  clock : Nat
  deriving DecidableEq

/-- What a fill threw out. -/
structure Evicted (g : Geometry) where
  address : Word
  dirty : Bool
  valid : Bool
  data : Vector Byte g.blockSize
  deriving DecidableEq

namespace Cache

variable {g : Geometry}

/-- A cache in which no line is valid. -/
def empty (g : Geometry) : Cache g where
  sets := Vector.replicate _ (Vector.replicate _ (CacheLine.empty g))
  counters := ⟨0, 0, 0, 0⟩
  clock := 0

/-- The line in a way of a set. -/
def line (c : Cache g) (i : Fin g.setCount) (w : Fin g.ways) : CacheLine g := c.sets[i][w]

/-- Changes one element of a vector. -/
private def modifyAt {α : Type} {n : Nat} (v : Vector α n) (i : Fin n) (f : α → α) : Vector α n :=
  ⟨v.toArray.modify i f, by rw [Array.size_modify, v.size_toArray]⟩

private theorem getElem_modifyAt {α : Type} {n : Nat} (v : Vector α n) (i j : Fin n) (f : α → α) :
    (modifyAt v i f)[j] = if i = j then f v[i] else v[j] := by
  obtain ⟨a, rfl⟩ := v
  simp only [modifyAt, Fin.getElem_fin, Vector.getElem_mk, Array.getElem_modify, Fin.ext_iff]
  split
  · simp_all
  · rfl

/-- Changes the line in a way of a set. -/
def modifyLine (c : Cache g) (i : Fin g.setCount) (w : Fin g.ways)
    (f : CacheLine g → CacheLine g) : Cache g :=
  { c with sets := modifyAt c.sets i fun set => modifyAt set w f }

theorem line_modifyLine (c : Cache g) (i j : Fin g.setCount) (w v : Fin g.ways)
    (f : CacheLine g → CacheLine g) :
    (c.modifyLine i w f).line j v = if i = j ∧ w = v then f (c.line i w) else c.line j v := by
  simp only [line, modifyLine, getElem_modifyAt]
  by_cases hi : i = j
  · subst hi
    simp only [true_and, if_true, getElem_modifyAt]
  · simp only [hi, false_and, if_false]

/-- The first way of a set whose line has a tag. -/
def wayOfTag? (c : Cache g) (i : Fin g.setCount) (tag : Word) : Option (Fin g.ways) :=
  c.sets[i].findFinIdx? fun l => l.valid && l.tag == tag

/-- The way that holds an address. -/
def way? (c : Cache g) (a : Word) : Option (Fin g.ways) := c.wayOfTag? (g.index a) (g.tag a)

/-- The line that holds an address. -/
def lineOf? (c : Cache g) (a : Word) : Option (CacheLine g) := (c.way? a).map (c.line (g.index a))

/-- The way with the smallest stamp, the lowest one of several. -/
def oldestWay (c : Cache g) (i : Fin g.setCount) : Fin g.ways :=
  Fin.foldl g.ways
    (fun best w => if (c.line i w).stamp < (c.line i best).stamp then w else best)
    ⟨0, g.ways_pos⟩

/-- The way a miss replaces: the first that is not valid, else the least recently used. -/
def victim (c : Cache g) (i : Fin g.setCount) : Fin g.ways :=
  (c.sets[i].findFinIdx? fun l => !l.valid).getD (c.oldestWay i)

/-- Stamps a line as used now. -/
def touch (c : Cache g) (i : Fin g.setCount) (w : Fin g.ways) : Cache g :=
  let now := c.clock + 1
  { c.modifyLine i w fun l => { l with stamp := now } with clock := now }

/-- Looks an address up and counts a hit or a miss. A hit is a use, and a write makes the line
dirty. -/
def probe (c : Cache g) (a : Word) (kind : AccessKind) : Bool × Cache g :=
  match c.way? a with
  | some w =>
    let i := g.index a
    let used := { c with counters.hits := c.counters.hits + 1 }.touch i w
    (true, used.modifyLine i w fun l => { l with dirty := l.dirty || kind == .write })
  | none => (false, { c with counters.misses := c.counters.misses + 1 })

/-- Counts what a fill throws out of a line. -/
def countEviction (l : CacheLine g) (n : CacheCounters) : CacheCounters :=
  if l.valid then
    if l.dirty then { n with dirtyEvictions := n.dirtyEvictions + 1 }
    else { n with cleanEvictions := n.cleanEvictions + 1 }
  else n

/-- The bytes of a block: those given, cut or padded with zeros to its size. -/
def blockOf (g : Geometry) (incoming : List Byte) : Vector Byte g.blockSize :=
  ⟨(incoming.take g.blockSize).toArray ++ Array.replicate (g.blockSize - incoming.length) 0, by
    simp only [Array.size_append, List.size_toArray, List.length_take, Array.size_replicate]
    omega⟩

theorem getElem_blockOf (incoming : List Byte) (i : Nat) (hi : i < g.blockSize) :
    (blockOf g incoming)[i] = incoming[i]?.getD 0 := by
  simp only [blockOf, Vector.getElem_mk]
  rw [Array.getElem_append]
  split <;> rename_i h <;> simp only [List.size_toArray, List.length_take] at h
  · simp [show i < incoming.length by omega]
  · simp [show incoming.length ≤ i by omega]

/-- What a line holds, for whoever has to write it back. -/
def evictedFrom (i : Fin g.setCount) (l : CacheLine g) : Evicted g where
  address := g.blockAddress l.tag i
  dirty := l.dirty
  valid := l.valid
  data := l.data

/-- What the block of an address would displace. -/
def displaced (c : Cache g) (a : Word) : Evicted g :=
  evictedFrom (g.index a) (c.line (g.index a) (c.victim (g.index a)))

/-- Brings the block of an address into the victim's way and hands back what was there. -/
def fill (c : Cache g) (a : Word) (kind : AccessKind) (incoming : List Byte) :
    Evicted g × Cache g :=
  let i := g.index a
  let w := c.victim i
  let old := c.line i w
  let new : CacheLine g :=
    { valid := true
      dirty := kind == .write
      tag := g.tag a
      stamp := old.stamp
      data := blockOf g incoming }
  (evictedFrom i old,
    ({ c with counters := countEviction old c.counters }.modifyLine i w fun _ => new).touch i w)

/-- The doubleword at an offset of a block. -/
def wordAt (data : Vector Byte g.blockSize) (offset : Nat) (h : offset + 8 ≤ g.blockSize) : Word :=
  Word.ofBytes fun k => if hk : k < 8 then data.get ⟨offset + k, by omega⟩ else 0

/-- A block with the doubleword at an offset replaced. -/
def setWordAt (data : Vector Byte g.blockSize) (offset : Nat) (v : Word) :
    Vector Byte g.blockSize :=
  Nat.fold 8 (fun k _ d => d.setIfInBounds (offset + k) (v.byte k)) data

theorem getElem_setWordAt (data : Vector Byte g.blockSize) (offset : Nat) (v : Word) (i : Nat)
    (hi : i < g.blockSize) :
    (setWordAt data offset v)[i] =
      if offset ≤ i ∧ i < offset + 8 then v.byte (i - offset) else data[i] := by
  have key : ∀ n, (Nat.fold n (fun k _ d => d.setIfInBounds (offset + k) (v.byte k)) data)[i] =
      if offset ≤ i ∧ i < offset + n then v.byte (i - offset) else data[i] := by
    intro n
    induction n with
    | zero => rw [Nat.fold_zero, if_neg (by omega)]
    | succ n ih =>
      rw [Nat.fold_succ, Vector.getElem_setIfInBounds, ih]
      by_cases h : offset + n = i
      · rw [if_pos h, if_pos (by omega), ← h, Nat.add_sub_cancel_left]
      · rw [if_neg h]
        by_cases hin : offset ≤ i ∧ i < offset + n
        · rw [if_pos hin, if_pos (by omega)]
        · rw [if_neg hin, if_neg (by omega)]
  exact key 8

/-- The doubleword that holds an address, in a way that holds its block. A read is a use. -/
def readIn (c : Cache g) (w : Fin g.ways) (a : Word) : Word × Cache g :=
  let i := g.index a
  (wordAt (c.line i w).data (g.wordOffset a) (g.wordOffset_le a), c.touch i w)

/-- Replaces the doubleword that holds an address, in a way that holds its block. A write is a use
and makes the line dirty. -/
def writeIn (c : Cache g) (w : Fin g.ways) (a v : Word) : Cache g :=
  let i := g.index a
  (c.touch i w).modifyLine i w fun l =>
    { l with dirty := true, data := setWordAt l.data (g.wordOffset a) v }

/-- The doubleword that holds an address, if its block is present. -/
def readWord? (c : Cache g) (a : Word) : Option (Word × Cache g) :=
  (c.way? a).map fun w => c.readIn w a

/-- Replaces the doubleword that holds an address, if its block is present. -/
def writeWord? (c : Cache g) (a v : Word) : Option (Cache g) :=
  (c.way? a).map fun w => c.writeIn w a v

/-- The valid dirty lines, by set and way: the address of each block and its bytes. -/
def dirtyLines (c : Cache g) : List (Word × List Byte) :=
  (List.finRange g.setCount).flatMap fun i =>
    (c.sets[i].toList.filter fun l => l.valid && l.dirty).map fun l =>
      (g.blockAddress l.tag i, l.data.toList)

/-- Misses among all probes, zero before the first. -/
def missRate (c : Cache g) : Float :=
  let total := c.counters.hits + c.counters.misses
  if total = 0 then 0 else c.counters.misses.toFloat / total.toFloat

/-! ## Text -/

private def bit (b : Bool) : String := if b then "1" else "0"

private def wayText (w : Nat) (l : CacheLine g) : String :=
  "  way " ++ decimal w ++ ": valid=" ++ bit l.valid ++ " dirty=" ++ bit l.dirty ++ " tag=" ++
    l.tag.hex ++ " lru=" ++ decimal l.stamp ++ "\n"

/-- One set, a line of text for each way; empty if there is no such set. -/
def setText (c : Cache g) (i : Nat) : String :=
  if h : i < g.setCount then
    "set " ++ decimal i ++ ":\n" ++
      String.join ((c.sets[i].toList.zipIdx).map fun (l, w) => wayText w l)
  else ""

end Cache

end FiveStage
