import FiveStage.Bits.Field

/-!
# Files written a buffer at a time

* `Spool` : bytes on their way to a file, and those that have arrived;
* `Spool.push`, `Spool.pushAll` : adds bytes, a piece at a time;
* `Spool.all_push`, `Spool.all_pushAll` : nothing is lost and nothing is reordered.
-/

namespace FiveStage

/-- Bytes on their way to a file. -/
structure Spool where
  /-- What the file has. -/
  stored : Array Byte
  /-- What waits in the buffer. -/
  waiting : Array Byte
  deriving DecidableEq

namespace Spool

/-- How many bytes the buffer holds. -/
def room : Nat := 8192

/-- Nothing stored and nothing waiting. -/
def empty : Spool := ⟨#[], #[]⟩

/-- Everything, stored or waiting. -/
def all (s : Spool) : Array Byte := s.stored ++ s.waiting

/-- Adds bytes that stay together. What waits goes to the file first if there is no room for them
beside it. -/
def push (s : Spool) (piece : Array Byte) : Spool :=
  if room < s.waiting.size + piece.size then ⟨s.all, piece⟩
  else { s with waiting := s.waiting ++ piece }

/-- Adds pieces one after the other. -/
def pushAll (s : Spool) (pieces : List (Array Byte)) : Spool := pieces.foldl push s

theorem all_push (s : Spool) (piece : Array Byte) : (s.push piece).all = s.all ++ piece := by
  rw [push]
  split
  · rfl
  · rw [all, all, Array.append_assoc]

theorem all_pushAll (s : Spool) (pieces : List (Array Byte)) :
    (s.pushAll pieces).all = pieces.foldl (· ++ ·) s.all := by
  induction pieces generalizing s with
  | nil => rfl
  | cons piece rest ih => rw [pushAll, List.foldl_cons, List.foldl_cons, ← all_push, ← ih, pushAll]

end Spool

end FiveStage
