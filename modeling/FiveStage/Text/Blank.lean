/-!
# Blank characters

* `blankRanges`, `isBlank` : the white space of Unicode;
* `words` : the pieces of a text between blanks;
* `textLines` : the pieces of a text between line feeds.
-/

namespace FiveStage

/-- First and last code point of each range of white space. -/
def blankRanges : List (Nat × Nat) :=
  [(0x09, 0x0D), (0x20, 0x20), (0x85, 0x85), (0xA0, 0xA0), (0x1680, 0x1680), (0x2000, 0x200A),
    (0x2028, 0x2029), (0x202F, 0x202F), (0x205F, 0x205F), (0x3000, 0x3000)]

/-- Whether a character is white space. -/
def isBlank (c : Char) : Bool :=
  blankRanges.any fun (first, last) => first ≤ c.toNat && c.toNat ≤ last

/-- The pieces between the characters that `cut` holds of, empty ones included. -/
def pieces (cut : Char → Bool) : List Char → List (List Char)
  | [] => [[]]
  | c :: rest =>
    if cut c then [] :: pieces cut rest
    else
      match pieces cut rest with
      | [] => [[c]]
      | piece :: more => (c :: piece) :: more

/-- The words of a text. -/
def words (cs : List Char) : List (List Char) := (pieces isBlank cs).filter (· ≠ [])

/-- The lines of a text. What follows the last line feed is a line too, even an empty one. -/
def textLines (cs : List Char) : List (List Char) := pieces (· == '\n') cs

end FiveStage
