import FiveStage.Text.Invisible
import FiveStage.Text.Numeral

/-!
# Quoted text

* `spelled` : how a character stands in a quoted text;
* `quoted` : a text between double quotes, with what cannot be shown spelled out.
-/

namespace FiveStage

/-- A character by its number. -/
def numbered (c : Char) : String := "\\u\x7b" ++ hexadecimal c.toNat ++ "\x7d"

/-- How a character stands in a quoted text. -/
def spelled (c : Char) : String :=
  match c with
  | '\x00' => "\\0"
  | '\t' => "\\t"
  | '\r' => "\\r"
  | '\n' => "\\n"
  | '\\' => "\\\\"
  | '"' => "\\\""
  | c => if isInvisible c then numbered c else c.toString

/-- A text between double quotes. -/
def quoted (s : String) : String := "\"" ++ String.join (s.toList.map spelled) ++ "\""

end FiveStage
