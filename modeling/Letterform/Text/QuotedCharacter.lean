import Letterform.Number.Hexadecimal
import Letterform.Text.Shapeless

/-!
Characters in single quotes. Those that could not be told apart in print are escaped.
-/

namespace Letterform

def quoteCharacter (character : Char) : String :=
  let body := match character with
    | '\x00' => "\\0"
    | '\t' => "\\t"
    | '\n' => "\\n"
    | '\r' => "\\r"
    | '\x27' => "\\\x27"
    | '\\' => "\\\\"
    | _ =>
        if isShapeless character then "\\u\x7b" ++ hexText character.toNat ++ "\x7d"
        else character.toString
  "\x27" ++ body ++ "\x27"

end Letterform
