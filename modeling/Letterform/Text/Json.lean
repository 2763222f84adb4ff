import Letterform.Number.DecimalText
import Letterform.Number.Hexadecimal

/-!
JSON objects on one line. Whole numbers are written as integers, and only quotation marks,
backslashes and control characters are escaped.
-/

namespace Letterform

inductive JsonScalar
  | integer (value : Int)
  | real (value : Float)
  | text (value : String)

namespace JsonScalar

/-- A whole number that fits in 64 bits becomes an integer. -/
def ofFloat (value : Float) : JsonScalar :=
  if value.floor == value && value.abs < 9223372036854775808 then .integer value.toInt64.toInt
  else .real value

def escape? (character : Char) : Option String :=
  match character with
  | '\x22' => some "\\\x22"
  | '\\' => some "\\\\"
  | '\x08' => some "\\b"
  | '\t' => some "\\t"
  | '\n' => some "\\n"
  | '\x0c' => some "\\f"
  | '\r' => some "\\r"
  | _ => if character.toNat < 0x20 then some ("\\u" ++ hexPadded 4 character.toNat) else none

def quote (text : String) : String :=
  "\x22" ++ String.join (text.toList.map fun character =>
    (escape? character).getD character.toString) ++ "\x22"

def encode : JsonScalar → String
  | .integer value => toString value
  | .real value => NumberStyle.json.text value
  | .text value => quote value

end JsonScalar

def jsonObject (fields : List (String × JsonScalar)) : String :=
  "\x7b" ++ ",".intercalate (fields.map fun (name, value) =>
    JsonScalar.quote name ++ ":" ++ value.encode) ++ "\x7d"

end Letterform
