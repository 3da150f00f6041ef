import SchemaTables.Text.Unicode.GraphemeExtend
import SchemaTables.Text.Unicode.Hidden

/-!
Texts as they are shown inside a message: between double quotes, with a backslash before what would
end the quotation and every character that has no visible form of its own written by its number.
-/

namespace SchemaTables.Text

def hexDigits (n : Nat) : String := String.ofList (Nat.toDigits 16 n)

/-- How one character stands inside a quotation. -/
def quotedChar (c : Char) : String :=
  match c with
  | '\x00' => "\\0"
  | '\t' => "\\t"
  | '\r' => "\\r"
  | '\n' => "\\n"
  | '\\' => "\\\\"
  | '"' => "\\\""
  | c =>
    if c.toNat < 128 then
      if 32 ≤ c.toNat && c.toNat < 127 then c.toString else "\\u\x7b" ++ hexDigits c.toNat ++ "\x7d"
    else if Unicode.graphemeExtend.contains c || Unicode.hidden.contains c then
      "\\u\x7b" ++ hexDigits c.toNat ++ "\x7d"
    else c.toString

def quoted (s : String) : String :=
  "\"" ++ String.join (s.toList.map quotedChar) ++ "\""

end SchemaTables.Text
