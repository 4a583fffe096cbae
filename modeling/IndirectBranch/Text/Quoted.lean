import IndirectBranch.Text.Hex
import IndirectBranch.Text.Visible

/-! Text in double quotes, as messages show names and values taken from the input. -/
namespace IndirectBranch.Text

/-- A character with no visible form of its own is shown by number. -/
def quotedChar (c : Char) : String :=
  match c with
  | '\x00' => "\\0"
  | '\t' => "\\t"
  | '\r' => "\\r"
  | '\n' => "\\n"
  | '"' => "\\\""
  | '\\' => "\\\\"
  | c => if isVisible c then c.toString else "\\u\x7b" ++ hexDigits c.toNat ++ "\x7d"

def quoted (s : String) : String := "\"" ++ String.join (s.toList.map quotedChar) ++ "\""

end IndirectBranch.Text
