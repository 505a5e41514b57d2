import Reactor.Text.Printable

/-!
# Quoted text

Text between quotes on one line: quotes, backslashes, line ends, tabs and the character zero are
written with a backslash, and what cannot be shown is written by its number.
-/

namespace Reactor.Text

def hexDigits (code : Nat) : String :=
  String.ofList (Nat.toDigits 16 code)

def quotedChar (character : Char) : String :=
  match character with
  | '\x00' => "\\0"
  | '\t' => "\\t"
  | '\n' => "\\n"
  | '\x0d' => "\\r"
  | '"' => "\\\""
  | '\\' => "\\\\"
  | other =>
    if isPrintable other then other.toString
    else "\\u\x7b" ++ hexDigits other.toNat ++ "\x7d"

def quoted (text : String) : String :=
  "\"" ++ "".intercalate (text.toList.map quotedChar) ++ "\""

end Reactor.Text
