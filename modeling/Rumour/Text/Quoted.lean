import Rumour.Text.Visible

set_option autoImplicit false

/-!
Quoted texts. Double quotes and backslashes get a backslash, the common controls their letter, and every
other character without a glyph of its own its number in braces. A list of texts stands in brackets.
-/

namespace Rumour.Text

/-- A number in lower-case hexadecimal between braces. -/
def numbered (character : Char) : List Char :=
  "\\u\x7b".toList ++ Nat.toDigits 16 character.toNat ++ "\x7d".toList

def quoteChar (character : Char) : List Char :=
  match character with
  | '"' => ['\\', '"']
  | '\\' => ['\\', '\\']
  | '\n' => ['\\', 'n']
  | '\r' => ['\\', 'r']
  | '\t' => ['\\', 't']
  | '\x00' => ['\\', '0']
  | other => if isVisible other then [other] else numbered other

def quote (text : String) : String :=
  String.ofList ('"' :: text.toList.flatMap quoteChar ++ ['"'])

def quoteList (texts : List String) : String :=
  "[" ++ ", ".intercalate (texts.map quote) ++ "]"

end Rumour.Text
