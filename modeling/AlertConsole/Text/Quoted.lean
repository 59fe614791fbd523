import AlertConsole.Text.Unprintable

/-!
# Quoted text

`quoted s` shows a text between double quotes so that every character of it can be seen: quotes and
backslashes are escaped, and characters without a printed form are named by their code.
-/

namespace AlertConsole.Text

/-- `\u` and the code between braces, in lower-case hexadecimal digits. -/
def codeEscape (c : Char) : List Char :=
  ['\\', 'u', '\x7b'] ++ Nat.toDigits 16 c.toNat ++ ['\x7d']

def quotedChar (c : Char) : List Char :=
  match c with
  | '\x00' => ['\\', '0']
  | '\t' => ['\\', 't']
  | '\n' => ['\\', 'n']
  | '\r' => ['\\', 'r']
  | '"' => ['\\', '"']
  | '\\' => ['\\', '\\']
  | c => if 0x20 ≤ c.toNat && c.toNat < 0x7F then [c]
    else if isUnprintable c then codeEscape c else [c]

def quoted (s : String) : String :=
  String.ofList ('"' :: s.toList.flatMap quotedChar ++ ['"'])

end AlertConsole.Text
