import CaseUnion.Text.Extending
import CaseUnion.Text.Printable

/-!
# Quoted text

A quoted text stands between double quotes. Quotes, backslashes and line controls are escaped by a
letter, and all else that has no visible form of its own by its code point.
-/

namespace CaseUnion.Text

def hexDigits (n : Nat) : List Char := Nat.toDigits 16 n

def escapeQuoted (c : Char) : List Char :=
  match c with
  | '"' => ['\\', '"']
  | '\\' => ['\\', '\\']
  | '\n' => ['\\', 'n']
  | '\r' => ['\\', 'r']
  | '\t' => ['\\', 't']
  | '\x00' => ['\\', '0']
  | c =>
    if isExtending c || !isPrintable c then
      ['\\', 'u', '\x7b'] ++ hexDigits c.toNat ++ ['\x7d']
    else [c]

def quoted (text : String) : String :=
  String.ofList ('"' :: (text.toList.flatMap escapeQuoted ++ ['"']))

end CaseUnion.Text
