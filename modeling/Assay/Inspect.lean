import Assay.Digits
import Assay.Inspect.Unseen

/-!
# Inspected text

Quotes a text so that every character of it can be seen: quotes, backslashes and the usual control
characters have an escape of their own, and other characters that are not seen for themselves are
given by their code.
-/

namespace Assay.Inspect

/-- Whether a character cannot be seen for itself: a control character, or one of those beyond
ASCII. -/
def isUnseen (char : Char) : Bool :=
  if char.toNat < 127 then decide (char.toNat < 32) else isUnseenCode char.toNat || char == '\x7f'

/-- A character inside a quoted text. -/
def escapeChar (char : Char) : List Char :=
  match char with
  | '"' => ['\\', '"']
  | '\\' => ['\\', '\\']
  | '\n' => ['\\', 'n']
  | '\r' => ['\\', 'r']
  | '\t' => ['\\', 't']
  | '\x00' => ['\\', '0']
  | _ =>
      if isUnseen char then ['\\', 'u', '\x7b'] ++ Digits.hexadecimal char.toNat ++ ['\x7d']
      else [char]

/-- A quoted text. -/
def quoted (text : String) : String :=
  String.ofList ('"' :: (text.toList.flatMap escapeChar ++ ['"']))

end Assay.Inspect
