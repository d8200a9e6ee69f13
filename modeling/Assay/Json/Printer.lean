import Assay.Digits
import Assay.Json

/-!
# Compact JSON text

The text of a value without any blank: the form in which values appear in diagnostics, and in which
string literals and keys appear in descriptions and routine sources.  A string escapes the quote, the
backslash and the control characters below U+0020, and nothing else.
-/

namespace Assay.Json

/-- A character inside a quoted string. -/
def escapeChar (char : Char) : List Char :=
  match char with
  | '"' => ['\\', '"']
  | '\\' => ['\\', '\\']
  | '\n' => ['\\', 'n']
  | '\r' => ['\\', 'r']
  | '\t' => ['\\', 't']
  | '\x08' => ['\\', 'b']
  | '\x0c' => ['\\', 'f']
  | _ =>
      if char.toNat < 32 then
        let digits := Digits.hexadecimal char.toNat
        ['\\', 'u'] ++ List.replicate (4 - digits.length) '0' ++ digits
      else [char]

/-- The characters of a string as a JSON string, quotes included. -/
def quotedChars (content : List Char) : List Char :=
  '"' :: (content.flatMap escapeChar ++ ['"'])

/-- A string as a JSON string. -/
def quoted (content : String) : String := String.ofList (quotedChars content.toList)

mutual

/-- The compact text of a value. -/
def text : Json → String
  | .null => "null"
  | .bool true => "true"
  | .bool false => "false"
  | .number value => value.text
  | .string value => quoted value
  | .array elements => "[" ++ elementsText elements ++ "]"
  | .object entries => "\x7b" ++ entriesText entries ++ "\x7d"

/-- The texts of elements, separated by commas. -/
def elementsText : List Json → String
  | [] => ""
  | [element] => text element
  | element :: next :: rest => text element ++ "," ++ elementsText (next :: rest)

/-- The texts of entries, separated by commas. -/
def entriesText : List (String × Json) → String
  | [] => ""
  | [(key, value)] => quoted key ++ ":" ++ text value
  | (key, value) :: next :: rest =>
      quoted key ++ ":" ++ text value ++ "," ++ entriesText (next :: rest)

end

end Assay.Json
