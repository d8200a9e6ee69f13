import Assay.Json.Printer

/-!
# Literals

A literal stands for exactly one scalar value, or for the absence of a value.  Numbers are matched
numerically, so the literal `1` also matches `1.0`.
-/

namespace Assay

/-- A fixed scalar, or the absence of a value. -/
inductive Literal where
  | undefined
  | null
  | bool (value : Bool)
  | number (value : Number)
  | string (value : String)
  deriving DecidableEq, Repr

namespace Literal

/-- Whether a value is the one that a literal stands for. -/
def accepts (literal : Literal) (value : Option Json) : Bool :=
  match literal, value with
  | .undefined, none => true
  | .null, some .null => true
  | .bool expected, some (.bool found) => expected == found
  | .number expected, some (.number found) => expected.same found
  | .string expected, some (.string found) => expected == found
  | _, _ => false

/-- The text of a literal: JSON, or the word for an absent value. -/
def text : Literal → String
  | .undefined => "undefined"
  | .null => "null"
  | .bool true => "true"
  | .bool false => "false"
  | .number value => value.text
  | .string value => Json.quoted value

end Literal

end Assay
