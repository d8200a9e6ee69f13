import Assay.Limits
import Assay.Yaml.Node

/-!
# Limits as YAML documents

The limits are written as one line per field, and read from a mapping in which both fields may be
left out.  Keys that are no fields are passed over.  The value of a field is an unsigned 64-bit
integer, written plainly and possibly in another radix.
-/

namespace Assay

namespace Limits

/-- The first number that a field of 64 bits cannot hold. -/
def fieldBound : Nat := 18446744073709551616

/-- The unsigned integer that a text spells: after an optional plus sign, digits in decimal without
leading zeros, or digits in another radix after its mark. -/
def integer? (text : List Char) : Option Nat := do
  let unsigned := match text with
    | '+' :: rest => rest
    | _ => text
  let number ← match unsigned with
    | '0' :: 'x' :: digits => Digits.read? 16 digits
    | '0' :: 'o' :: digits => Digits.read? 8 digits
    | '0' :: 'b' :: digits => Digits.read? 2 digits
    | ['0'] => some 0
    | '0' :: _ => none
    | digits => Digits.read? 10 digits
  if number < fieldBound then some number else none

/-- The integer that a node holds.  Besides plain scalars a literal block counts if it is tagged as
an integer. -/
def field? : Yaml.Node → Option Nat
  | .scalar _ .plain _ content => integer? content.toList
  | .scalar _ .literal (some "tag:yaml.org,2002:int") content => integer? content.toList
  | _ => none

/-- The fields found so far. -/
structure Fields where
  maxDepth : Option Nat := none
  previewLength : Option Nat := none

/-- Reads one entry of the root of a document.  Every key is a scalar, and no field comes twice. -/
def Fields.read? (root : Yaml.Node) (fields : Fields) (entry : Yaml.Node × Yaml.Node) :
    Option Fields := do
  match ← root.target? entry.1 with
  | .scalar _ _ _ "max_depth" =>
      guard fields.maxDepth.isNone
      return { fields with maxDepth := some (← field? (← root.target? entry.2)) }
  | .scalar _ _ _ "preview_len" =>
      guard fields.previewLength.isNone
      return { fields with previewLength := some (← field? (← root.target? entry.2)) }
  | .scalar .. => return fields
  | _ => none

/-- The limits that a document holds.  A document without content holds the default ones. -/
def ofNode? : Option Yaml.Node → Option Limits
  | none => some {}
  | some (.scalar _ .plain _ "") => some {}
  | some (.mapping slot entries) => do
      let fields ← entries.foldlM (Fields.read? (.mapping slot entries)) {}
      return {
        maxDepth := fields.maxDepth.getD ({} : Limits).maxDepth
        previewLength := fields.previewLength.getD ({} : Limits).previewLength }
  | some _ => none

/-- Reads limits from the text of a document. -/
def parse? (text : String) : Option Limits := do ofNode? (← Yaml.document? text)

/-- Writes limits as the text of a document. -/
def render (limits : Limits) : String :=
  "max_depth: " ++ toString limits.maxDepth ++ "\npreview_len: " ++
    toString limits.previewLength ++ "\n"

end Limits

end Assay
