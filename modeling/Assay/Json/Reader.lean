import Assay.Json
import Assay.Json.Token

/-!
# Reading JSON text

Builds a value from tokens.  The containers that are still open are kept on a stack, so the reader
takes one step per token and sets no limit on nesting.
-/

namespace Assay.Json

/-- A container that is still open, with its finished parts in reverse order.  An object that waits
for a value also holds the key of that value. -/
inductive Open where
  | array (elements : List Json)
  | object (entries : List (String × Json)) (key : String)

/-- What may come next. -/
inductive Expected where
  | value
  | firstElement
  | firstKey
  | key (entries : List (String × Json))
  | colon (entries : List (String × Json)) (key : String)
  | afterElement (elements : List Json)
  | afterEntry (entries : List (String × Json))
  | nothing (result : Json)

/-- The state of the reader: the open containers around the current place, innermost first, and what
may come there. -/
structure Reading where
  stack : List Open
  expected : Expected

/-- A value is complete.  It becomes a part of the innermost open container, or the result. -/
def Reading.complete (stack : List Open) (value : Json) : Reading :=
  match stack with
  | [] => ⟨[], .nothing value⟩
  | .array elements :: rest => ⟨rest, .afterElement (value :: elements)⟩
  | .object entries key :: rest => ⟨rest, .afterEntry ((key, value) :: entries)⟩

/-- Reads a token where a value is expected. -/
def Reading.startValue? (stack : List Open) (token : Token) : Option Reading :=
  match token with
  | .null => some (complete stack .null)
  | .bool value => some (complete stack (.bool value))
  | .number value => some (complete stack (.number value))
  | .string value => some (complete stack (.string value))
  | .openArray => some ⟨stack, .firstElement⟩
  | .openObject => some ⟨stack, .firstKey⟩
  | _ => none

/-- Reads one token. -/
def Reading.step? (reading : Reading) (token : Token) : Option Reading :=
  let stack := reading.stack
  match reading.expected, token with
  | .value, _ => startValue? stack token
  | .firstElement, .closeArray => some (complete stack (.array []))
  | .firstElement, _ => startValue? (.array [] :: stack) token
  | .firstKey, .closeObject => some (complete stack (.object []))
  | .firstKey, .string key => some ⟨stack, .colon [] key⟩
  | .key entries, .string key => some ⟨stack, .colon entries key⟩
  | .colon entries key, .colon => some ⟨.object entries key :: stack, .value⟩
  | .afterElement elements, .comma => some ⟨.array elements :: stack, .value⟩
  | .afterElement elements, .closeArray => some (complete stack (.array elements.reverse))
  | .afterEntry entries, .comma => some ⟨stack, .key entries⟩
  | .afterEntry entries, .closeObject => some (complete stack (ofEntries entries.reverse))
  | _, _ => none

/-- The value that a text denotes, or nothing if it is not JSON. -/
def parse? (text : String) : Option Json := do
  let tokens ← tokens? text.toList
  let reading ← tokens.foldlM Reading.step? ⟨[], .value⟩
  match reading.expected with
  | .nothing result => some result
  | _ => none

end Assay.Json
