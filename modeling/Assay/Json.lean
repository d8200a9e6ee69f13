import Assay.Json.Number

/-!
# JSON values

The values that schemas are tested against.  The entries of an object are kept in ascending order of
their keys with no key twice, which `Json.ofEntries` establishes; walking over an object and writing
it out both follow that order.

A value that is absent, such as the value of a key that an object does not have, is `none` of type
`Option Json`.  It is different from `null`.
-/

namespace Assay

/-- A JSON value. -/
inductive Json where
  | null
  | bool (value : Bool)
  | number (value : Number)
  | string (value : String)
  | array (elements : List Json)
  | object (entries : List (String × Json))
  deriving Inhabited, Repr

namespace Json

/-- Adds an entry in key order.  An entry with the same key is replaced. -/
def insertEntry (key : String) (value : Json) : List (String × Json) → List (String × Json)
  | [] => [(key, value)]
  | (otherKey, otherValue) :: rest =>
      if key < otherKey then (key, value) :: (otherKey, otherValue) :: rest
      else if key = otherKey then (key, value) :: rest
      else (otherKey, otherValue) :: insertEntry key value rest

/-- The object with the given entries; of two entries with one key the later counts. -/
def ofEntries (entries : List (String × Json)) : Json :=
  .object (entries.foldl (fun sorted entry => insertEntry entry.1 entry.2 sorted) [])

/-- The value of a key of an object. -/
def get? (value : Json) (key : String) : Option Json :=
  match value with
  | .object entries => entries.lookup key
  | _ => none

/-- The integer as a JSON value. -/
def ofInt (value : Int) : Json := .number (.ofInt value)

end Json

end Assay
