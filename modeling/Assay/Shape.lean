import Assay.Json

/-!
# Typed results

An accepted value can be turned into a typed one.  A structured shape reads its fields from an
object, where other keys are ignored, or from an array that has exactly its fields in order.
-/

namespace Assay

/-- The shapes that can be asked for. -/
inductive Shape where
  | counter
  | point
  | ship
  | launch
  | strings
  deriving DecidableEq, Repr

/-- A ship and the harbour it belongs to. -/
structure Ship where
  name : String
  homePort : String
  deriving DecidableEq, Repr

/-- A typed value, for each shape. -/
inductive Typed where
  | counter (count : Nat)
  | point (label : String) (x : Binary64)
  | ship (ship : Ship)
  | launch (missionName : String) (launchSuccess : Option Bool) (ships : List Ship)
  | strings (contents : List String)
  deriving DecidableEq, Repr

namespace Shape

/-- The shape of a name. -/
def ofName? (name : String) : Option Shape :=
  match name with
  | "counter" => some .counter
  | "point" => some .point
  | "ship" => some .ship
  | "launch" => some .launch
  | "strings" => some .strings
  | _ => none

/-- The values of named fields.  In an array every field is present. -/
def fields? (names : List String) : Json → Option (List (Option Json))
  | .object entries => some (names.map fun name => entries.lookup name)
  | .array elements => if elements.length = names.length then some (elements.map some) else none
  | _ => none

/-- A string. -/
def string? : Json → Option String
  | .string content => some content
  | _ => none

/-- A number of 8 bits, given as an integer. -/
def byte? : Json → Option Nat
  | .number (.integer value _ _) =>
      if 0 ≤ value ∧ value < 256 then some value.toNat else none
  | _ => none

/-- A binary64 number; an integer is rounded to one. -/
def binary? : Json → Option Binary64
  | .number value => some value.toBinary
  | _ => none

/-- A truth value that may be `null`. -/
def optionalBool? : Json → Option (Option Bool)
  | .null => some none
  | .bool value => some (some value)
  | _ => none

/-- A list of values of one kind. -/
def list? {α : Type} (element? : Json → Option α) : Json → Option (List α)
  | .array elements => elements.mapM element?
  | _ => none

/-- A ship. -/
def ship? (value : Json) : Option Ship := do
  match ← fields? ["name", "home_port"] value with
  | [some name, some homePort] => return { name := ← string? name, homePort := ← string? homePort }
  | _ => none

/-- A value turned into a typed one, if it has the shape. -/
def build? (shape : Shape) (value : Json) : Option Typed :=
  match shape with
  | .counter => do
      match ← fields? ["count"] value with
      | [some count] => return .counter (← byte? count)
      | _ => none
  | .point => do
      match ← fields? ["label", "x"] value with
      | [some label, some x] => return .point (← string? label) (← binary? x)
      | _ => none
  | .ship => (ship? value).map .ship
  | .launch => do
      match ← fields? ["mission_name", "launch_success", "ships"] value with
      | [some name, success, some ships] =>
          return .launch (← string? name) (← optionalBool? (success.getD .null))
            (← list? ship? ships)
      | _ => none
  | .strings => (list? string? value).map .strings

end Shape

end Assay
