import Assay.Examples.Program
import Assay.Inspect

/-!
# Example: diagnostics

Shows the one-line reasons for rejected values, how a union chooses the reason that reached furthest,
how the parts of a reason can be taken apart, and how a preview is cut.
-/

namespace Assay.Examples.Diagnostics

/-- A user account. -/
def user : Draft :=
  .object
    [("name", .word "string"),
      ("role", .oneOf [.string "admin", .string "editor", .string "viewer"]),
      ("tags", .array (.word "string")),
      ("nickname", .optional (.word "string"))]

/-- A click or a key press. -/
def event : Draft :=
  .union
    [.object [("type", .literal (.string "click")), ("x", .word "number"), ("y", .word "number")],
      .object
        [("type", .literal (.string "key")),
          ("key", .object [("code", .word "string"), ("repeat", .word "number")])]]

/-- The value of a user account. -/
def account (fields : List (String × Json)) (role : String) (tags : Json) : Json :=
  object (fields ++ [("role", .string role), ("tags", tags)])

/-- The name field of the sample accounts. -/
def named : List (String × Json) := [("name", .string "ada")]

/-- The lines about one value. -/
def lines (schema : Schema) (value : Json) : Building (List String) := do
  match ← assert schema {} value with
  | .ok () => return ["  ok        " ++ value.text]
  | .error error => return ["  rejected  " ++ value.text, "            " ++ error.message]

/-- The lines about several values. -/
def linesOfAll (schema : Schema) (values : List Json) : Building (List String) := do
  return (← values.mapM (lines schema)).flatten

/-- How one step of a path is shown. -/
def segmentText : Segment → String
  | .field name => "Field(" ++ Inspect.quoted name ++ ")"
  | .index position => "Index(" ++ toString position ++ ")"

/-- The lines about the parts of a mismatch. -/
def mismatchLines (mismatch : Mismatch) : List String :=
  ["  expected: " ++ mismatch.expected, "  actual:   " ++ mismatch.actual] ++
    mismatch.path.map fun segment => "  segment:  " ++ segmentText segment

/-- The sample accounts, of which only the first is accepted. -/
def accounts : List Json :=
  [account named "admin" (.array [.string "ops"]),
    account named "owner" (.array []),
    account named "viewer" (.array [.string "ops", .ofInt 7]),
    account [] "viewer" (.array [])]

/-- The sample events.  In the second the key press reaches further than the click, in the third both
end at `type`, and the last is no object at all. -/
def events : List Json :=
  [object [("type", .string "click"), ("x", .ofInt 1), ("y", .ofInt 2)],
    object
      [("type", .string "key"),
        ("key", object [("code", .string "KeyA"), ("repeat", .string "no")])],
    object [("type", .string "scroll")],
    .string "click"]

/-- The program. -/
def program : Building (List String) := do
  let user ← user.build
  let userLines ← linesOfAll user accounts
  let event ← event.build
  let eventLines ← linesOfAll event events
  let wrongTag ← assert user {} (account named "viewer" (.array [.string "ops", .ofInt 7]))
  let parts := match wrongTag with
    | .error (.mismatch mismatch) => mismatchLines mismatch
    | _ => []
  let long := account named "viewer" (.string "a fairly long string value")
  let shortened := match ← assert user { previewLength := 12 } long with
    | .ok () => "  accepted"
    | .error error => "  " ++ error.message
  return ["=== Object schema: " ++ (← describe user) ++ " ==="] ++ userLines ++ [""] ++
    ["=== Union schema: " ++ (← describe event) ++ " ==="] ++ eventLines ++ [""] ++
    ["=== Structured path ==="] ++ parts ++ [""] ++
    ["=== Shorter previews ===", shortened]

end Assay.Examples.Diagnostics
