import Assay.Examples.Program

/-!
# Example: a recursive schema

A comment has replies, which are comments.  The schema refers to itself by name; values are tested by
the interpreter and by the compiled routine, and very deep ones meet the depth limit.
-/

namespace Assay.Examples.Comments

/-- A comment with its replies. -/
def comment : Draft :=
  .object
    [("author", .word "string"), ("score", .word "number"),
      ("replies", .array (.named "comment"))]

/-- The value of a comment. -/
def sample (author : String) (score : Json) (replies : List Json) : Json :=
  object [("author", .string author), ("score", score), ("replies", .array replies)]

/-- A chain of `depth` comments above a last one. -/
def thread : (depth : Nat) → Json
  | 0 => sample "leaf" (.ofInt 0) []
  | depth + 1 => sample ("user" ++ toString depth) (.ofInt depth) [thread depth]

/-- A thread in which one score is not a number. -/
def flawed : Json :=
  sample "ada" (.ofInt 12)
    [sample "bob" (.ofInt 3) [],
      sample "cy" (.ofInt 1) [sample "dee" (.string "high") []]]

/-- The text of a truth value. -/
def yesNo (answer : Bool) : String := if answer then "true" else "false"

/-- The lines about the compiled routine. -/
def routineLines (comment : Schema) : Building (List String) := do
  match ← request (·.compile comment) with
  | .error cause => return ["  not compilable: " ++ cause.message]
  | .ok compiled =>
      let accepted ← request (·.checkCompiled compiled {} (some flawed))
      let asserted ← request (·.assertCompiled compiled {} (some flawed))
      let deep ← request (·.checkCompiled compiled {} (some (thread 100)))
      let reason := match asserted with
        | .ok () => []
        | .error error => ["  assert:  " ++ error.message]
      return ["  routine: " ++ compiled.source, "  check:   " ++ yesNo accepted] ++ reason ++
        ["  deep(100) accepted: " ++ yesNo deep]

/-- The line about a thread of some depth under a low limit. -/
def depthLine (comment : Schema) (depth : Nat) : Building String := do
  let start := "  depth " ++ toString depth ++ ": "
  match ← assert comment { maxDepth := 16 } (thread depth) with
  | .ok () => return start ++ "accepted"
  | .error (.depthLimit limit path) =>
      return start ++ "limit " ++ toString limit ++ " hit after " ++ toString path.length ++
        " segments"
  | .error error => return start ++ error.message

/-- The program. -/
def program : Building (List String) := do
  let comment ← comment.build
  modify (·.bind "comment" comment)
  let verdict := match ← assert comment {} flawed with
    | .ok () => "  accepted"
    | .error error => "  " ++ error.message
  let routine ← routineLines comment
  let depths ← [10, 20].mapM (depthLine comment)
  return ["=== Interpreted ===", verdict, "=== Compiled ==="] ++ routine ++
    ["=== Depth limit ==="] ++ depths

end Assay.Examples.Comments
