/-!
# Paths

A path leads from a value to a place inside it.  Its text gives a field as `.name` and an index as
`[n]`; the dot is left out in front of a leading field.
-/

namespace Assay

/-- One step of a path. -/
inductive Segment where
  | field (name : String)
  | index (position : Nat)
  deriving DecidableEq, Repr

/-- The way to a place inside a value, outermost step first.  The empty path is the value itself. -/
abbrev Path := List Segment

namespace Segment

/-- The text of a segment that follows another one. -/
def text : Segment → String
  | .field name => "." ++ name
  | .index position => "[" ++ toString position ++ "]"

/-- The text of a leading segment. -/
def leadingText : Segment → String
  | .field name => name
  | segment => segment.text

end Segment

namespace Path

/-- The text of a path. -/
def text : Path → String
  | [] => ""
  | first :: rest => rest.foldl (fun text segment => text ++ segment.text) first.leadingText

/-- The clause that names a place in a message.  It is empty for the value itself. -/
def clause (path : Path) : String :=
  if path.isEmpty then "" else " @ " ++ path.text

end Path

end Assay
