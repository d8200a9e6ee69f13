import Assay.Json.Printer

/-!
# Previews of values

A diagnostic shows the value that was found by its compact text, cut after a number of characters.
-/

namespace Assay

/-- The text itself if it has at most `limit` characters, and otherwise its first `limit` characters
followed by three dots. -/
def cut (limit : Nat) (text : String) : String :=
  if text.length ≤ limit then text else String.ofList (text.toList.take limit) ++ "..."

/-- What is shown for a value that may be absent.  The word for an absent value is never cut. -/
def preview (limit : Nat) : Option Json → String
  | none => "undefined"
  | some value => cut limit value.text

end Assay
