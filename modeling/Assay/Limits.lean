/-!
# Limits

The settings of one validation.  `maxDepth` bounds the references that are active at once, which is
what ends a run on a recursive schema, and `previewLength` bounds the text of a value that a
diagnostic shows.
-/

namespace Assay

/-- The settings of one validation. -/
structure Limits where
  maxDepth : Nat := 128
  previewLength : Nat := 40
  deriving DecidableEq, Repr, Inhabited

end Assay
