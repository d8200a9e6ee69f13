import Assay.Path
import Assay.Schema

/-!
# Journals

A run over a value reads what references lead to, but changes nothing outside itself.  What it has
to tell afterwards, namely which references it used and whether it met the depth limit, goes into a
journal in the order in which it happened.
-/

namespace Assay

/-- One entry of a journal. -/
inductive Notice where
  /-- The run asked what a reference leads to. -/
  | used (id : NodeId)
  /-- The run met the depth limit.  A run that knows its place gives the path to it. -/
  | depthExceeded (limit : Nat) (path : Option Path)
  deriving DecidableEq, Repr

/-- The entries of a run, oldest first. -/
abbrev Journal := List Notice

/-- The entries for a list of used references. -/
def Journal.ofMentions (mentioned : List NodeId) : Journal := mentioned.map .used

/-- The answer of a run together with its journal. -/
structure Recorded (α : Type) where
  answer : α
  journal : Journal

end Assay
