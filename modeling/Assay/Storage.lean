import Assay.Limits.Document

/-!
# Stored limits

Limits can be saved to a file and loaded from it.  The state is the limits in use and the content of
the one file, so a failed load leaves the limits as they are, and a save replaces whatever the file
held before.
-/

namespace Assay

/-- Why limits were not loaded or saved. -/
inductive StorageError where
  /-- There is no such file, or no directory for it. -/
  | notFound
  /-- The file does not hold limits. -/
  | malformed
  deriving DecidableEq, Repr

/-- The limits in use, and the content of the file if it exists. -/
structure Storage where
  current : Limits := {}
  file : Option String := none
  deriving DecidableEq, Repr

/-- A step on stored limits. -/
inductive StorageStep where
  /-- Uses the default limits. -/
  | useDefaults
  | setMaxDepth (value : Nat)
  | setPreviewLength (value : Nat)
  /-- Writes a text to the file without looking at it. -/
  | write (text : String)
  | read
  | load
  | save
  /-- Loads from a file that does not exist. -/
  | loadElsewhere
  /-- Saves into a directory that does not exist. -/
  | saveElsewhere

/-- The answer to a step: the limits in use after it, or what the file holds. -/
inductive StorageAnswer where
  | limits (current : Limits)
  | content (file : Option String)
  | failed (cause : StorageError)
  deriving DecidableEq, Repr

namespace Storage

/-- Saves the limits in use. -/
def save (storage : Storage) : Storage := { storage with file := some storage.current.render }

/-- Loads limits and uses them from then on. -/
def load (storage : Storage) : Except StorageError Storage :=
  match storage.file with
  | none => .error .notFound
  | some text =>
      match Limits.parse? text with
      | some limits => .ok { storage with current := limits }
      | none => .error .malformed

/-- Answers with the limits in use. -/
def settled (storage : Storage) : StorageAnswer × Storage := (.limits storage.current, storage)

/-- Takes a step. -/
def take (storage : Storage) : StorageStep → StorageAnswer × Storage
  | .useDefaults => settled { storage with current := {} }
  | .setMaxDepth value => settled { storage with current := { storage.current with maxDepth := value } }
  | .setPreviewLength value =>
      settled { storage with current := { storage.current with previewLength := value } }
  | .write text => settled { storage with file := some text }
  | .read => (.content storage.file, storage)
  | .load =>
      match storage.load with
      | .ok loaded => loaded.settled
      | .error cause => (.failed cause, storage)
  | .save => storage.save.settled
  | .loadElsewhere | .saveElsewhere => (.failed .notFound, storage)

/-- Takes steps in order. -/
def run (storage : Storage) : List StorageStep → List StorageAnswer × Storage
  | [] => ([], storage)
  | step :: rest =>
      let (answer, storage) := storage.take step
      let (answers, storage) := storage.run rest
      (answer :: answers, storage)

end Storage

end Assay
