import Assay.Json
import Assay.Timestamp

/-!
# Rules

A rule extends the built-in tests by a predicate on values.  It comes with a description for
diagnostics and, if it can take part in a compiled routine, with a generator that writes the
predicate as an expression over a reference.  An absent value satisfies no rule.
-/

namespace Assay

/-- A predicate on values with its description and, possibly, its generator. -/
structure Rule where
  description : String
  accepts : Json → Bool
  /-- A rule either writes an expression over every reference, or it has no generator and writes
  none over any: whether a schema can be compiled does not depend on where a rule stands in it. -/
  generate : Option (String → String) := none

namespace Rule

/-- Whether a value satisfies a rule. -/
def acceptsOption (rule : Rule) : Option Json → Bool
  | some value => rule.accepts value
  | none => false

/-- The rule for RFC 3339 timestamps. -/
def dateTime : Rule where
  description := "date-time"
  accepts
    | .string content => Timestamp.isTimestamp content
    | _ => false
  generate := some fun reference => "is_rfc3339(" ++ reference ++ ")"

/-- Puts a text into every gap of a template.  A gap is written as a pair of braces. -/
def fillGaps (filling : List Char) : (template : List Char) → List Char
  | [] => []
  | '\x7b' :: '\x7d' :: rest => filling ++ fillGaps filling rest
  | char :: rest => char :: fillGaps filling rest

/-- The generator that puts the reference into every gap of a template. -/
def fillTemplate (template reference : String) : String :=
  String.ofList (fillGaps reference.toList template.toList)

end Rule

/-- Predicates that are known by name. -/
inductive Predicate where
  | always
  | never
  | positive
  | even
  | nonempty
  | hashtag
  | short
  | isNull
  | hasItems
  | hasId
  deriving DecidableEq, Repr

namespace Predicate

/-- The name of a predicate. -/
def name : Predicate → String
  | .always => "always"
  | .never => "never"
  | .positive => "positive"
  | .even => "even"
  | .nonempty => "nonempty"
  | .hashtag => "hashtag"
  | .short => "short"
  | .isNull => "is_null"
  | .hasItems => "has_items"
  | .hasId => "has_id"

/-- The predicate of a name. -/
def ofName? (name : String) : Option Predicate :=
  [always, never, positive, even, nonempty, hashtag, short, isNull, hasItems, hasId].find?
    fun predicate => predicate.name == name

/-- A test on the signed 64-bit integers; other values fail it. -/
def onSigned (test : Int → Bool) : Json → Bool
  | .number number => number.toSigned?.any test
  | _ => false

/-- Whether a value satisfies a predicate. -/
def holds : Predicate → Json → Bool
  | .always, _ => true
  | .never, _ => false
  | .positive, value => onSigned (fun number => decide (0 < number)) value
  | .even, value => onSigned (fun number => number % 2 == 0) value
  | .nonempty, .string content => !content.isEmpty
  | .hashtag, .string content => content.toList.head? == some '#'
  | .short, .string content => decide (content.utf8ByteSize < 4)
  | .isNull, .null => true
  | .hasItems, .array elements => !elements.isEmpty
  | .hasId, .object entries => (entries.lookup "id").isSome
  | _, _ => false

end Predicate

end Assay
