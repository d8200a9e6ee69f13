import Assay.Literal
import Assay.Kind
import Assay.Path

/-!
# Expressions

The expressions in which the source of a routine is written.  A part of the value is named by a
*place*: a base, which is the whole value or a variable bound by an enclosing iteration, and the keys
and positions that lead from there to the part.
-/

namespace Assay

/-- Whether a key may follow a dot: an ASCII letter or underscore, then letters, digits and
underscores. -/
def isIdentifier (key : List Char) : Bool :=
  match key with
  | [] => false
  | first :: rest =>
      (first == '_' || first.isAlpha) && rest.all fun char => char == '_' || char.isAlphanum

/-- What a place is relative to. -/
inductive Base where
  | root
  | variable (index : Nat)
  deriving DecidableEq, Repr

/-- The text of a base. -/
def Base.text : Base → String
  | .root => "value"
  | .variable index => "v" ++ toString index

/-- A part of the value: a base and the steps from it, outermost first. -/
structure Place where
  base : Base
  steps : List Segment := []
  deriving DecidableEq, Repr

namespace Place

/-- The place one step further down. -/
def step (place : Place) (segment : Segment) : Place :=
  { place with steps := place.steps ++ [segment] }

/-- The text of a step: `.key` for a key that is an identifier, `["key"]` for any other, and
`[n]` for a position. -/
def stepText : Segment → String
  | .field key => if isIdentifier key.toList then "." ++ key else "[" ++ Json.quoted key ++ "]"
  | .index position => "[" ++ toString position ++ "]"

/-- The text of a place. -/
def text (place : Place) : String :=
  place.steps.foldl (fun text segment => text ++ stepText segment) place.base.text

end Place

/-- An expression about parts of the value. -/
inductive Expression where
  /-- The part is of a kind. -/
  | isKind (kind : String) (place : Place)
  /-- The part is one scalar. -/
  | equals (place : Place) (expected : Literal)
  /-- The part is one of several scalars. -/
  | isOneOf (members : List Literal) (place : Place)
  /-- What a generator writes about the part. -/
  | generated (generate : String → String) (place : Place)
  /-- The part has a number of elements. -/
  | hasLength (place : Place) (length : Nat)
  /-- The part is accepted by a schema that is described by the label. -/
  | interpret (label : String) (place : Place)
  /-- Every element or value of the part satisfies the body, which names it by the variable. -/
  | every (kind : Container) (place : Place) (variableIndex : Nat) (body : Expression)
  | conjunction (parts : List Expression)
  | disjunction (parts : List Expression)

namespace Expression

/-- The name of the walk over the elements of an array or the values of an object. -/
def walkName : Container → String
  | .array => "iter"
  | .object => "values"

mutual

/-- The text of an expression. -/
def text : Expression → String
  | .isKind kind place => "is_" ++ kind ++ "(" ++ place.text ++ ")"
  | .equals place expected => place.text ++ " == " ++ expected.text
  | .isOneOf members place =>
      "[" ++ String.intercalate ", " (members.map Literal.text) ++ "].contains(" ++
        place.text ++ ")"
  | .generated generate place => generate place.text
  | .hasLength place length => "len(" ++ place.text ++ ") == " ++ toString length
  | .interpret label place => "interpret(" ++ label ++ ", " ++ place.text ++ ")"
  | .every kind place variableIndex body =>
      place.text ++ "." ++ walkName kind ++ "().all(|" ++ (Base.variable variableIndex).text ++
        "| " ++ text body ++ ")"
  | .conjunction parts => "(" ++ String.intercalate " && " (texts parts) ++ ")"
  | .disjunction parts => "(" ++ String.intercalate " || " (texts parts) ++ ")"

/-- The texts of several expressions. -/
def texts : List Expression → List String
  | [] => []
  | part :: rest => text part :: texts rest

end

end Expression

end Assay
