import Assay.Routine.Code
import Assay.Routine.Expression

/-!
# Routine sources

Writes code out as an expression over the whole value.  Going into a field or a position extends the
place, and each iteration binds a variable of its own: variables are numbered in the order in which
the iterations begin in the source.
-/

namespace Assay.Code

/-- The expression that the part is a container of a kind whose every member satisfies a body. -/
def iteration (kind : Container) (place : Place) (variableIndex : Nat) (body : Expression) :
    Expression :=
  .conjunction [.isKind kind.name place, .every kind place variableIndex body]

mutual

/-- The expression for code about a place, and the next variable after it. -/
def expressionAt : Code → Place → (next : Nat) → Expression × Nat
  | .primitive kind, place, next => (.isKind kind.name place, next)
  | .literal expected, place, next => (.equals place expected, next)
  | .container kind, place, next => (.isKind kind.name place, next)
  | .oneOf members, place, next => (.isOneOf members place, next)
  | .custom _ generate, place, next => (.generated generate place, next)
  | .both first second, place, next =>
      let (left, next) := expressionAt first place next
      let (right, next) := expressionAt second place next
      (.conjunction [left, right], next)
  | .either first second, place, next =>
      let (left, next) := expressionAt first place next
      let (right, next) := expressionAt second place next
      (.disjunction [left, right], next)
  | .array item, place, next =>
      let (body, after) := expressionAt item { base := .variable next } (next + 1)
      (iteration .array place next body, after)
  | .record item, place, next =>
      let (body, after) := expressionAt item { base := .variable next } (next + 1)
      (iteration .object place next body, after)
  | .tuple positions, place, next =>
      let (parts, after) := positionExpressions positions place 0 next
      (.conjunction (.hasLength place positions.length :: parts), after)
  | .object fields, place, next =>
      let (parts, after) := fieldExpressions fields place next
      (.conjunction (.isKind Container.object.name place :: parts), after)
  | .union alternatives, place, next =>
      let (parts, after) := alternativeExpressions alternatives place next
      (.disjunction parts, after)
  | .expanded body, place, next => expressionAt body place next
  | .handover _ label, place, next => (.interpret label place, next)

/-- The expressions for the positions of a tuple, from a position on. -/
def positionExpressions :
    List Code → Place → (position next : Nat) → List Expression × Nat
  | [], _, _, next => ([], next)
  | code :: rest, place, position, next =>
      let (part, next) := expressionAt code (place.step (.index position)) next
      let (parts, next) := positionExpressions rest place (position + 1) next
      (part :: parts, next)

/-- The expressions for declared fields. -/
def fieldExpressions : List (String × Code) → Place → (next : Nat) → List Expression × Nat
  | [], _, next => ([], next)
  | (name, code) :: rest, place, next =>
      let (part, next) := expressionAt code (place.step (.field name)) next
      let (parts, next) := fieldExpressions rest place next
      (part :: parts, next)

/-- The expressions for alternatives. -/
def alternativeExpressions : List Code → Place → (next : Nat) → List Expression × Nat
  | [], _, next => ([], next)
  | code :: rest, place, next =>
      let (part, next) := expressionAt code place next
      let (parts, next) := alternativeExpressions rest place next
      (part :: parts, next)

end

/-- The expression for code about the whole value. -/
def expression (code : Code) : Expression := (code.expressionAt { base := .root } 0).1

/-- The source of code. -/
def source (code : Code) : String := code.expression.text

end Assay.Code
