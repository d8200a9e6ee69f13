import Assay.Proofs.Meaning
import Assay.Validation

/-!
# Outcomes

The meaning of a schema together with the reason.  An outcome tells what was expected and where when
a schema rejects, and where the budget was used up when it does not get that far.  Places are
counted from the value that the schema is asked about, so the outcome of a part is the same wherever
the part occurs, and going up one step adds one segment to it.

Like the meaning, the outcome is defined by recursion on the schema and the budget.  Its verdict is
the meaning, and it does not change when the budget grows unless the budget was used up.
-/

namespace Assay

/-- The same failure, seen from a place from which `outer` leads to where it was seen before. -/
def Failure.below (failure : Failure) (outer : List Segment) : Failure :=
  { failure with trail := failure.trail ++ outer }

@[simp] theorem Failure.depth_below (failure : Failure) (outer : List Segment) :
    (failure.below outer).depth = failure.depth + outer.length := by
  simp [Failure.below, Failure.depth]

/-- What a schema says about a value, with the reason.  Trails are given innermost step first. -/
inductive Outcome where
  | accepted
  | rejected (failure : Failure)
  | unresolved (cause : SchemaError)
  | tooDeep (trail : List Segment)

namespace Outcome

/-- The outcome that `schema` is not met, for no deeper reason. -/
def unmet (schema : Schema) (value : Option Json) : Outcome :=
  .rejected { expected := schema, value, trail := [] }

/-- The outcome of a test that looks at the value alone. -/
def leaf (schema : Schema) (accepts : Option Json → Bool) (value : Option Json) : Outcome :=
  if accepts value then .accepted else unmet schema value

/-- The same outcome, seen from a place from which `outer` leads to where it was seen before. -/
def below (outer : List Segment) : Outcome → Outcome
  | .rejected failure => .rejected (failure.below outer)
  | .tooDeep trail => .tooDeep (trail ++ outer)
  | outcome => outcome

/-- The second outcome if the first accepts, and otherwise the first. -/
def both : Outcome → Outcome → Outcome
  | .accepted, second => second
  | first, _ => first

/-- The second outcome if the first rejects, and otherwise the first. -/
def either : Outcome → Outcome → Outcome
  | .rejected _, second => second
  | first, _ => first

/-- The first outcome that does not accept, and acceptance if there is none. -/
def all (outcomes : List Outcome) : Outcome := outcomes.foldr both .accepted

/-- The outcome of trying alternatives in order, where `best` is the failure that reached furthest
down so far.  If all reject, that failure is the reason, unless it got no step down. -/
def choose (schema : Schema) (value : Option Json) :
    List Outcome → (best : Option Failure) → Outcome
  | [], some failure => if 0 < failure.depth then .rejected failure else unmet schema value
  | [], none => unmet schema value
  | .rejected failure :: rest, best => choose schema value rest (Test.deeper best (some failure))
  | first :: _, _ => first

/-- The verdict of an outcome. -/
def verdict : Outcome → Verdict
  | .accepted => .accept
  | .rejected _ => .reject
  | .unresolved cause => .fault (.unresolved cause)
  | .tooDeep _ => .fault .tooDeep

@[simp] theorem all_nil : all [] = .accepted := rfl

@[simp] theorem all_cons (first : Outcome) (rest : List Outcome) :
    all (first :: rest) = first.both (all rest) := rfl

theorem both_of_ne_accepted {first : Outcome} (notAccepted : first ≠ .accepted)
    (second : Outcome) : first.both second = first := by
  cases first with
  | accepted => exact (notAccepted rfl).elim
  | rejected failure | unresolved cause | tooDeep trail => rfl

@[simp] theorem verdict_leaf (schema : Schema) (accepts : Option Json → Bool)
    (value : Option Json) : (leaf schema accepts value).verdict = .ofBool (accepts value) := by
  rw [leaf, Verdict.ofBool]
  split <;> rfl

@[simp] theorem verdict_below (outer : List Segment) (outcome : Outcome) :
    (outcome.below outer).verdict = outcome.verdict := by
  cases outcome <;> rfl

@[simp] theorem verdict_both (first second : Outcome) :
    (first.both second).verdict = first.verdict.both second.verdict := by
  cases first <;> rfl

@[simp] theorem verdict_either (first second : Outcome) :
    (first.either second).verdict = first.verdict.either second.verdict := by
  cases first <;> rfl

@[simp] theorem verdict_all (outcomes : List Outcome) :
    (all outcomes).verdict = .all (outcomes.map verdict) := by
  induction outcomes with
  | nil => rfl
  | cons first rest ih => rw [all_cons, verdict_both, ih, List.map_cons, Verdict.all_cons]

@[simp] theorem verdict_choose (schema : Schema) (value : Option Json) (outcomes : List Outcome)
    (best : Option Failure) :
    (choose schema value outcomes best).verdict = .any (outcomes.map verdict) := by
  induction outcomes generalizing best with
  | nil =>
      cases best with
      | none => rfl
      | some failure =>
          rw [choose]
          split <;> rfl
  | cons first rest ih =>
      cases first with
      | rejected failure =>
          rw [choose, ih]
          rfl
      | accepted | unresolved cause | tooDeep trail => rfl

end Outcome

namespace Schema

mutual

/-- The outcome of a schema, where `descend` gives that of the schema that a reference leads to. -/
def outcomeBy (resolve : Resolver) (descend : Schema → Option Json → Outcome) (schema : Schema) :
    Option Json → Outcome :=
  fun value =>
    match schema with
    | .primitive _ kind => Outcome.leaf schema kind.accepts value
    | .literal _ expected => Outcome.leaf schema expected.accepts value
    | .container _ kind => Outcome.leaf schema kind.accepts value
    | .oneOf _ members => Outcome.leaf schema (fun value => members.any (·.accepts value)) value
    | .custom _ rule => Outcome.leaf schema rule.acceptsOption value
    | .both _ first second =>
        (outcomeBy resolve descend first value).both (outcomeBy resolve descend second value)
    | .either _ first second =>
        (outcomeBy resolve descend first value).either (outcomeBy resolve descend second value)
    | .array _ item =>
        match value with
        | some (.array elements) =>
            .all (elements.mapIdx fun position element =>
              (outcomeBy resolve descend item (some element)).below [.index position])
        | _ => .unmet schema value
    | .record _ item =>
        match value with
        | some (.object entries) =>
            .all (entries.map fun entry =>
              (outcomeBy resolve descend item (some entry.2)).below [.field entry.1])
        | _ => .unmet schema value
    | .tuple _ positions =>
        match value with
        | some (.array elements) =>
            if elements.length = positions.length then
              .all (((outcomesBy resolve descend positions).zip elements).mapIdx
                fun position pair => (pair.1 (some pair.2)).below [.index position])
            else .unmet schema value
        | _ => .unmet schema value
    | .object _ fields =>
        match value with
        | some (.object entries) =>
            .all ((fieldOutcomesBy resolve descend fields).map fun field =>
              (field.2 (entries.lookup field.1)).below [.field field.1])
        | _ => .unmet schema value
    | .union _ alternatives =>
        .choose schema value
          ((outcomesBy resolve descend alternatives).map fun outcome => outcome value) none
    | .reference id =>
        match resolve id with
        | .error cause => .unresolved cause
        | .ok target => descend target value

/-- The outcomes of several schemas. -/
def outcomesBy (resolve : Resolver) (descend : Schema → Option Json → Outcome) :
    List Schema → List (Option Json → Outcome)
  | [] => []
  | schema :: rest => outcomeBy resolve descend schema :: outcomesBy resolve descend rest

/-- The outcomes of the schemas of declared fields. -/
def fieldOutcomesBy (resolve : Resolver) (descend : Schema → Option Json → Outcome) :
    List (String × Schema) → List (String × (Option Json → Outcome))
  | [] => []
  | (name, schema) :: rest =>
      (name, outcomeBy resolve descend schema) :: fieldOutcomesBy resolve descend rest

end

/-- The outcome of a schema within a budget. -/
def outcome (resolve : Resolver) : (budget : Nat) → Schema → Option Json → Outcome
  | 0 => outcomeBy resolve fun _ _ => .tooDeep []
  | budget + 1 => outcomeBy resolve (outcome resolve budget)

section Equations

variable {resolve : Resolver} {descend : Schema → Option Json → Outcome}

theorem outcomesBy_eq_map (schemas : List Schema) :
    outcomesBy resolve descend schemas = schemas.map (outcomeBy resolve descend) := by
  induction schemas with
  | nil => rfl
  | cons schema rest ih => rw [outcomesBy, ih, List.map_cons]

theorem fieldOutcomesBy_eq_map (fields : List (String × Schema)) :
    fieldOutcomesBy resolve descend fields =
      fields.map fun field => (field.1, outcomeBy resolve descend field.2) := by
  induction fields with
  | nil => rfl
  | cons field rest ih => rw [fieldOutcomesBy, ih, List.map_cons]

theorem outcomeBy_of_leafTest? {schema : Schema} {accepts : Option Json → Bool}
    (found : schema.leafTest? = some accepts) (value : Option Json) :
    outcomeBy resolve descend schema value = .leaf schema accepts value := by
  cases schema <;> cases found <;> rfl

theorem outcomeBy_of_no_parts {schema : Schema} {value : Option Json}
    (inside : schema.looksInside = true) (none : schema.parts? value = none) :
    outcomeBy resolve descend schema value = .unmet schema value := by
  cases schema with
  | array | record | object =>
      rcases value with _ | (_ | _ | _ | _ | _ | _) <;> first | rfl | cases none
  | tuple id positions =>
      rcases value with _ | (_ | _ | _ | _ | elements | _) <;> try rfl
      exact if_neg (length_ne_of_no_parts none)
  | _ => cases inside

/-- The outcome of a container schema is that of its checks, each seen from the container. -/
theorem outcomeBy_of_parts? {schema : Schema} {value : Option Json} {parts : List Part}
    (found : schema.parts? value = some parts) :
    outcomeBy resolve descend schema value =
      .all (parts.map fun part =>
        (outcomeBy resolve descend part.schema part.value).below [part.segment]) := by
  cases checks_of_parts? found with
  | array id item elements =>
      rw [map_mapIdx]
      rfl
  | record id item entries =>
      rw [List.map_map]
      rfl
  | tuple id positions elements sameLength =>
      simp only [outcomeBy, sameLength, if_true, outcomesBy_eq_map, List.zip_map_left, mapIdx_map,
        map_mapIdx]
      rfl
  | object id fields entries =>
      rw [outcomeBy, fieldOutcomesBy_eq_map, List.map_map, List.map_map]
      rfl

theorem outcomeBy_union (id : NodeId) (alternatives : List Schema) (value : Option Json) :
    outcomeBy resolve descend (.union id alternatives) value =
      .choose (.union id alternatives) value
        (alternatives.map fun alternative => outcomeBy resolve descend alternative value) none := by
  change Outcome.choose _ value
    ((outcomesBy resolve descend alternatives).map fun outcome => outcome value) none = _
  rw [outcomesBy_eq_map, List.map_map]
  rfl

theorem outcomeBy_of_error {id : NodeId} {cause : SchemaError} (leads : resolve id = .error cause)
    (value : Option Json) : outcomeBy resolve descend (.reference id) value = .unresolved cause := by
  rw [outcomeBy, leads]

theorem outcomeBy_of_target {id : NodeId} {target : Schema} (leads : resolve id = .ok target)
    (value : Option Json) :
    outcomeBy resolve descend (.reference id) value = descend target value := by
  rw [outcomeBy, leads]

end Equations

/-! ## The verdict of an outcome -/

theorem verdict_outcomeBy {resolve : Resolver} {descend : Schema → Option Json → Outcome}
    {descendMeaning : Schema → Option Json → Verdict}
    (same : ∀ target value, (descend target value).verdict = descendMeaning target value)
    (schema : Schema) (value : Option Json) :
    (outcomeBy resolve descend schema value).verdict =
      meaningBy resolve descendMeaning schema value := by
  induction schema using inductionOnKinds generalizing value with
  | leaf schema accepts found =>
      rw [outcomeBy_of_leafTest? found, meaningBy_of_leafTest? found, Outcome.verdict_leaf]
  | both id first second firstIH secondIH =>
      rw [outcomeBy, meaningBy, Outcome.verdict_both, firstIH, secondIH]
  | either id first second firstIH secondIH =>
      rw [outcomeBy, meaningBy, Outcome.verdict_either, firstIH, secondIH]
  | inside schema inside ih =>
      cases found : schema.parts? value with
      | none =>
          rw [outcomeBy_of_no_parts inside found, meaningBy_of_no_parts inside found]
          rfl
      | some parts =>
          rw [outcomeBy_of_parts? found, meaningBy_of_parts? found, Outcome.verdict_all,
            List.map_map]
          congr 1
          apply List.map_congr_left
          intro part member
          rw [Function.comp_apply, Outcome.verdict_below]
          exact ih part.schema (mem_children_of_mem_parts? found member) part.value
  | union id alternatives ih =>
      rw [outcomeBy_union, meaningBy_union, Outcome.verdict_choose, List.map_map]
      congr 1
      apply List.map_congr_left
      intro alternative member
      exact ih alternative member value
  | reference id =>
      rw [outcomeBy, meaningBy]
      cases resolve id with
      | error cause => rfl
      | ok target => exact same target value

/-- The verdict of an outcome is the meaning. -/
@[simp] theorem verdict_outcome (resolve : Resolver) (budget : Nat) (schema : Schema)
    (value : Option Json) :
    (outcome resolve budget schema value).verdict = meaning resolve budget schema value := by
  induction budget generalizing schema value with
  | zero => exact verdict_outcomeBy (fun _ _ => rfl) schema value
  | succ budget ih => exact verdict_outcomeBy ih schema value

/-! ## The outcome within a budget -/

section Budget

variable (resolve : Resolver) (budget : Nat)

theorem outcome_of_leafTest? {schema : Schema} {accepts : Option Json → Bool}
    (found : schema.leafTest? = some accepts) (value : Option Json) :
    outcome resolve budget schema value = .leaf schema accepts value := by
  cases budget <;> exact outcomeBy_of_leafTest? found value

theorem outcome_both (id : NodeId) (first second : Schema) (value : Option Json) :
    outcome resolve budget (.both id first second) value =
      (outcome resolve budget first value).both (outcome resolve budget second value) := by
  cases budget <;> rfl

theorem outcome_either (id : NodeId) (first second : Schema) (value : Option Json) :
    outcome resolve budget (.either id first second) value =
      (outcome resolve budget first value).either (outcome resolve budget second value) := by
  cases budget <;> rfl

theorem outcome_of_no_parts {schema : Schema} {value : Option Json}
    (inside : schema.looksInside = true) (none : schema.parts? value = none) :
    outcome resolve budget schema value = .unmet schema value := by
  cases budget <;> exact outcomeBy_of_no_parts inside none

theorem outcome_of_parts? {schema : Schema} {value : Option Json} {parts : List Part}
    (found : schema.parts? value = some parts) :
    outcome resolve budget schema value =
      .all (parts.map fun part =>
        (outcome resolve budget part.schema part.value).below [part.segment]) := by
  cases budget <;> exact outcomeBy_of_parts? found

theorem outcome_union (id : NodeId) (alternatives : List Schema) (value : Option Json) :
    outcome resolve budget (.union id alternatives) value =
      .choose (.union id alternatives) value
        (alternatives.map fun alternative => outcome resolve budget alternative value) none := by
  cases budget <;> exact outcomeBy_union id alternatives value

variable {resolve}

theorem outcome_reference_of_error {id : NodeId} {cause : SchemaError}
    (leads : resolve id = .error cause) (value : Option Json) :
    outcome resolve budget (.reference id) value = .unresolved cause := by
  cases budget <;> exact outcomeBy_of_error leads value

theorem outcome_reference_zero {id : NodeId} {target : Schema} (leads : resolve id = .ok target)
    (value : Option Json) : outcome resolve 0 (.reference id) value = .tooDeep [] :=
  outcomeBy_of_target leads value

theorem outcome_reference_succ {id : NodeId} {target : Schema} (leads : resolve id = .ok target)
    (value : Option Json) :
    outcome resolve (budget + 1) (.reference id) value = outcome resolve budget target value :=
  outcomeBy_of_target leads value

end Budget

end Schema

/-! ## Larger budgets -/

namespace Outcome

/-- One outcome stands for good once it is not for want of budget: then the other is the same. -/
def Settles (outcome later : Outcome) : Prop :=
  (∀ trail, outcome ≠ .tooDeep trail) → later = outcome

namespace Settles

variable {first second later next : Outcome}

theorem refl (outcome : Outcome) : outcome.Settles outcome := fun _ => rfl

theorem tooDeep (trail : List Segment) (later : Outcome) : (Outcome.tooDeep trail).Settles later :=
  fun enough => (enough trail rfl).elim

theorem below (settles : first.Settles later) (outer : List Segment) :
    (first.below outer).Settles (later.below outer) := by
  cases first with
  | tooDeep trail => exact tooDeep _ _
  | accepted | rejected failure | unresolved cause =>
      rw [settles (by simp)]
      exact refl _

theorem both (settles : first.Settles later) (secondSettles : second.Settles next) :
    (first.both second).Settles (later.both next) := by
  cases first with
  | tooDeep trail => exact tooDeep _ _
  | accepted =>
      rw [settles (by simp)]
      exact secondSettles
  | rejected failure | unresolved cause =>
      rw [settles (by simp)]
      exact refl _

theorem either (settles : first.Settles later) (secondSettles : second.Settles next) :
    (first.either second).Settles (later.either next) := by
  cases first with
  | tooDeep trail => exact tooDeep _ _
  | rejected failure =>
      rw [settles (by simp)]
      exact secondSettles
  | accepted | unresolved cause =>
      rw [settles (by simp)]
      exact refl _

variable {α : Type} {outcome afterwards : α → Outcome} {items : List α}

theorem all (each : ∀ item ∈ items, (outcome item).Settles (afterwards item)) :
    (Outcome.all (items.map outcome)).Settles (.all (items.map afterwards)) := by
  induction items with
  | nil => exact refl _
  | cons item rest ih =>
      exact both (each item (by simp)) (ih fun other member => each other (by simp [member]))

theorem choose (schema : Schema) (value : Option Json) (best : Option Failure)
    (each : ∀ item ∈ items, (outcome item).Settles (afterwards item)) :
    (Outcome.choose schema value (items.map outcome) best).Settles
      (.choose schema value (items.map afterwards) best) := by
  induction items generalizing best with
  | nil => exact refl _
  | cons item rest ih =>
      have settles := each item (by simp)
      simp only [List.map_cons]
      cases equal : outcome item with
      | tooDeep trail => exact tooDeep trail _
      | rejected failure =>
          rw [settles (by simp [equal]), equal, Outcome.choose, Outcome.choose]
          exact ih _ fun other member => each other (by simp [member])
      | accepted | unresolved cause =>
          rw [settles (by simp [equal]), equal]
          exact refl _

end Settles

end Outcome

/-- An outcome that is not for want of budget is the same within every larger budget. -/
theorem Schema.outcome_settles (resolve : Resolver) {budget larger : Nat} (enough : budget ≤ larger)
    (schema : Schema) (value : Option Json) :
    (schema.outcome resolve budget value).Settles (schema.outcome resolve larger value) := by
  induction budget, schema using inductionOnBudget generalizing larger value with
  | leaf budget schema accepts found =>
      rw [outcome_of_leafTest? resolve budget found, outcome_of_leafTest? resolve larger found]
      exact .refl _
  | both budget id first second firstIH secondIH =>
      rw [outcome_both, outcome_both]
      exact (firstIH enough value).both (secondIH enough value)
  | either budget id first second firstIH secondIH =>
      rw [outcome_either, outcome_either]
      exact (firstIH enough value).either (secondIH enough value)
  | inside budget schema inside ih =>
      cases found : schema.parts? value with
      | none =>
          rw [outcome_of_no_parts resolve _ inside found,
            outcome_of_no_parts resolve _ inside found]
          exact .refl _
      | some parts =>
          rw [outcome_of_parts? resolve _ found, outcome_of_parts? resolve _ found]
          apply Outcome.Settles.all
          intro part member
          have child := mem_children_of_mem_parts? found member
          exact (ih part.schema child enough part.value).below _
  | union budget id alternatives ih =>
      rw [outcome_union, outcome_union]
      apply Outcome.Settles.choose
      intro alternative member
      exact ih alternative member enough value
  | reference budget id ih =>
      cases leads : resolve id with
      | error cause =>
          rw [outcome_reference_of_error _ leads, outcome_reference_of_error _ leads]
          exact .refl _
      | ok target =>
          cases budget with
          | zero =>
              rw [outcome_reference_zero leads]
              exact .tooDeep [] _
          | succ budget =>
              obtain ⟨larger, rfl⟩ : ∃ room, larger = room + 1 := ⟨larger - 1, by omega⟩
              rw [outcome_reference_succ _ leads, outcome_reference_succ _ leads]
              exact ih budget (by omega) target (by omega) value

/-- So a verdict that is not for want of budget is the same within every larger budget. -/
theorem Schema.meaning_of_le (resolve : Resolver) {budget larger : Nat} (enough : budget ≤ larger)
    {schema : Schema} {value : Option Json}
    (settled : schema.meaning resolve budget value ≠ .fault .tooDeep) :
    schema.meaning resolve larger value = schema.meaning resolve budget value := by
  rw [← verdict_outcome, ← verdict_outcome]
  apply congrArg Outcome.verdict
  apply outcome_settles resolve enough schema value
  intro trail tooDeep
  apply settled
  rw [← verdict_outcome, tooDeep]
  rfl

end Assay
