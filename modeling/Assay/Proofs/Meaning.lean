import Assay.Proofs.Schema

/-!
# The meaning of schemas

What a schema says about a value, with no run in mind: it accepts, it rejects, or it has nothing to
say because a reference leads nowhere or too many references would be nested.  The number of
references that may be nested is the *budget*.

The meaning is defined by recursion on the schema and the budget.  It knows no place inside the
value, no remembered expectation and no count that goes up and down, so it is what the runs of the
interpreter and of routine code are measured against.
-/

namespace Assay

/-- Why a schema has nothing to say about a value. -/
inductive Halt where
  /-- A reference leads nowhere. -/
  | unresolved (cause : SchemaError)
  /-- The budget is used up. -/
  | tooDeep
  deriving DecidableEq, Repr

/-- What a schema says about a value. -/
inductive Verdict where
  | accept
  | reject
  | fault (halt : Halt)
  deriving DecidableEq, Repr

namespace Verdict

/-- The verdict of a test that looks at the value alone. -/
def ofBool (accepts : Bool) : Verdict := if accepts then .accept else .reject

/-- The second verdict if the first accepts, and otherwise the first. -/
def both : Verdict → Verdict → Verdict
  | .accept, second => second
  | first, _ => first

/-- The second verdict if the first rejects, and otherwise the first. -/
def either : Verdict → Verdict → Verdict
  | .reject, second => second
  | first, _ => first

/-- The first verdict that does not accept, and acceptance if there is none. -/
def all (verdicts : List Verdict) : Verdict := verdicts.foldr both .accept

/-- The first verdict that does not reject, and rejection if there is none. -/
def any (verdicts : List Verdict) : Verdict := verdicts.foldr either .reject

@[simp] theorem all_nil : all [] = .accept := rfl

@[simp] theorem all_cons (first : Verdict) (rest : List Verdict) :
    all (first :: rest) = first.both (all rest) := rfl

@[simp] theorem any_nil : any [] = .reject := rfl

@[simp] theorem any_cons (first : Verdict) (rest : List Verdict) :
    any (first :: rest) = first.either (any rest) := rfl

theorem both_of_ne_accept {first : Verdict} (noAccept : first ≠ .accept) (second : Verdict) :
    first.both second = first := by
  cases first with
  | accept => exact (noAccept rfl).elim
  | reject | fault halt => rfl

@[simp] theorem both_accept (verdict : Verdict) : verdict.both .accept = verdict := by
  cases verdict <;> rfl

@[simp] theorem either_reject (verdict : Verdict) : verdict.either .reject = verdict := by
  cases verdict <;> rfl

end Verdict

namespace Schema

mutual

/-- What a schema says about a value, where `descend` says what the schema says that a reference
leads to. -/
def meaningBy (resolve : Resolver) (descend : Schema → Option Json → Verdict) :
    Schema → Option Json → Verdict
  | .primitive _ kind, value => .ofBool (kind.accepts value)
  | .literal _ expected, value => .ofBool (expected.accepts value)
  | .container _ kind, value => .ofBool (kind.accepts value)
  | .oneOf _ members, value => .ofBool (members.any (·.accepts value))
  | .custom _ rule, value => .ofBool (rule.acceptsOption value)
  | .both _ first second, value =>
      (meaningBy resolve descend first value).both (meaningBy resolve descend second value)
  | .either _ first second, value =>
      (meaningBy resolve descend first value).either (meaningBy resolve descend second value)
  | .array _ item, value =>
      match value with
      | some (.array elements) =>
          .all (elements.map fun element => meaningBy resolve descend item (some element))
      | _ => .reject
  | .record _ item, value =>
      match value with
      | some (.object entries) =>
          .all (entries.map fun entry => meaningBy resolve descend item (some entry.2))
      | _ => .reject
  | .tuple _ positions, value =>
      match value with
      | some (.array elements) =>
          if elements.length = positions.length then
            .all (((meaningsBy resolve descend positions).zip elements).map fun pair =>
              pair.1 (some pair.2))
          else .reject
      | _ => .reject
  | .object _ fields, value =>
      match value with
      | some (.object entries) =>
          .all ((fieldMeaningsBy resolve descend fields).map fun field =>
            field.2 (entries.lookup field.1))
      | _ => .reject
  | .union _ alternatives, value =>
      .any ((meaningsBy resolve descend alternatives).map fun meaning => meaning value)
  | .reference id, value =>
      match resolve id with
      | .error cause => .fault (.unresolved cause)
      | .ok target => descend target value

/-- What several schemas say. -/
def meaningsBy (resolve : Resolver) (descend : Schema → Option Json → Verdict) :
    List Schema → List (Option Json → Verdict)
  | [] => []
  | schema :: rest => meaningBy resolve descend schema :: meaningsBy resolve descend rest

/-- What the schemas of declared fields say. -/
def fieldMeaningsBy (resolve : Resolver) (descend : Schema → Option Json → Verdict) :
    List (String × Schema) → List (String × (Option Json → Verdict))
  | [] => []
  | (name, schema) :: rest =>
      (name, meaningBy resolve descend schema) :: fieldMeaningsBy resolve descend rest

end

/-- What a schema says about a value within a budget. -/
def meaning (resolve : Resolver) : (budget : Nat) → Schema → Option Json → Verdict
  | 0 => meaningBy resolve fun _ _ => .fault .tooDeep
  | budget + 1 => meaningBy resolve (meaning resolve budget)

variable {resolve : Resolver} {descend : Schema → Option Json → Verdict}

theorem meaningsBy_eq_map (schemas : List Schema) :
    meaningsBy resolve descend schemas = schemas.map (meaningBy resolve descend) := by
  induction schemas with
  | nil => rfl
  | cons schema rest ih => rw [meaningsBy, ih, List.map_cons]

theorem fieldMeaningsBy_eq_map (fields : List (String × Schema)) :
    fieldMeaningsBy resolve descend fields =
      fields.map fun field => (field.1, meaningBy resolve descend field.2) := by
  induction fields with
  | nil => rfl
  | cons field rest ih => rw [fieldMeaningsBy, ih, List.map_cons]

theorem meaningBy_of_leafTest? {schema : Schema} {accepts : Option Json → Bool}
    (found : schema.leafTest? = some accepts) (value : Option Json) :
    meaningBy resolve descend schema value = .ofBool (accepts value) := by
  cases schema <;> cases found <;> rfl

/-- A container schema rejects what is not the container it asks for. -/
theorem meaningBy_of_no_parts {schema : Schema} {value : Option Json}
    (inside : schema.looksInside = true) (none : schema.parts? value = none) :
    meaningBy resolve descend schema value = .reject := by
  cases schema with
  | array | record | object =>
      rcases value with _ | (_ | _ | _ | _ | _ | _) <;> first | rfl | cases none
  | tuple id positions =>
      rcases value with _ | (_ | _ | _ | _ | elements | _) <;> try rfl
      exact if_neg (length_ne_of_no_parts none)
  | _ => cases inside

theorem meaningBy_tuple (id : NodeId) {positions : List Schema} {elements : List Json}
    (sameLength : elements.length = positions.length) :
    meaningBy resolve descend (.tuple id positions) (some (.array elements)) =
      .all ((positions.zip elements).map fun pair =>
        meaningBy resolve descend pair.1 (some pair.2)) := by
  rw [meaningBy, if_pos sameLength, meaningsBy_eq_map, List.zip_map_left, List.map_map]
  rfl

theorem meaningBy_object (id : NodeId) (fields : List (String × Schema))
    (entries : List (String × Json)) :
    meaningBy resolve descend (.object id fields) (some (.object entries)) =
      .all (fields.map fun field =>
        meaningBy resolve descend field.2 (entries.lookup field.1)) := by
  rw [meaningBy, fieldMeaningsBy_eq_map, List.map_map]
  rfl

/-- A container schema says what its checks say. -/
theorem meaningBy_of_parts? {schema : Schema} {value : Option Json} {parts : List Part}
    (found : schema.parts? value = some parts) :
    meaningBy resolve descend schema value =
      .all (parts.map fun part => meaningBy resolve descend part.schema part.value) := by
  cases checks_of_parts? found with
  | array id item elements =>
      rw [map_mapIdx]
      exact congrArg Verdict.all (mapIdx_eq_map _ _).symm
  | record id item entries =>
      rw [List.map_map]
      rfl
  | tuple id positions elements sameLength =>
      rw [meaningBy_tuple id sameLength, map_mapIdx]
      exact congrArg Verdict.all (mapIdx_eq_map _ _).symm
  | object id fields entries =>
      rw [meaningBy_object, List.map_map]
      rfl

theorem meaningBy_union (id : NodeId) (alternatives : List Schema) (value : Option Json) :
    meaningBy resolve descend (.union id alternatives) value =
      .any (alternatives.map fun alternative => meaningBy resolve descend alternative value) := by
  change Verdict.any ((meaningsBy resolve descend alternatives).map fun meaning => meaning value) = _
  rw [meaningsBy_eq_map, List.map_map]
  rfl

theorem meaningBy_of_target {id : NodeId} {target : Schema} (leads : resolve id = .ok target)
    (value : Option Json) :
    meaningBy resolve descend (.reference id) value = descend target value := by
  rw [meaningBy, leads]

/-! ## The meaning within a budget -/

section Budget

variable (resolve : Resolver) (budget : Nat)

theorem meaning_of_leafTest? {schema : Schema} {accepts : Option Json → Bool}
    (found : schema.leafTest? = some accepts) (value : Option Json) :
    meaning resolve budget schema value = .ofBool (accepts value) := by
  cases budget <;> exact meaningBy_of_leafTest? found value

theorem meaning_both (id : NodeId) (first second : Schema) (value : Option Json) :
    meaning resolve budget (.both id first second) value =
      (meaning resolve budget first value).both (meaning resolve budget second value) := by
  cases budget <;> rfl

theorem meaning_either (id : NodeId) (first second : Schema) (value : Option Json) :
    meaning resolve budget (.either id first second) value =
      (meaning resolve budget first value).either (meaning resolve budget second value) := by
  cases budget <;> rfl

theorem meaning_of_no_parts {schema : Schema} {value : Option Json}
    (inside : schema.looksInside = true) (none : schema.parts? value = none) :
    meaning resolve budget schema value = .reject := by
  cases budget <;> exact meaningBy_of_no_parts inside none

theorem meaning_array (id : NodeId) (item : Schema) (elements : List Json) :
    meaning resolve budget (.array id item) (some (.array elements)) =
      .all (elements.map fun element => meaning resolve budget item (some element)) := by
  cases budget <;> rfl

theorem meaning_record (id : NodeId) (item : Schema) (entries : List (String × Json)) :
    meaning resolve budget (.record id item) (some (.object entries)) =
      .all (entries.map fun entry => meaning resolve budget item (some entry.2)) := by
  cases budget <;> rfl

theorem meaning_tuple (id : NodeId) {positions : List Schema} {elements : List Json}
    (sameLength : elements.length = positions.length) :
    meaning resolve budget (.tuple id positions) (some (.array elements)) =
      .all ((positions.zip elements).map fun pair =>
        meaning resolve budget pair.1 (some pair.2)) := by
  cases budget <;> exact meaningBy_tuple id sameLength

theorem meaning_object (id : NodeId) (fields : List (String × Schema))
    (entries : List (String × Json)) :
    meaning resolve budget (.object id fields) (some (.object entries)) =
      .all (fields.map fun field =>
        meaning resolve budget field.2 (entries.lookup field.1)) := by
  cases budget <;> exact meaningBy_object id fields entries

theorem meaning_union (id : NodeId) (alternatives : List Schema) (value : Option Json) :
    meaning resolve budget (.union id alternatives) value =
      .any (alternatives.map fun alternative => meaning resolve budget alternative value) := by
  cases budget <;> exact meaningBy_union id alternatives value

variable {resolve}

theorem meaning_reference_zero {id : NodeId} {target : Schema} (leads : resolve id = .ok target)
    (value : Option Json) : meaning resolve 0 (.reference id) value = .fault .tooDeep :=
  meaningBy_of_target leads value

theorem meaning_reference_succ {id : NodeId} {target : Schema} (leads : resolve id = .ok target)
    (value : Option Json) :
    meaning resolve (budget + 1) (.reference id) value = meaning resolve budget target value :=
  meaningBy_of_target leads value

end Budget

end Schema

end Assay
