import Assay.References
import Mathlib.Data.List.Basic

/-!
# What references lead to

A reference leads to a result by its own record, by the schema its factory gives, or by the
reference its factory gives.  The walk along a chain finds this result, and reports a cycle exactly
if there is none: on the way to a result no reference occurs twice, and there are no more references
than factories, so the walk has enough rounds.

From this follows what everything else rests on: recording what a reference leads to changes nothing
about what any reference leads to.
-/

namespace Assay.References

variable {references : References}

/-- A reference leads to a result in a number of further references.  A chain that comes back to
itself leads to nothing, since it never gets to a result. -/
inductive LeadsIn (references : References) : Nat → NodeId → Except SchemaError Schema → Prop where
  | recorded {id : NodeId} {result : Except SchemaError Schema} :
      references.resolved.lookup id = some result → LeadsIn references 0 id result
  | produced {id : NodeId} {schema : Schema} : references.resolved.lookup id = none →
      references.produce? id = some schema → (∀ next, schema ≠ .reference next) →
      LeadsIn references 0 id (.ok schema)
  | follows {steps : Nat} {id next : NodeId} {result : Except SchemaError Schema} :
      references.resolved.lookup id = none → references.produce? id = some (.reference next) →
      LeadsIn references steps next result → LeadsIn references (steps + 1) id result

/-- A reference leads to one result only, and in one number of steps. -/
theorem LeadsIn.unique {steps others : Nat} {id : NodeId} {result other : Except SchemaError Schema}
    (leads : references.LeadsIn steps id result) (alsoLeads : references.LeadsIn others id other) :
    steps = others ∧ result = other := by
  induction leads generalizing others with
  | recorded found =>
      cases alsoLeads with
      | recorded alsoFound => exact ⟨rfl, Option.some.inj (found.symm.trans alsoFound)⟩
      | produced fresh => cases found.symm.trans fresh
      | follows fresh => cases found.symm.trans fresh
  | produced fresh given noReference =>
      cases alsoLeads with
      | recorded found => cases found.symm.trans fresh
      | produced _ alsoGiven =>
          cases given.symm.trans alsoGiven
          exact ⟨rfl, rfl⟩
      | follows _ alsoGiven =>
          cases given.symm.trans alsoGiven
          exact (noReference _ rfl).elim
  | follows fresh given _ ih =>
      cases alsoLeads with
      | recorded found => cases found.symm.trans fresh
      | produced _ alsoGiven noReference =>
          cases given.symm.trans alsoGiven
          exact (noReference _ rfl).elim
      | follows _ alsoGiven rest =>
          cases given.symm.trans alsoGiven
          obtain ⟨sameSteps, sameResult⟩ := ih rest
          exact ⟨by rw [sameSteps], sameResult⟩

/-- A reference that produces something has a factory. -/
theorem mem_factories_of_produce? {id : NodeId} (produces : (references.produce? id).isSome) :
    ∃ factory, (id, factory) ∈ references.factories := by
  cases found : references.factories.lookup id with
  | none => simp [produce?, found] at produces
  | some factory =>
      obtain ⟨before, after, split, _⟩ := List.lookup_eq_some_iff.mp found
      exact ⟨factory, by simp [split]⟩

/-- There are no more references with a factory than factories. -/
theorem length_le_of_produce? {ids : List NodeId} (distinct : ids.Nodup)
    (known : ∀ id ∈ ids, (references.produce? id).isSome) :
    ids.length ≤ references.factories.length := by
  have sameLength : references.factories.length = (references.factories.map (·.1)).length := by
    rw [List.length_map]
  rw [sameLength]
  apply distinct.length_le_of_subset
  intro id member
  obtain ⟨factory, inFactories⟩ := mem_factories_of_produce? (known id member)
  exact List.mem_map.mpr ⟨(id, factory), inFactories, rfl⟩

/-! ## The walk along a chain -/

/-- How a walk ends at a reference that has been settled. -/
def Ending.ofRecorded : Except SchemaError Schema → Ending
  | .ok schema => .reached schema
  | .error cause => .inherited cause

@[simp] theorem Ending.result_ofRecorded (result : Except SchemaError Schema) :
    (Ending.ofRecorded result).result = result := by
  cases result <;> rfl

section Walk

variable {rounds : Nat} {passed : List NodeId} {id : NodeId}

theorem walkFrom_of_none (none : references.produce? id = none) :
    references.walkFrom rounds passed id = ⟨[id], .cycle⟩ := by
  rw [walkFrom, none]

theorem walkFrom_of_schema {schema : Schema} (given : references.produce? id = some schema)
    (noReference : ∀ next, schema ≠ .reference next) :
    references.walkFrom rounds passed id = ⟨[id], .reached schema⟩ := by
  rw [walkFrom, given]
  cases schema with
  | reference next => exact (noReference next rfl).elim
  | _ => rfl

/-- A walk that comes to another reference ends there if that has been passed or settled, or if no
round is left, and otherwise goes on with it. -/
theorem walkFrom_cases (rounds : Nat) (passed : List NodeId) {next : NodeId}
    (given : references.produce? id = some (.reference next)) :
    (next ∈ id :: passed ∧ references.walkFrom rounds passed id = ⟨[id], .cycle⟩) ∨
      next ∉ id :: passed ∧
        ((∃ result, references.resolved.lookup next = some result ∧
            references.walkFrom rounds passed id = ⟨[id], .ofRecorded result⟩) ∨
          references.resolved.lookup next = none ∧
            ((rounds = 0 ∧ references.walkFrom rounds passed id = ⟨[id], .cycle⟩) ∨
              ∃ fewer, rounds = fewer + 1 ∧
                let rest := references.walkFrom fewer (id :: passed) next
                references.walkFrom rounds passed id = ⟨id :: rest.called, rest.ending⟩)) := by
  rw [walkFrom]
  simp only [given]
  by_cases again : next ∈ id :: passed
  case pos =>
      rw [if_pos again]
      exact .inl ⟨again, rfl⟩
  case neg =>
      rw [if_neg again]
      refine .inr ⟨again, ?_⟩
      cases found : references.resolved.lookup next with
      | some result => cases result <;> exact .inl ⟨_, rfl, rfl⟩
      | none =>
          cases rounds with
          | zero => exact .inr ⟨rfl, .inl ⟨rfl, rfl⟩⟩
          | succ fewer => exact .inr ⟨rfl, .inr ⟨fewer, rfl, rfl⟩⟩

end Walk

/-- A walk ends at its first reference or continues with the next one. -/
theorem walkFrom_step (rounds : Nat) (passed : List NodeId) {id : NodeId}
    (fresh : references.resolved.lookup id = none) :
    (references.walkFrom rounds passed id).ending = .cycle ∨
      (∃ steps,
        references.LeadsIn steps id (references.walkFrom rounds passed id).ending.result) ∨
      ∃ next fewer, rounds = fewer + 1 ∧ references.produce? id = some (.reference next) ∧
        references.resolved.lookup next = none ∧
        (references.walkFrom rounds passed id).ending =
          (references.walkFrom fewer (id :: passed) next).ending := by
  cases given : references.produce? id with
  | none => exact .inl (by rw [walkFrom_of_none given])
  | some schema =>
      by_cases isReference : ∃ next, schema = .reference next
      case neg =>
          have noReference : ∀ next, schema ≠ .reference next := fun next same =>
            isReference ⟨next, same⟩
          rw [walkFrom_of_schema given noReference]
          exact .inr (.inl ⟨0, .produced fresh given noReference⟩)
      case pos =>
          obtain ⟨next, rfl⟩ := isReference
          obtain ⟨_, walk⟩ | ⟨_, ⟨result, found, walk⟩ | ⟨unsettled, spent | more⟩⟩ :=
            walkFrom_cases rounds passed given
          · exact .inl (by rw [walk])
          · rw [walk, Ending.result_ofRecorded]
            exact .inr (.inl ⟨1, .follows fresh given (.recorded found)⟩)
          · exact .inl (by rw [spent.2])
          · obtain ⟨fewer, rfl, walk⟩ := more
            exact .inr (.inr ⟨next, fewer, rfl, rfl, unsettled, by rw [walk]⟩)

/-- A walk that does not end in a cycle finds what the reference leads to. -/
theorem leadsIn_of_walkFrom (rounds : Nat) (passed : List NodeId) {id : NodeId}
    (fresh : references.resolved.lookup id = none) :
    (references.walkFrom rounds passed id).ending = .cycle ∨
      ∃ steps,
        references.LeadsIn steps id (references.walkFrom rounds passed id).ending.result := by
  induction rounds generalizing passed id with
  | zero =>
      rcases walkFrom_step 0 passed fresh with cyclic | leads | ⟨_, _, impossible, _⟩
      · exact .inl cyclic
      · exact .inr leads
      · cases impossible
  | succ rounds ih =>
      rcases walkFrom_step (rounds + 1) passed fresh with
        cyclic | leads | ⟨next, fewer, same, given, nextFresh, ending⟩
      · exact .inl cyclic
      · exact .inr leads
      · cases same
        rw [ending]
        exact (ih (id :: passed) nextFresh).imp_right fun ⟨steps, rest⟩ =>
          ⟨steps + 1, .follows fresh given rest⟩

/-- A walk finds the result that a reference leads to.  The references that were passed are further
away from the result, so none of them comes again. -/
theorem walkFrom_of_leadsIn {steps : Nat} {id : NodeId} {result : Except SchemaError Schema}
    (leads : references.LeadsIn steps id result) (fresh : references.resolved.lookup id = none)
    {rounds : Nat} {passed : List NodeId}
    (further : ∀ other ∈ passed, ∃ more > steps, ∃ result, references.LeadsIn more other result)
    (distinct : (id :: passed).Nodup)
    (known : ∀ other ∈ passed, (references.produce? other).isSome)
    (enough : references.factories.length ≤ rounds + passed.length) :
    (references.walkFrom rounds passed id).ending.result = result := by
  induction leads generalizing rounds passed with
  | recorded found => cases found.symm.trans fresh
  | produced _ given noReference => rw [walkFrom_of_schema given noReference, Ending.result]
  | @follows steps id next result _ given rest ih =>
      have furtherNow : ∀ other ∈ id :: passed,
          ∃ more > steps, ∃ result, references.LeadsIn more other result := by
        intro other member
        rcases List.mem_cons.mp member with rfl | isPassed
        · exact ⟨steps + 1, by omega, result, .follows fresh given rest⟩
        · obtain ⟨more, larger, found⟩ := further other isPassed
          exact ⟨more, by omega, found⟩
      have new : next ∉ id :: passed := by
        intro member
        obtain ⟨more, larger, other, alsoLeads⟩ := furtherNow next member
        have := (rest.unique alsoLeads).1
        omega
      have knownNow : ∀ other ∈ id :: passed, (references.produce? other).isSome := by
        intro other member
        rcases List.mem_cons.mp member with rfl | isPassed
        · simp [given]
        · exact known other isPassed
      -- Another reference is passed, so a round is left.
      have bound := length_le_of_produce? distinct knownNow
      rw [List.length_cons] at bound
      obtain ⟨again, _⟩ | ⟨_, ⟨recorded, found, walk⟩ | ⟨unsettled, ⟨spent, _⟩ | more⟩⟩ :=
        walkFrom_cases rounds passed given
      · exact (new again).elim
      · rw [walk, Ending.result_ofRecorded]
        exact ((LeadsIn.recorded found).unique rest).2
      · omega
      · obtain ⟨fewer, rfl, walk⟩ := more
        rw [walk]
        apply ih unsettled furtherNow (List.nodup_cons.mpr ⟨new, distinct⟩) knownNow
        rw [List.length_cons]
        omega

/-! ## The target of a reference -/

section Target

variable {steps : Nat} {id : NodeId} {result : Except SchemaError Schema}

theorem target_of_recorded (found : references.resolved.lookup id = some result) :
    references.target id = result := by
  simp [target, found]

theorem target_of_leadsIn (leads : references.LeadsIn steps id result) :
    references.target id = result := by
  cases found : references.resolved.lookup id with
  | some recorded =>
      rw [target_of_recorded found]
      exact ((LeadsIn.recorded found).unique leads).2
  | none =>
      simp only [target, found]
      exact walkFrom_of_leadsIn leads found (by simp) (by simp) (by simp) (by simp)

/-- A reference that leads to no result is cyclic. -/
theorem target_of_not_leadsIn (nowhere : ∀ steps result, ¬ references.LeadsIn steps id result) :
    references.target id = .error .cyclicReference := by
  cases found : references.resolved.lookup id with
  | some recorded => exact (nowhere 0 recorded (.recorded found)).elim
  | none =>
      simp only [target, found]
      rcases leadsIn_of_walkFrom references.factories.length [] found with
        cyclic | ⟨steps, leads⟩
      · rw [walk, cyclic, Ending.result]
      · exact (nowhere steps _ leads).elim

/-- The target of a reference is the result that it leads to, or that it is cyclic if it leads to
none. -/
theorem target_eq_iff : references.target id = result ↔
    (∃ steps, references.LeadsIn steps id result) ∨
      (∀ steps other, ¬ references.LeadsIn steps id other) ∧ result = .error .cyclicReference := by
  by_cases somewhere : ∃ steps other, references.LeadsIn steps id other
  · obtain ⟨steps, other, leads⟩ := somewhere
    rw [target_of_leadsIn leads]
    constructor
    · rintro rfl
      exact .inl ⟨steps, leads⟩
    · rintro (⟨_, alsoLeads⟩ | ⟨nowhere, _⟩)
      · exact (leads.unique alsoLeads).2
      · exact (nowhere steps other leads).elim
  · have nowhere : ∀ steps other, ¬ references.LeadsIn steps id other :=
      fun steps other leads => somewhere ⟨steps, other, leads⟩
    rw [target_of_not_leadsIn nowhere]
    constructor
    · rintro rfl
      exact .inr ⟨nowhere, rfl⟩
    · rintro (⟨steps, leads⟩ | ⟨_, rfl⟩)
      · exact (nowhere steps result leads).elim
      · rfl

/-- If the records tell of no other errors than cycles, then there are none. -/
theorem cause_of_target
    (recorded : ∀ id cause, references.resolved.lookup id = some (.error cause) →
      cause = .cyclicReference)
    {cause : SchemaError} (fails : references.target id = .error cause) :
    cause = .cyclicReference := by
  rcases target_eq_iff.mp fails with ⟨steps, leads⟩ | ⟨_, same⟩
  · clear fails
    generalize equal : Except.error cause = result at leads
    induction leads with
    | recorded found =>
        subst equal
        exact recorded _ cause found
    | produced => cases equal
    | follows _ _ _ ih => exact ih equal
  · exact Except.error.inj same

/-- A reference whose factory gives another reference leads where the other one leads. -/
theorem target_of_reference {next : NodeId} (fresh : references.resolved.lookup id = none)
    (given : references.produce? id = some (.reference next)) :
    references.target id = references.target next := by
  by_cases somewhere : ∃ steps result, references.LeadsIn steps next result
  · obtain ⟨steps, result, leads⟩ := somewhere
    rw [target_of_leadsIn leads, target_of_leadsIn (.follows fresh given leads)]
  · have nowhere : ∀ steps result, ¬ references.LeadsIn steps next result :=
      fun steps result leads => somewhere ⟨steps, result, leads⟩
    rw [target_of_not_leadsIn nowhere, target_of_not_leadsIn]
    intro steps result leads
    cases leads with
    | recorded found => cases found.symm.trans fresh
    | produced _ alsoGiven noReference =>
        cases given.symm.trans alsoGiven
        exact noReference _ rfl
    | follows _ alsoGiven rest =>
        cases given.symm.trans alsoGiven
        exact nowhere _ _ rest

/-- A schema that a reference leads to was recorded for some reference or is given by the factory of
some reference. -/
theorem source_of_target {schema : Schema} (leads : references.target id = .ok schema) :
    ∃ source, references.resolved.lookup source = some (.ok schema) ∨
      references.produce? source = some schema := by
  by_cases somewhere : ∃ steps result, references.LeadsIn steps id result
  · obtain ⟨steps, result, leadsIn⟩ := somewhere
    cases (target_of_leadsIn leadsIn).symm.trans leads
    generalize same : Except.ok schema = result at leadsIn
    induction leadsIn with
    | recorded found =>
        subst same
        exact ⟨_, .inl found⟩
    | produced _ given _ =>
        cases same
        exact ⟨_, .inr given⟩
    | follows fresh given _ ih => exact ih ((target_of_reference fresh given).symm.trans leads) same
  · have nowhere := fun steps result leadsIn => somewhere ⟨steps, result, leadsIn⟩
    rw [target_of_not_leadsIn nowhere] at leads
    cases leads

/-- A reference that leads to a schema was recorded or has a factory. -/
theorem known_of_target {schema : Schema} (leads : references.target id = .ok schema) :
    references.resolved.lookup id = some (.ok schema) ∨ (references.produce? id).isSome := by
  cases found : references.resolved.lookup id with
  | some recorded =>
      rw [← leads, target_of_recorded found]
      exact .inl rfl
  | none =>
      cases given : references.produce? id with
      | some produced => exact .inr rfl
      | none =>
          rw [target, found, walk, walkFrom_of_none given] at leads
          cases leads

end Target

/-! ## Recording -/

section Record

variable {steps : Nat} {id other : NodeId} {result : Except SchemaError Schema}

theorem lookup_record_self : (references.record id result).resolved.lookup id = some result := by
  simp [record]

theorem lookup_record_of_ne (different : other ≠ id) :
    (references.record id result).resolved.lookup other = references.resolved.lookup other := by
  have differs : (other == id) = false := by simpa using different
  simp [record, List.lookup_cons, differs]

/-- What a reference leads to is still led to after recording what some reference leads to. -/
theorem LeadsIn.record (leads : references.LeadsIn steps other result) (id : NodeId) :
    ∃ steps, (references.record id (references.target id)).LeadsIn steps other result := by
  induction leads with
  | @recorded other result found =>
      by_cases same : other = id
      case pos =>
          subst same
          have isTarget := target_of_recorded found
          exact ⟨0, .recorded (by rw [lookup_record_self, isTarget])⟩
      case neg => exact ⟨0, .recorded (by rw [lookup_record_of_ne same, found])⟩
  | @produced other schema fresh given noReference =>
      by_cases same : other = id
      case pos =>
          subst same
          have isTarget := target_of_leadsIn (.produced fresh given noReference)
          exact ⟨0, .recorded (by rw [lookup_record_self, isTarget])⟩
      case neg =>
          exact ⟨0, .produced (by rw [lookup_record_of_ne same, fresh]) given noReference⟩
  | @follows steps other next result fresh given rest ih =>
      by_cases same : other = id
      case pos =>
          subst same
          have isTarget := target_of_leadsIn (.follows fresh given rest)
          exact ⟨0, .recorded (by rw [lookup_record_self, isTarget])⟩
      case neg =>
          obtain ⟨steps, rest⟩ := ih
          exact ⟨steps + 1, .follows (by rw [lookup_record_of_ne same, fresh]) given rest⟩

/-- What a reference leads to after recording what some reference leads to, it led to before. -/
theorem target_of_leadsIn_record
    (leads : (references.record id (references.target id)).LeadsIn steps other result) :
    references.target other = result := by
  induction leads with
  | @recorded other result found =>
      by_cases same : other = id
      case pos =>
          subst same
          rw [lookup_record_self] at found
          exact Option.some.inj found
      case neg =>
          rw [lookup_record_of_ne same] at found
          exact target_of_recorded found
  | @produced other schema fresh given noReference =>
      have different : other ≠ id := by
        rintro rfl
        rw [lookup_record_self] at fresh
        cases fresh
      rw [lookup_record_of_ne different] at fresh
      exact target_of_leadsIn (.produced fresh given noReference)
  | @follows steps other next result fresh given rest ih =>
      have different : other ≠ id := by
        rintro rfl
        rw [lookup_record_self] at fresh
        cases fresh
      rw [lookup_record_of_ne different] at fresh
      exact (target_of_reference fresh given).trans ih

/-- Recording what a reference leads to changes nothing about what any reference leads to. -/
theorem target_record (references : References) (id : NodeId) :
    (references.record id (references.target id)).target = references.target := by
  funext other
  by_cases somewhere :
      ∃ steps result, (references.record id (references.target id)).LeadsIn steps other result
  · obtain ⟨steps, result, leads⟩ := somewhere
    rw [target_of_leadsIn leads, target_of_leadsIn_record leads]
  · have nowhere := fun steps result leads => somewhere ⟨steps, result, leads⟩
    rw [target_of_not_leadsIn nowhere, target_of_not_leadsIn]
    intro steps result leads
    obtain ⟨steps, leads⟩ := leads.record id
    exact nowhere steps result leads

end Record

end Assay.References
