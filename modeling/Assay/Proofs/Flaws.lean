import Assay.Proofs.Expansion
import Assay.Proofs.History

/-!
# Schemas without code

Two kinds of nodes have no code: a rule without generator, and a reference that leads nowhere.  A
schema is compiled exactly if no such node can be reached from it, and otherwise the result tells of
the first one that lowering comes to.

What lowering comes to is the expansion of the schema: each schema before its parts, these from left
to right, and in the place of a reference what it leads to, unless that is being expanded.  Cutting
the expansion there hides nothing, since what is being expanded is visited further out, and in the
end everything that can be reached is visited.
-/

namespace Assay

/-! ## Failures -/

namespace Lowering

variable {α β : Type}

/-- The cause of a failure. -/
def failure? (lowering : Lowering α) : Option CompileError :=
  match lowering.result with
  | .ok _ => none
  | .error cause => some cause

@[simp] theorem failure?_pure (value : α) : (pure value : Lowering α).failure? = none := rfl

@[simp] theorem failure?_fail (cause : CompileError) :
    (fail cause : Lowering α).failure? = some cause := rfl

@[simp] theorem failure?_use (ids : List NodeId) : (use ids).failure? = none := rfl

theorem failure?_eq_some_iff {lowering : Lowering α} {cause : CompileError} :
    lowering.failure? = some cause ↔ lowering.result = .error cause := by
  rw [failure?]
  cases lowering.result <;> simp

/-- What follows a part fails only if the part does not. -/
theorem failure?_bind {first : Lowering α} {next : α → Lowering β} {rest : Option CompileError}
    (same : ∀ value, (next value).failure? = rest) :
    (first >>= next).failure? = first.failure?.or rest := by
  change (first.andThen next).failure? = _
  rw [andThen]
  cases done : first.result with
  | error cause => simp [failure?, done]
  | ok value =>
      rw [← same value]
      simp [failure?, done]

theorem failure?_bind_pure (first : Lowering α) (make : α → β) :
    (first >>= fun value => pure (make value)).failure? = first.failure? := by
  rw [failure?_bind fun _ => failure?_pure _, Option.or_none]

end Lowering

section FindSome

variable {α β : Type} {found other : α → Option β}

theorem findSome?_cons_or (first : α) (rest : List α) :
    (first :: rest).findSome? found = (found first).or (rest.findSome? found) := by
  rw [List.findSome?_cons]
  cases found first <;> rfl

theorem findSome?_congr {items : List α} (same : ∀ item ∈ items, found item = other item) :
    items.findSome? found = items.findSome? other := by
  induction items with
  | nil => rfl
  | cons first rest ih =>
      rw [List.forall_mem_cons] at same
      rw [findSome?_cons_or, findSome?_cons_or, same.1, ih same.2]

end FindSome

namespace Schema

/-- The reason for which a node has no code, whatever its parts are. -/
def flaw? (resolve : Resolver) : Schema → Option CompileError
  | .custom _ rule =>
      match rule.generate with
      | some _ => none
      | none => some (.missingGenerator rule.description)
  | .reference id =>
      match resolve id with
      | .ok _ => none
      | .error cause => some (.unresolvedReference cause)
  | _ => none

section Failure

variable {resolve : Resolver} {expanding : List NodeId}
  {descend : List NodeId → Schema → Lowering Code}

theorem failure?_lowerAllBy (schemas : List Schema) :
    (lowerAllBy resolve expanding descend schemas).failure? =
      schemas.findSome? fun schema => (lowerBy resolve expanding descend schema).failure? := by
  induction schemas with
  | nil => rfl
  | cons schema rest ih =>
      rw [lowerAllBy, findSome?_cons_or, ← ih]
      exact Lowering.failure?_bind fun _ => Lowering.failure?_bind_pure _ _

theorem failure?_lowerFieldsBy (fields : List (String × Schema)) :
    (lowerFieldsBy resolve expanding descend fields).failure? =
      (fields.map (·.2)).findSome? fun schema =>
        (lowerBy resolve expanding descend schema).failure? := by
  induction fields with
  | nil => rfl
  | cons field rest ih =>
      rw [List.map_cons, findSome?_cons_or, ← ih]
      exact Lowering.failure?_bind fun _ => Lowering.failure?_bind_pure _ _

/-- Lowering a node fails by its own flaw, or else as the first of its parts does that fails. -/
theorem failure?_lowerBy (schema : Schema) (noReference : ∀ id, schema ≠ .reference id) :
    (lowerBy resolve expanding descend schema).failure? =
      (schema.flaw? resolve).or (schema.children.findSome? fun child =>
        (lowerBy resolve expanding descend child).failure?) := by
  cases schema with
  | primitive | literal | container | oneOf => rfl
  | custom id rule =>
      simp only [lowerBy, lowerRule, flaw?]
      cases rule.generate <;> rfl
  | both id first second | either id first second =>
      simp only [lowerBy, flaw?, children, findSome?_cons_or, List.findSome?_nil, Option.none_or,
        Option.or_none]
      exact Lowering.failure?_bind fun _ => Lowering.failure?_bind_pure _ _
  | array id item | record id item =>
      simp only [lowerBy, flaw?, children, findSome?_cons_or, List.findSome?_nil, Option.none_or,
        Option.or_none]
      exact Lowering.failure?_bind_pure _ _
  | tuple id parts | union id parts =>
      simp only [lowerBy, flaw?, children, Option.none_or, ← failure?_lowerAllBy]
      exact Lowering.failure?_bind_pure _ _
  | object id fields =>
      simp only [lowerBy, flaw?, children, Option.none_or, ← failure?_lowerFieldsBy]
      exact Lowering.failure?_bind_pure _ _
  | reference id => exact (noReference id rfl).elim

/-- Lowering a reference fails by its own flaw, or else as what is expanded in its place. -/
theorem failure?_lowerReference (id : NodeId) :
    (lowerReference resolve expanding descend id).failure? =
      ((Schema.reference id).flaw? resolve).or
        ((Visit.further resolve ⟨expanding, .reference id⟩).findSome? fun next =>
          (descend next.expanding next.schema).failure?) := by
  rw [lowerReference, Lowering.failure?_bind fun _ => rfl, Lowering.failure?_use, Option.none_or]
  cases leads : resolve id with
  | error cause => simp [flaw?, leads]
  | ok target =>
      simp only [flaw?, Visit.further, leads, Option.none_or]
      split
      · rfl
      · rw [findSome?_cons_or, List.findSome?_nil, Option.or_none]
        exact Lowering.failure?_bind_pure _ _

/-- If the recursion is solved, then a visit fails by the flaw of its schema, or else as the first
of the visits does that are made from it. -/
theorem Solves.failure?_eq {visit : Visit} (solves : Solves resolve visit descend) :
    (descend visit.expanding visit.schema).failure? =
      (visit.schema.flaw? resolve).or ((visit.further resolve).findSome? fun next =>
        (descend next.expanding next.schema).failure?) := by
  rw [solves visit .refl]
  by_cases isReference : ∃ id, visit.schema = .reference id
  case pos =>
      obtain ⟨expanding, schema⟩ := visit
      obtain ⟨id, rfl⟩ := isReference
      exact failure?_lowerReference id
  case neg =>
      have noReference : ∀ id, visit.schema ≠ .reference id := fun id same => isReference ⟨id, same⟩
      rw [failure?_lowerBy visit.schema noReference, Visit.further_of_ne_reference noReference,
        List.findSome?_map]
      apply congrArg
      apply findSome?_congr
      intro child member
      have isNext : ⟨visit.expanding, child⟩ ∈ visit.further resolve :=
        Visit.mem_further_iff.mpr (.inl ⟨child, member, rfl⟩)
      rw [Function.comp_apply, solves ⟨visit.expanding, child⟩ (.single isNext)]

end Failure

/-! ## The expansion in order -/

/-- The schemas that are visited in turn, when visits are still to be made: each is followed by what
is visited from it, before the others that were to be made. -/
inductive Expands (resolve : Resolver) : List Visit → List Schema → Prop where
  | done : Expands resolve [] []
  | visit {visit : Visit} {pending : List Visit} {visited : List Schema} :
      Expands resolve (visit.further resolve ++ pending) visited →
      Expands resolve (visit :: pending) (visit.schema :: visited)

namespace Expands

variable {resolve : Resolver} {pending others : List Visit} {visited : List Schema}

theorem append {after : List Schema} (expands : Expands resolve pending visited)
    (further : Expands resolve others after) :
    Expands resolve (pending ++ others) (visited ++ after) := by
  induction expands with
  | done => exact further
  | visit _ ih =>
      rw [List.append_assoc] at ih
      exact .visit ih

/-- Visits that end are expanded. -/
theorem exists_of_acc {visit : Visit}
    (ends : Acc (fun later earlier : Visit => later ∈ earlier.further resolve) visit) :
    ∃ visited, Expands resolve [visit] visited := by
  induction ends with
  | intro visit _ ih =>
      obtain ⟨visited, expands⟩ : ∃ visited, Expands resolve (visit.further resolve) visited := by
        generalize visit.further resolve = pending at ih
        induction pending with
        | nil => exact ⟨[], .done⟩
        | cons first rest restIH =>
            obtain ⟨now, expandsFirst⟩ := ih first List.mem_cons_self
            obtain ⟨after, expandsRest⟩ :=
              restIH fun next member => ih next (List.mem_cons_of_mem _ member)
            exact ⟨now ++ after, expandsFirst.append expandsRest⟩
      exact ⟨visit.schema :: visited, .visit (by rwa [List.append_nil])⟩

/-- What is visited is what follows from the visits that were to be made. -/
theorem mem_iff (expands : Expands resolve pending visited) {schema : Schema} :
    schema ∈ visited ↔
      ∃ start ∈ pending, ∃ visit, Visit.Chain resolve start visit ∧ visit.schema = schema := by
  induction expands with
  | done => simp
  | @visit first pending visited _ ih =>
      rw [List.mem_cons, ih]
      constructor
      · rintro (rfl | ⟨start, isStart, visit, chain, same⟩)
        · exact ⟨first, List.mem_cons_self, first, .refl, rfl⟩
        · rcases List.mem_append.mp isStart with isNext | isPending
          · exact ⟨first, List.mem_cons_self, visit, .head isNext chain, same⟩
          · exact ⟨start, List.mem_cons_of_mem _ isPending, visit, chain, same⟩
      · rintro ⟨start, isStart, visit, chain, rfl⟩
        rcases List.mem_cons.mp isStart with rfl | isPending
        · rcases chain.cases_head with rfl | ⟨next, isNext, further⟩
          · exact .inl rfl
          · exact .inr ⟨next, List.mem_append_left _ isNext, visit, further, rfl⟩
        · exact .inr ⟨start, List.mem_append_right _ isPending, visit, chain, rfl⟩

/-- If the recursion is solved, then the first visit that fails does so by the first flaw. -/
theorem findSome?_failure? {lowering : List NodeId → Schema → Lowering Code}
    (expands : Expands resolve pending visited)
    (solves : ∀ start ∈ pending, Solves resolve start lowering) :
    (pending.findSome? fun visit => (lowering visit.expanding visit.schema).failure?) =
      visited.findSome? (flaw? resolve) := by
  induction expands with
  | done => rfl
  | @visit first pending visited _ ih =>
      rw [List.forall_mem_cons] at solves
      have solvesFurther : ∀ next ∈ first.further resolve, Solves resolve next lowering :=
        fun next isNext => solves.1.of_chain (.single isNext)
      have rest := ih (List.forall_mem_append.mpr ⟨solvesFurther, solves.2⟩)
      rw [List.findSome?_append] at rest
      rw [findSome?_cons_or, findSome?_cons_or, solves.1.failure?_eq, Option.or_assoc, rest]

end Expands

/-! ## What is visited -/

section Reached

variable {nodes : Nodes} {registry : Registry} {schema : Schema} {visit : Visit}

/-- Whatever is being expanded at a visit has been visited further out. -/
theorem exists_visit_of_expanding (consistent : registry.Consistent nodes)
    (identified : schema.Identified nodes registry.nextId)
    (chain : Visit.Chain registry.target (Visit.root schema) visit) :
    ∀ id ∈ visit.expanding, ∃ outer, Visit.Chain registry.target (Visit.root schema) outer ∧
      outer.schema.id = id ∧ outer.schema.Identified nodes registry.nextId := by
  induction chain with
  | refl =>
      intro id member
      rw [Visit.root, List.mem_singleton] at member
      exact ⟨Visit.root schema, .refl, member.symm, identified⟩
  | @tail visit next before isNext ih =>
      have chain := before.tail isNext
      rcases Visit.mem_further_iff.mp isNext with ⟨child, _, rfl⟩ | ⟨_, target, _, leads, _, rfl⟩
      · exact ih
      · rw [List.forall_mem_cons]
        exact ⟨⟨_, chain, rfl, consistent.identified_of_target leads⟩, ih⟩

/-- Whatever can be reached from a schema is visited, apart from what stands in for unbound
names. -/
theorem visited_of_reaches (consistent : registry.Consistent nodes)
    (identified : schema.Identified nodes registry.nextId) {reached : Schema}
    (reaches : schema.Reaches registry.target reached) :
    (∃ visit, Visit.Chain registry.target (Visit.root schema) visit ∧ visit.schema = reached) ∨
      ∃ name, reached = References.placeholder name := by
  induction reaches with
  | refl => exact .inl ⟨Visit.root schema, .refl, rfl⟩
  | @tail source following _ next ih =>
      rcases ih with ⟨⟨expanding, source⟩, chain, rfl⟩ | ⟨name, rfl⟩
      · cases next with
        | child isChild =>
            have isNext : ⟨expanding, following⟩ ∈
                Visit.further registry.target ⟨expanding, source⟩ :=
              Visit.mem_further_iff.mpr (.inl ⟨following, isChild, rfl⟩)
            exact .inl ⟨_, chain.tail isNext, rfl⟩
        | @target id _ leads =>
            by_cases isExpanding : following.id ∈ expanding
            case pos =>
                -- The expansion is cut here, but the same node is visited further out.
                obtain ⟨outer, outerChain, sameId, outerIdentified⟩ :=
                  exists_visit_of_expanding consistent identified chain following.id isExpanding
                have same := outerIdentified.eq_or_placeholder
                  (consistent.identified_of_target leads) sameId
                exact same.imp_left fun same => ⟨outer, outerChain, same.symm⟩
            case neg =>
                have isNext : ⟨following.id :: expanding, following⟩ ∈
                    Visit.further registry.target ⟨expanding, .reference id⟩ :=
                  Visit.mem_further_iff.mpr (.inr ⟨id, following, rfl, leads, isExpanding, rfl⟩)
                exact .inl ⟨_, chain.tail isNext, rfl⟩
      · cases next with
        | child isChild => cases isChild

/-- Lowering a schema fails by the first flaw in its expansion. -/
theorem failure?_lower (consistent : registry.Consistent nodes) {visited : List Schema}
    (expands : Expands registry.target [Visit.root schema] visited) :
    (schema.lower registry.references).failure? = visited.findSome? (flaw? registry.target) := by
  have solves : ∀ start ∈ [Visit.root schema],
      Solves registry.target start
        (lowerWithin registry.target registry.references.factories.length) :=
    List.forall_mem_singleton.mpr (solves_lowerWithin (fits_factories consistent _ schema))
  have first := expands.findSome?_failure? solves
  rwa [findSome?_cons_or, List.findSome?_nil, Option.or_none] at first

/-- No schema in the expansion has a flaw exactly if none has that can be reached. -/
theorem findSome?_flaw?_eq_none_iff (consistent : registry.Consistent nodes)
    (identified : schema.Identified nodes registry.nextId) {visited : List Schema}
    (expands : Expands registry.target [Visit.root schema] visited) :
    visited.findSome? (flaw? registry.target) = none ↔
      ∀ reached, schema.Reaches registry.target reached →
        reached.flaw? registry.target = none := by
  rw [List.findSome?_eq_none_iff]
  constructor
  · intro noFlaw reached reaches
    rcases visited_of_reaches consistent identified reaches with ⟨visit, chain, rfl⟩ | ⟨name, rfl⟩
    · apply noFlaw
      exact expands.mem_iff.mpr ⟨_, List.mem_singleton_self _, visit, chain, rfl⟩
    · rfl
  · intro noFlaw inExpansion member
    obtain ⟨start, isRoot, visit, chain, rfl⟩ := expands.mem_iff.mp member
    rw [List.mem_singleton] at isRoot
    subst isRoot
    exact noFlaw visit.schema (Visit.proper_of_chain chain).reached

end Reached

end Schema

namespace Registry.Recollects

variable {nodes : Nodes} {registry : Registry} {schema : Schema}

theorem compile_eq_error_iff (recollects : registry.Recollects nodes)
    (filed : schema.Filed nodes registry.nextId) {cause : CompileError} :
    (registry.compile schema).1 = .error cause ↔
      (schema.lower registry.references).failure? = some cause := by
  rw [Lowering.failure?_eq_some_iff, ← recollects.compile_code filed]
  cases (registry.compile schema).1 <;> simp [Except.map]

theorem exists_compile_eq_ok_iff (recollects : registry.Recollects nodes)
    (filed : schema.Filed nodes registry.nextId) :
    (∃ compiled, (registry.compile schema).1 = .ok compiled) ↔
      (schema.lower registry.references).failure? = none := by
  rw [Lowering.failure?, ← recollects.compile_code filed]
  cases (registry.compile schema).1 <;> simp [Except.map]

end Registry.Recollects

namespace Session

open Registry Schema

/-- Compiling finds the first flaw.  At any time in a session, a schema is compiled exactly if none
of the schemas that can be reached from it is a rule without generator or a cyclic reference.
Otherwise the result tells of the first of these in the expansion of the schema.  When a schema has
been compiled, every reference that can be reached from it is settled.

Whoever compiles it gets that result, if the report on no reference that can be reached asks for the
reference itself.  That needs somebody who sees descriptions, so without one the result is always
got. -/
theorem compile_finds_flaw (listening : Option Level) (steps : List Step) {name : String}
    {schema : Schema}
    (bound :
      ((start listening).run steps).2.registry.references.bindings.lookup name = some schema)
    (routineName : String) :
    let session := ((start listening).run steps).2
    let registry := session.registry
    let after := (session.reply (.compile name routineName)).2.registry
    (∃ visited, Expands registry.target [Visit.root schema] visited) ∧
      (∀ visited, Expands registry.target [Visit.root schema] visited → ∀ cause,
        (registry.compile schema).1 = .error cause ↔
          visited.findSome? (flaw? registry.target) = some cause) ∧
      ((∃ compiled, (registry.compile schema).1 = .ok compiled) ↔
        ∀ reached, schema.Reaches registry.target reached →
          reached.flaw? registry.target = none) ∧
      (∀ id cause, registry.target id = .error cause → cause = .cyclicReference) ∧
      (∀ compiled, (registry.compile schema).1 = .ok compiled →
        ∀ id, schema.Reaches after.target (.reference id) → after.isSettled id = true) ∧
      ((∀ id, schema.Reaches registry.target (.reference id) → id ∉ registry.asked id) →
        after.reentered = registry.reentered) ∧
      (registry.isSeen .debug = false → after.reentered = registry.reentered) := by
  intro session registry after
  obtain ⟨nodes, recollects⟩ := recollects_of_run listening steps
  have filed := recollects.consistent.bindings name schema bound
  have ends := Visit.acc_further (fits_factories recollects.consistent [schema.id] schema)
  obtain ⟨visited, expands⟩ := Expands.exists_of_acc ends
  have inTime (others : ∀ id, schema.Reaches registry.target (.reference id) →
      id ∉ registry.asked id) : after.reentered = registry.reentered := by
    have compiled := reentered_compile fun id used => others id (reaches_of_used used)
    simp only [after, session.registry_reply_compile name routineName bound]
    exact compiled
  refine ⟨⟨visited, expands⟩, ?_, ?_, fun id cause => recollects.cause_of_target, ?_, inTime, ?_⟩
  · intro visited expands cause
    rw [recollects.compile_eq_error_iff filed, failure?_lower recollects.consistent expands]
  · rw [recollects.exists_compile_eq_ok_iff filed, failure?_lower recollects.consistent expands,
      findSome?_flaw?_eq_none_iff recollects.consistent (.inl filed) expands]
  · intro compiled result id reaches
    obtain ⟨_, sound⟩ := sound_of_run listening steps
    obtain ⟨_, backs⟩ := backs_after_compile session sound name routineName bound result
    obtain ⟨_, found⟩ := backs.settled id reaches
    exact isSettled_of_lookup found
  · intro unseen
    apply inTime
    intro id _
    rw [asked_of_unseen unseen]
    exact List.not_mem_nil

/-- A tree is marked by a rule without generator and by a cyclic reference, behind a reference to
the tree itself. -/
theorem compile_finds_flaw_of_trees :
    let positive : Rule :=
      { description := "positive number", accepts := Predicate.holds .positive }
    let steps : List Step :=
      [.define "loop" (.named "loop"),
        .define "tree" (.object [("children", .array (.named "tree")),
          ("mark", .tuple [.custom positive, .bound "loop"])])]
    let registry := ((start none).run steps).2.registry
    let tree : Schema := .object 6 [("children", .array 3 (.reference 2)),
      ("mark", .tuple 5 [.custom 4 positive, .reference 1])]
    registry.references.bindings.lookup "tree" = some tree ∧
      (∃ visited, Expands registry.target [Visit.root tree] visited ∧
        visited.findSome? (flaw? registry.target) = some (.missingGenerator "positive number")) ∧
      ¬ ∀ reached, tree.Reaches registry.target reached →
        reached.flaw? registry.target = none := by
  intro positive steps registry tree
  have bound : registry.references.bindings.lookup "tree" = some tree := rfl
  have failed : (registry.compile tree).1 = .error (.missingGenerator "positive number") := rfl
  obtain ⟨⟨visited, expands⟩, first, compiles, _⟩ := compile_finds_flaw none steps bound "routine"
  refine ⟨bound, ⟨visited, expands, (first visited expands _).mp failed⟩, fun noFlaw => ?_⟩
  obtain ⟨compiled, done⟩ := compiles.mpr noFlaw
  cases failed.symm.trans done

end Session

end Assay
