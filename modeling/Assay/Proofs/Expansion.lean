import Assay.Proofs.Relowering
import Assay.Proofs.Session
import Mathlib.Data.Set.Finite.Lattice

/-!
# The expansion of a schema

Lowering goes through the parts of a schema and, in the place of a reference, through what the
reference leads to, unless that is being expanded already.  Schemas may lead back to themselves, so
the same schema can be visited again and again, and each time inside the expansion of other ones.

Two things get smaller on the way all the same.  A visit of a part is a visit of a smaller schema.
And an expansion takes one of finitely many schemas that references lead to, which is then among
those being expanded.  So the visits end, and the recursion that makes them has one solution,
however many rounds it is given beyond those it needs.
-/

namespace Assay.Schema

/-- A schema that lowering comes to, and the identities of the schemas being expanded there. -/
structure Visit where
  expanding : List NodeId
  schema : Schema

namespace Visit

/-- The visit with which the lowering of a schema begins. -/
def root (schema : Schema) : Visit := ⟨[schema.id], schema⟩

/-- The visits that are made directly from one visit, in order: those of the parts, or that of what
a reference leads to, unless it is being expanded. -/
def further (resolve : Resolver) (visit : Visit) : List Visit :=
  match visit.schema with
  | .reference id =>
      match resolve id with
      | .error _ => []
      | .ok target =>
          if target.id ∈ visit.expanding then [] else [⟨target.id :: visit.expanding, target⟩]
  | schema => schema.children.map fun child => ⟨visit.expanding, child⟩

/-- One visit follows from another, directly or through others. -/
abbrev Chain (resolve : Resolver) : Visit → Visit → Prop :=
  Relation.ReflTransGen fun earlier later => later ∈ earlier.further resolve

section Further

variable {resolve : Resolver} {visit next start : Visit} {rounds : Nat}

theorem mem_further_iff : next ∈ visit.further resolve ↔
    (∃ child ∈ visit.schema.children, next = ⟨visit.expanding, child⟩) ∨
      ∃ id target, visit.schema = .reference id ∧ resolve id = .ok target ∧
        target.id ∉ visit.expanding ∧ next = ⟨target.id :: visit.expanding, target⟩ := by
  obtain ⟨expanding, schema⟩ := visit
  cases schema with
  | reference id =>
      cases leads : resolve id with
      | error cause => simp [further, children, leads]
      | ok target => simp [further, children, leads]
  | _ => simp [further, eq_comm]

theorem further_of_ne_reference (noReference : ∀ id, visit.schema ≠ .reference id) :
    visit.further resolve = visit.schema.children.map fun child => ⟨visit.expanding, child⟩ := by
  obtain ⟨expanding, schema⟩ := visit
  cases schema with
  | reference id => exact (noReference id rfl).elim
  | _ => rfl

/-- From a visit of a schema follow visits of all that it contains. -/
theorem chain_of_contains {part : Schema} (contains : visit.schema.Contains part) :
    Chain resolve visit ⟨visit.expanding, part⟩ := by
  induction contains with
  | refl => exact .refl
  | tail _ member ih => exact ih.tail (mem_further_iff.mpr (.inl ⟨_, member, rfl⟩))

/-- Rounds that are enough for a visit are enough for all that follow from it. -/
theorem fits_of_chain (fits : Fits resolve rounds start.expanding start.schema)
    (chain : Chain resolve start visit) :
    Fits resolve rounds visit.expanding visit.schema := by
  induction chain with
  | refl => exact fits
  | @tail visit next _ member ih =>
      rcases mem_further_iff.mp member with ⟨child, isChild, rfl⟩ | ⟨id, target, isReference, leads,
        isNew, rfl⟩
      · exact ih.of_reaches (.single (.child isChild))
      · rw [isReference] at ih
        obtain ⟨fewer, rfl, inside⟩ := ih.expand .refl leads isNew
        exact inside.mono (Nat.le_succ fewer)

/-- No visit is followed by others without end: an expansion uses up a round, and otherwise the
schemas get smaller. -/
theorem acc_further {expanding : List NodeId} {schema : Schema}
    (fits : Fits resolve rounds expanding schema) :
    Acc (fun later earlier : Visit => later ∈ earlier.further resolve) ⟨expanding, schema⟩ := by
  -- An expansion leads to a schema of any size, so the rounds come before the schema.
  induction rounds using Nat.strongRecOn generalizing expanding schema with
  | ind rounds roundsIH =>
      induction schema using inductionOnChildren with
      | step schema childIH =>
          constructor
          intro next member
          rcases mem_further_iff.mp member with ⟨child, isChild, rfl⟩ | ⟨id, target, isReference,
            leads, isNew, rfl⟩
          · exact childIH child isChild (fits.of_reaches (.single (.child isChild)))
          · change schema = .reference id at isReference
            rw [isReference] at fits
            obtain ⟨fewer, rfl, inside⟩ := fits.expand .refl leads isNew
            exact roundsIH fewer (Nat.lt_succ_self fewer) inside

/-- The schemas being expanded at a visit are different ones, the schema itself further out than all
others, and the others are what references lead to that can be reached from it. -/
structure Proper (resolve : Resolver) (schema : Schema) (visit : Visit) : Prop where
  reached : schema.Reaches resolve visit.schema
  expanding : ∃ inner, visit.expanding = inner ++ [schema.id] ∧
    ∀ id ∈ inner, schema.LeadsTo resolve id
  distinct : visit.expanding.Nodup

theorem proper_of_chain {schema : Schema} (chain : Chain resolve (root schema) visit) :
    visit.Proper resolve schema := by
  induction chain with
  | refl => exact ⟨.refl, ⟨[], rfl, by simp⟩, List.nodup_singleton _⟩
  | tail _ member ih =>
      rcases mem_further_iff.mp member with ⟨child, isChild, rfl⟩ | ⟨id, target, isReference, leads,
        isNew, rfl⟩
      · exact ⟨ih.reached.tail (.child isChild), ih.expanding, ih.distinct⟩
      · have reached := ih.reached
        rw [isReference] at reached
        obtain ⟨inner, isInner, allReached⟩ := ih.expanding
        refine ⟨reached.tail (.target leads), ⟨target.id :: inner, by simp [isInner], ?_⟩,
          List.nodup_cons.mpr ⟨isNew, ih.distinct⟩⟩
        exact List.forall_mem_cons.mpr ⟨⟨id, target, reached, leads, rfl⟩, allReached⟩

end Further

end Visit

/-! ## The recursion of lowering -/

/-- A function lowers whatever follows from a visit as the recursion says. -/
def Solves (resolve : Resolver) (start : Visit)
    (lowering : List NodeId → Schema → Lowering Code) : Prop :=
  ∀ visit, Visit.Chain resolve start visit →
    lowering visit.expanding visit.schema =
      lowerBy resolve visit.expanding lowering visit.schema

section Solves

variable {resolve : Resolver} {start : Visit} {rounds : Nat}
  {lowering other : List NodeId → Schema → Lowering Code}

/-- The code of a schema depends on how the new targets of the references in it are lowered. -/
theorem lowerBy_congr {expanding : List NodeId} (schema : Schema)
    (same : ∀ id target, schema.Contains (.reference id) → resolve id = .ok target →
      target.id ∉ expanding →
      other (target.id :: expanding) target = lowering (target.id :: expanding) target) :
    lowerBy resolve expanding other schema = lowerBy resolve expanding lowering schema := by
  have sameIf : (lowerBy resolve expanding lowering schema).SameIf (AgreeOn resolve resolve)
      (lowerBy resolve expanding other schema) :=
    lowerBy_sameIf schema fun id target contains leads _ isNew _ =>
      same id target contains leads isNew
  exact sameIf fun _ _ => rfl

/-- Rounds beyond those that are enough change nothing. -/
theorem lowerWithin_of_fits {expanding : List NodeId} {schema : Schema} {more : Nat}
    (fits : Fits resolve rounds expanding schema) (alsoFits : Fits resolve more expanding schema) :
    lowerWithin resolve more expanding schema = lowerWithin resolve rounds expanding schema :=
  lowerWithin_sameIf rounds more fits alsoFits fun _ _ => rfl

/-- With enough rounds the recursion is solved. -/
theorem solves_lowerWithin (fits : Fits resolve rounds start.expanding start.schema) :
    Solves resolve start (lowerWithin resolve rounds) := by
  intro visit chain
  have enough := Visit.fits_of_chain fits chain
  exact lowerWithin_of_fits (enough.mono (Nat.le_succ rounds)) enough

theorem Solves.of_chain {visit : Visit} (solves : Solves resolve start lowering)
    (chain : Visit.Chain resolve start visit) : Solves resolve visit lowering :=
  fun later further => solves later (chain.trans further)

/-- The recursion has no other solution. -/
theorem Solves.unique
    (ends : Acc (fun later earlier : Visit => later ∈ earlier.further resolve) start)
    (solves : Solves resolve start lowering) (alsoSolves : Solves resolve start other) :
    other start.expanding start.schema = lowering start.expanding start.schema := by
  -- Between a visit and the expansions inside it lie the visits of its parts, so the hypothesis is
  -- needed for all visits that follow, not only for the next ones.
  have below := ends.transGen
  clear ends
  induction below with
  | intro visit _ ih =>
      rw [solves visit .refl, alsoSolves visit .refl]
      apply lowerBy_congr
      intro id target contains leads isNew
      have toReference : Visit.Chain resolve visit ⟨visit.expanding, .reference id⟩ :=
        Visit.chain_of_contains contains
      have toTarget : ⟨target.id :: visit.expanding, target⟩ ∈
          Visit.further resolve ⟨visit.expanding, .reference id⟩ :=
        Visit.mem_further_iff.mpr (.inr ⟨id, target, rfl, leads, isNew, rfl⟩)
      have chain := toReference.tail toTarget
      exact ih _ (.head' toTarget (Relation.reflTransGen_swap.mpr toReference))
        (solves.of_chain chain) (alsoSolves.of_chain chain)

end Solves

/-! ## Finite graphs -/

theorem finite_contains (schema : Schema) : {part | schema.Contains part}.Finite := by
  induction schema using inductionOnChildren with
  | step schema ih =>
      have below : (⋃ child ∈ {child | child ∈ schema.children},
          {part | child.Contains part}).Finite :=
        (List.finite_toSet schema.children).biUnion ih
      refine (below.insert schema).subset ?_
      intro part contains
      rcases contains.cases_head with rfl | ⟨child, isChild, further⟩
      · exact Set.mem_insert _ _
      · exact .inr (Set.mem_biUnion isChild further)

/-- In a consistent registry finitely many schemas can be reached from a schema: what it contains,
and what the targets of references contain. -/
theorem finite_reaches {nodes : Nodes} {registry : Registry}
    (consistent : registry.Consistent nodes) (schema : Schema) :
    {reached | schema.Reaches registry.target reached}.Finite := by
  let inTarget (id : NodeId) : Set Schema :=
    {part | ∃ target, registry.target id = .ok target ∧ target.Contains part}
  have finiteInTarget : ∀ id, (inTarget id).Finite := by
    intro id
    cases leads : registry.target id with
    | error cause =>
        refine Set.finite_empty.subset ?_
        rintro part ⟨target, alsoLeads, _⟩
        cases leads.symm.trans alsoLeads
    | ok target =>
        refine (finite_contains target).subset ?_
        rintro part ⟨_, alsoLeads, contains⟩
        cases leads.symm.trans alsoLeads
        exact contains
  let factories := registry.references.factories
  have finite : (⋃ factory ∈ {factory | factory ∈ factories}, inTarget factory.1).Finite :=
    (List.finite_toSet factories).biUnion fun factory _ => finiteInTarget factory.1
  refine ((finite_contains schema).union finite).subset ?_
  intro reached reaches
  induction reaches with
  | refl => exact .inl .refl
  | tail _ next ih =>
      cases next with
      | child member =>
          rcases ih with contains | inTargets
          · exact .inl (contains.tail member)
          · obtain ⟨factory, isFactory, target, leads, contains⟩ := Set.mem_iUnion₂.mp inTargets
            exact .inr (Set.mem_biUnion isFactory ⟨target, leads, contains.tail member⟩)
      | target leads =>
          obtain ⟨factory, isFactory⟩ :=
            References.mem_factories_of_produce? (consistent.known_of_target leads)
          exact .inr (Set.mem_biUnion isFactory ⟨_, leads, .refl⟩)

/-- If finitely many schemas can be reached from a schema, then finitely many rounds are enough. -/
theorem exists_fits {resolve : Resolver} {schema : Schema}
    (finite : {reached | schema.Reaches resolve reached}.Finite) (expanding : List NodeId) :
    ∃ rounds, Fits resolve rounds expanding schema := by
  obtain ⟨all, isAll⟩ := finite.exists_finset
  refine ⟨(all.toList.map Schema.id).length, fun ids distinct new => ?_⟩
  apply distinct.length_le_of_subset
  intro id member
  obtain ⟨_, source, target, reaches, leads, rfl⟩ := new id member
  have inAll := (isAll target).mpr (reaches.tail (.target leads))
  exact List.mem_map_of_mem (Finset.mem_toList.mpr inAll)

/-- Lowering ends.  If finitely many schemas can be reached from a schema, however they lead back to
each other, then no visit is followed by others without end, because what is expanded at any of them
is different from the schema itself and from everything else that is being expanded there.  The
recursion that makes the visits has exactly one solution, it is found within finitely many rounds,
and it is what the schema is lowered to in every session. -/
theorem lowering_ends (resolve : Resolver) (schema : Schema)
    (finite : {reached | schema.Reaches resolve reached}.Finite) :
    let root := Visit.root schema
    Acc (fun later earlier : Visit => later ∈ earlier.further resolve) root ∧
      (∀ visit, Visit.Chain resolve root visit → visit.Proper resolve schema) ∧
      ∃ lowering, Solves resolve root lowering ∧
        (∀ other, Solves resolve root other → ∀ visit, Visit.Chain resolve root visit →
          other visit.expanding visit.schema = lowering visit.expanding visit.schema) ∧
        (∃ rounds, ∀ more ≥ rounds, ∀ visit, Visit.Chain resolve root visit →
          visit.schema.lowerWithin resolve more visit.expanding =
            lowering visit.expanding visit.schema) ∧
        ∀ listening steps,
          let references := ((Session.start listening).run steps).2.registry.references
          references.target = resolve → schema.lower references = lowering [schema.id] schema := by
  intro root
  obtain ⟨rounds, fits⟩ := exists_fits finite [schema.id]
  have solves : Solves resolve root (lowerWithin resolve rounds) := solves_lowerWithin fits
  have fitsAt : ∀ visit, Visit.Chain resolve root visit →
      Fits resolve rounds visit.expanding visit.schema :=
    fun visit chain => Visit.fits_of_chain fits chain
  refine ⟨Visit.acc_further fits, fun visit chain => Visit.proper_of_chain chain,
    lowerWithin resolve rounds, solves, ?_, ⟨rounds, ?_⟩, ?_⟩
  · intro other alsoSolves visit chain
    exact (solves.of_chain chain).unique (Visit.acc_further (fitsAt visit chain))
      (alsoSolves.of_chain chain)
  · intro more enough visit chain
    exact lowerWithin_of_fits (fitsAt visit chain) ((fitsAt visit chain).mono enough)
  · rintro listening steps references rfl
    obtain ⟨nodes, sound⟩ := Session.sound_of_run listening steps
    exact lowerWithin_of_fits fits (fits_factories sound.consistent _ schema)

/-- A tree and a list of trees refer to each other, and the tree has the list both as a part and by
a reference. -/
theorem lowering_ends_of_trees :
    let steps : List Step :=
      [.define "list" (.array (.named "tree")),
        .define "tree" (.object [("left", .bound "list"), ("right", .named "list")])]
    let references := ((Session.start none).run steps).2.registry.references
    let list : Schema := .array 2 (.reference 1)
    let tree : Schema := .object 4 [("left", list), ("right", .reference 3)]
    references.bindings.lookup "tree" = some tree ∧
      {reached | tree.Reaches references.target reached}.Finite ∧
      Acc (fun later earlier : Visit => later ∈ earlier.further references.target)
        (Visit.root tree) ∧
      ∃ lowering, Solves references.target (Visit.root tree) lowering ∧
        tree.lower references = lowering [4] tree := by
  intro steps references list tree
  obtain ⟨nodes, sound⟩ := Session.sound_of_run none steps
  have finite := finite_reaches sound.consistent tree
  obtain ⟨ends, _, lowering, solves, _, _, inSessions⟩ :=
    lowering_ends references.target tree finite
  exact ⟨rfl, finite, ends, lowering, solves, inSessions none steps rfl⟩

end Assay.Schema
