import Assay.Proofs.Expansion
import Assay.Proofs.History

/-!
# References that compile away

A reference that does not lead back to what is being expanded leaves no trace in a source.  What is
written for it is what is written for the schema that it leads to, about the same place and with the
same variables.  In a run it only counts as active while its target is run, so if the limit allows
as many references as are nested anywhere, then all that remains of it is the answer of the target.

So the code of the schema *flattens* to that of a schema without references: the bodies of
expansions take the place of these.  Both are written in the same way, and as long as there is room
for the references that are nested in the first one, both answer as the same test of the value.
-/

namespace Assay

/-! ## Schemas without references -/

namespace Schema

/-- The second schema is the first one with what it leads to in the place of each reference, and so
on inside that.  Its nodes may be new ones. -/
inductive Inlines (resolve : Resolver) : Schema → Schema → Prop where
  | primitive (id other : NodeId) (kind : Primitive) :
      Inlines resolve (.primitive id kind) (.primitive other kind)
  | literal (id other : NodeId) (expected : Literal) :
      Inlines resolve (.literal id expected) (.literal other expected)
  | container (id other : NodeId) (kind : Container) :
      Inlines resolve (.container id kind) (.container other kind)
  | oneOf (id other : NodeId) (members : List Literal) :
      Inlines resolve (.oneOf id members) (.oneOf other members)
  | custom (id other : NodeId) (rule : Rule) :
      Inlines resolve (.custom id rule) (.custom other rule)
  | both (id other : NodeId) {first second left right : Schema} :
      Inlines resolve first left → Inlines resolve second right →
      Inlines resolve (.both id first second) (.both other left right)
  | either (id other : NodeId) {first second left right : Schema} :
      Inlines resolve first left → Inlines resolve second right →
      Inlines resolve (.either id first second) (.either other left right)
  | array (id other : NodeId) {item inlined : Schema} :
      Inlines resolve item inlined → Inlines resolve (.array id item) (.array other inlined)
  | record (id other : NodeId) {item inlined : Schema} :
      Inlines resolve item inlined → Inlines resolve (.record id item) (.record other inlined)
  | tuple (id other : NodeId) (parts : List (Schema × Schema)) :
      (∀ part ∈ parts, Inlines resolve part.1 part.2) →
      Inlines resolve (.tuple id (parts.map (·.1))) (.tuple other (parts.map (·.2)))
  | object (id other : NodeId) (parts : List (String × Schema × Schema)) :
      (∀ part ∈ parts, Inlines resolve part.2.1 part.2.2) →
      Inlines resolve (.object id (parts.map fun part => (part.1, part.2.1)))
        (.object other (parts.map fun part => (part.1, part.2.2)))
  | union (id other : NodeId) (parts : List (Schema × Schema)) :
      (∀ part ∈ parts, Inlines resolve part.1 part.2) →
      Inlines resolve (.union id (parts.map (·.1))) (.union other (parts.map (·.2)))
  | reference {id : NodeId} {target inlined : Schema} :
      resolve id = .ok target → Inlines resolve target inlined →
      Inlines resolve (.reference id) inlined

/-- No reference is found in a schema that is none itself and has none in its parts. -/
theorem not_contains_reference {schema : Schema} {id : NodeId}
    (noReference : schema ≠ .reference id)
    (each : ∀ child ∈ schema.children, ¬ child.Contains (.reference id)) :
    ¬ schema.Contains (.reference id) := by
  intro contains
  rcases contains.cases_head with same | ⟨child, member, further⟩
  · exact noReference same
  · exact each child member further

theorem Inlines.not_contains {resolve : Resolver} {schema inlined : Schema}
    (inlines : Inlines resolve schema inlined) (id : NodeId) :
    ¬ inlined.Contains (.reference id) := by
  induction inlines with
  | primitive | literal | container | oneOf | custom =>
      exact not_contains_reference (by simp) (by simp [children])
  | both _ _ _ _ firstIH secondIH | either _ _ _ _ firstIH secondIH =>
      exact not_contains_reference (by simp) (by simpa [children] using ⟨firstIH, secondIH⟩)
  | array _ _ _ ih | record _ _ _ ih =>
      exact not_contains_reference (by simp) (by simpa [children] using ih)
  | tuple _ _ parts _ ih | union _ _ parts _ ih =>
      refine not_contains_reference (by simp) ?_
      intro child member
      obtain ⟨part, isPart, rfl⟩ := List.mem_map.mp member
      exact ih part isPart
  | object _ _ parts _ ih =>
      refine not_contains_reference (by simp) ?_
      intro child member
      rw [children, List.map_map] at member
      obtain ⟨part, isPart, rfl⟩ := List.mem_map.mp member
      exact ih part isPart
  | reference _ _ ih => exact ih

/-! ## Expansions that never return -/

namespace Visit

variable {resolve : Resolver} {visit later : Visit} {room : Nat} {expanding : List NodeId}
  {schema part target : Schema}

theorem chain_child (member : part ∈ schema.children) :
    Chain resolve ⟨expanding, schema⟩ ⟨expanding, part⟩ :=
  .single (mem_further_iff.mpr (.inl ⟨part, member, rfl⟩))

theorem chain_target {id : NodeId} (leads : resolve id = .ok target)
    (isNew : target.id ∉ expanding) :
    Chain resolve ⟨expanding, .reference id⟩ ⟨target.id :: expanding, target⟩ :=
  .single (mem_further_iff.mpr (.inr ⟨id, target, rfl, leads, isNew, rfl⟩))

/-- No reference that is come to leads to a schema that is being expanded there. -/
def NeverReturns (resolve : Resolver) (visit : Visit) : Prop :=
  ∀ later, Chain resolve visit later → ∀ id target, later.schema = .reference id →
    resolve id = .ok target → target.id ∉ later.expanding

/-- At most `room` references are nested: each that is expanded adds to the schemas being expanded,
and wherever lowering comes to these are at most so many more than here. -/
def NestsWithin (resolve : Resolver) (room : Nat) (visit : Visit) : Prop :=
  ∀ later, Chain resolve visit later → later.expanding.length ≤ visit.expanding.length + room

theorem NeverReturns.of_chain (apart : visit.NeverReturns resolve)
    (chain : Chain resolve visit later) : later.NeverReturns resolve :=
  fun _ further => apart _ (chain.trans further)

theorem NeverReturns.child (apart : NeverReturns resolve ⟨expanding, schema⟩)
    (member : part ∈ schema.children) : NeverReturns resolve ⟨expanding, part⟩ :=
  apart.of_chain (chain_child member)

/-- What is expanded in the place of a reference is a new one. -/
theorem NeverReturns.isNew {id : NodeId} (apart : NeverReturns resolve ⟨expanding, .reference id⟩)
    (leads : resolve id = .ok target) : target.id ∉ expanding :=
  apart _ .refl id target rfl leads

/-- References are nested no deeper than there are rounds, if these are enough. -/
theorem nestsWithin_of_fits (fits : Fits resolve room [schema.id] schema) :
    (root schema).NestsWithin resolve room := by
  intro later chain
  have proper := proper_of_chain chain
  obtain ⟨inner, isInner, leadsTo⟩ := proper.expanding
  have distinct := proper.distinct
  rw [isInner, List.nodup_append] at distinct
  have enough : inner.length ≤ room := by
    apply fits inner distinct.1
    intro id member
    refine ⟨?_, leadsTo id member⟩
    intro isRoot
    exact distinct.2.2 id member id isRoot rfl
  rw [isInner, List.length_append, Nat.add_comm]
  exact Nat.add_le_add_left enough 1

end Visit

theorem exists_inlines_all {resolve : Resolver} {parts : List (Schema × Code)}
    (each : ∀ part ∈ parts, ∃ inlined, Inlines resolve part.1 inlined) :
    ∃ pairs : List (Schema × Schema), parts.map (·.1) = pairs.map (·.1) ∧
      ∀ pair ∈ pairs, Inlines resolve pair.1 pair.2 := by
  induction parts with
  | nil => exact ⟨[], rfl, by simp⟩
  | cons part rest ih =>
      rw [List.forall_mem_cons] at each
      obtain ⟨inlined, inlines⟩ := each.1
      obtain ⟨pairs, same, allInline⟩ := ih each.2
      exact ⟨(part.1, inlined) :: pairs, congrArg (part.1 :: ·) same,
        List.forall_mem_cons.mpr ⟨inlines, allInline⟩⟩

theorem exists_inlines_fields {resolve : Resolver} {parts : List (String × Schema × Code)}
    (each : ∀ part ∈ parts, ∃ inlined, Inlines resolve part.2.1 inlined) :
    ∃ pairs : List (String × Schema × Schema),
      (parts.map fun part => (part.1, part.2.1)) = (pairs.map fun pair => (pair.1, pair.2.1)) ∧
        ∀ pair ∈ pairs, Inlines resolve pair.2.1 pair.2.2 := by
  induction parts with
  | nil => exact ⟨[], rfl, by simp⟩
  | cons part rest ih =>
      rw [List.forall_mem_cons] at each
      obtain ⟨inlined, inlines⟩ := each.1
      obtain ⟨pairs, same, allInline⟩ := ih each.2
      exact ⟨(part.1, part.2.1, inlined) :: pairs, congrArg ((part.1, part.2.1) :: ·) same,
        List.forall_mem_cons.mpr ⟨inlines, allInline⟩⟩

/-- If no expansion returns, then some schema is that which is lowered without its references. -/
theorem exists_inlines {resolve : Resolver} {used expanding : List NodeId} {schema : Schema}
    {code : Code} (lowers : LowersTo resolve used expanding schema code)
    (apart : Visit.NeverReturns resolve ⟨expanding, schema⟩) :
    ∃ inlined, Inlines resolve schema inlined := by
  induction lowers with
  | @leaf _ schema _ _ isLeaf _ =>
      cases schema with
      | primitive id kind => exact ⟨_, .primitive id id kind⟩
      | literal id expected => exact ⟨_, .literal id id expected⟩
      | container id kind => exact ⟨_, .container id id kind⟩
      | oneOf id members => exact ⟨_, .oneOf id id members⟩
      | custom id rule => exact ⟨_, .custom id id rule⟩
      | _ => cases isLeaf
  | both id _ _ firstIH secondIH =>
      obtain ⟨left, first⟩ := firstIH (apart.child (by simp [children]))
      obtain ⟨right, second⟩ := secondIH (apart.child (by simp [children]))
      exact ⟨_, .both id id first second⟩
  | either id _ _ firstIH secondIH =>
      obtain ⟨left, first⟩ := firstIH (apart.child (by simp [children]))
      obtain ⟨right, second⟩ := secondIH (apart.child (by simp [children]))
      exact ⟨_, .either id id first second⟩
  | array id _ ih =>
      obtain ⟨inlined, inlines⟩ := ih (apart.child (by simp [children]))
      exact ⟨_, .array id id inlines⟩
  | record id _ ih =>
      obtain ⟨inlined, inlines⟩ := ih (apart.child (by simp [children]))
      exact ⟨_, .record id id inlines⟩
  | tuple id parts _ ih =>
      obtain ⟨pairs, same, inlines⟩ := exists_inlines_all fun part member =>
        ih part member (apart.child (List.mem_map_of_mem member))
      rw [same]
      exact ⟨_, .tuple id id pairs inlines⟩
  | union id parts _ ih =>
      obtain ⟨pairs, same, inlines⟩ := exists_inlines_all fun part member =>
        ih part member (apart.child (List.mem_map_of_mem member))
      rw [same]
      exact ⟨_, .union id id pairs inlines⟩
  | object id parts _ ih =>
      obtain ⟨pairs, same, inlines⟩ := exists_inlines_fields fun part member =>
        ih part member (apart.child (mem_children_object member id))
      rw [same]
      exact ⟨_, .object id id pairs inlines⟩
  | expanded _ leads _ ih =>
      have chain := Visit.chain_target leads (apart.isNew leads)
      obtain ⟨inlined, inlines⟩ := ih (apart.of_chain chain)
      exact ⟨inlined, .reference leads inlines⟩
  | handover _ _ leads isExpanding => exact (apart.isNew leads isExpanding).elim

end Schema

/-! ## Code without expansions -/

namespace Code

/-- The second code is the first one with their bodies in the place of expansions.  These are nested
at most `room` deep in the first one, and nothing is handed over. -/
inductive Flattens : (room : Nat) → Code → Code → Prop where
  | leaf {room : Nat} {code : Code} {accepts : Option Json → Bool} :
      code.leafTest? = some accepts → Flattens room code code
  | both {room : Nat} {first second left right : Code} :
      Flattens room first left → Flattens room second right →
      Flattens room (.both first second) (.both left right)
  | either {room : Nat} {first second left right : Code} :
      Flattens room first left → Flattens room second right →
      Flattens room (.either first second) (.either left right)
  | array {room : Nat} {item plain : Code} :
      Flattens room item plain → Flattens room (.array item) (.array plain)
  | record {room : Nat} {item plain : Code} :
      Flattens room item plain → Flattens room (.record item) (.record plain)
  | tuple {room : Nat} (parts : List (Code × Code)) :
      (∀ part ∈ parts, Flattens room part.1 part.2) →
      Flattens room (.tuple (parts.map (·.1))) (.tuple (parts.map (·.2)))
  | object {room : Nat} (parts : List (String × Code × Code)) :
      (∀ part ∈ parts, Flattens room part.2.1 part.2.2) →
      Flattens room (.object (parts.map fun part => (part.1, part.2.1)))
        (.object (parts.map fun part => (part.1, part.2.2)))
  | union {room : Nat} (parts : List (Code × Code)) :
      (∀ part ∈ parts, Flattens room part.1 part.2) →
      Flattens room (.union (parts.map (·.1))) (.union (parts.map (·.2)))
  | expanded {room : Nat} {body plain : Code} :
      Flattens room body plain → Flattens (room + 1) (.expanded body) plain

section Source

variable {room : Nat} {code plain : Code}

/-- The second code of a pair is written as the first one is, about every place. -/
abbrev WrittenAlike (pair : Code × Code) : Prop :=
  ∀ place next, pair.2.expressionAt place next = pair.1.expressionAt place next

theorem positionExpressions_congr {parts : List (Code × Code)}
    (alike : ∀ part ∈ parts, WrittenAlike part) (place : Place) (position next : Nat) :
    positionExpressions (parts.map (·.2)) place position next =
      positionExpressions (parts.map (·.1)) place position next := by
  induction parts generalizing position next with
  | nil => rfl
  | cons part rest ih =>
      rw [List.forall_mem_cons] at alike
      simp only [List.map_cons, positionExpressions, alike.1 _ _, ih alike.2]

theorem fieldExpressions_congr {parts : List (String × Code × Code)}
    (alike : ∀ part ∈ parts, WrittenAlike part.2) (place : Place) (next : Nat) :
    fieldExpressions (parts.map fun part => (part.1, part.2.2)) place next =
      fieldExpressions (parts.map fun part => (part.1, part.2.1)) place next := by
  induction parts generalizing next with
  | nil => rfl
  | cons part rest ih =>
      rw [List.forall_mem_cons] at alike
      simp only [List.map_cons, fieldExpressions, alike.1 _ _, ih alike.2]

theorem alternativeExpressions_congr {parts : List (Code × Code)}
    (alike : ∀ part ∈ parts, WrittenAlike part) (place : Place) (next : Nat) :
    alternativeExpressions (parts.map (·.2)) place next =
      alternativeExpressions (parts.map (·.1)) place next := by
  induction parts generalizing next with
  | nil => rfl
  | cons part rest ih =>
      rw [List.forall_mem_cons] at alike
      simp only [List.map_cons, alternativeExpressions, alike.1 _ _, ih alike.2]

/-- An expansion is written as its body is, so flattening changes nothing in a source. -/
theorem Flattens.writtenAlike (flattens : Flattens room code plain) :
    WrittenAlike (code, plain) := by
  intro place next
  induction flattens generalizing place next with
  | leaf => rfl
  | both _ _ firstIH secondIH | either _ _ firstIH secondIH =>
      simp only [expressionAt] at firstIH secondIH ⊢
      simp only [firstIH, secondIH]
  | array _ ih | record _ ih =>
      simp only [expressionAt] at ih ⊢
      simp only [ih]
  | tuple parts _ ih =>
      simp only [expressionAt, List.length_map, positionExpressions_congr ih]
  | object parts _ ih => simp only [expressionAt, fieldExpressions_congr ih]
  | union parts _ ih => simp only [expressionAt, alternativeExpressions_congr ih]
  | expanded _ ih => exact ih place next

theorem Flattens.source_eq (flattens : Flattens room code plain) : plain.source = code.source := by
  rw [source, source, expression, expression, flattens.writtenAlike]

end Source

/-! ## Runs that only test the value -/

/-- A probe answers and changes nothing, as long as the run has not been ended and `room` more
references may become active. -/
def Probe.Answers (probe : Probe) (room : Nat) (accepted : Bool) : Prop :=
  ∀ guard : Guard, guard.faulted = false → room ≤ guard.remaining → probe guard = (accepted, guard)

namespace Probe

variable {room : Nat}

section List

variable {α : Type} {probe : α → Probe} {accepts : α → Bool} {items : List α}

theorem all_answers (each : ∀ item ∈ items, (probe item).Answers room (accepts item)) :
    (Probe.all (items.map probe)).Answers room (items.all accepts) := by
  intro guard clear enough
  induction items with
  | nil => rfl
  | cons item rest ih =>
      rw [List.forall_mem_cons] at each
      simp only [List.map_cons, Probe.all, each.1 guard clear enough, List.all_cons]
      cases accepts item with
      | true => exact ih each.2
      | false => rfl

theorem any_answers (each : ∀ item ∈ items, (probe item).Answers room (accepts item)) :
    (Probe.any (items.map probe)).Answers room (items.any accepts) := by
  intro guard clear enough
  induction items with
  | nil => rfl
  | cons item rest ih =>
      rw [List.forall_mem_cons] at each
      simp only [List.map_cons, Probe.any, each.1 guard clear enough, List.any_cons]
      cases accepts item with
      | true => rfl
      | false => simpa [clear] using ih each.2

end List

/-- The reference that becomes active takes some of the room, and is given up again. -/
theorem framed_answers {probe : Probe} {accepted : Bool} (answers : probe.Answers room accepted) :
    probe.framed.Answers (room + 1) accepted := by
  intro guard clear enough
  have isRoom : ¬ guard.limits.maxDepth ≤ guard.frames := by
    rw [Guard.remaining] at enough
    omega
  have inside := answers { guard with frames := guard.frames + 1 } clear (by
    simp only [Guard.remaining] at enough ⊢
    omega)
  simp only [framed, Guard.enter, if_neg isRoom, inside, Guard.leave, Nat.add_sub_cancel]

end Probe

/-- Code answers as a test of the value does, wherever references lead, as long as `room` more of
them may become active. -/
def Decides (code : Code) (room : Nat) (accepts : Option Json → Bool) : Prop :=
  ∀ resolve value, (run resolve code value).Answers room (accepts value)

namespace Decides

variable {room : Nat} {accepts otherAccepts : Option Json → Bool} {code other : Code}

theorem leaf (isLeaf : code.leafTest? = some accepts) : code.Decides room accepts := by
  intro resolve value guard _ _
  rw [run_of_leafTest? isLeaf]

theorem both (first : code.Decides room accepts) (second : other.Decides room otherAccepts) :
    (Code.both code other).Decides room fun value => accepts value && otherAccepts value := by
  intro resolve value guard clear enough
  simp only [run, Probe.all, first resolve value guard clear enough]
  cases accepts value with
  | true =>
      simp only [second resolve value guard clear enough]
      cases otherAccepts value <;> rfl
  | false => rfl

theorem either (first : code.Decides room accepts) (second : other.Decides room otherAccepts) :
    (Code.either code other).Decides room fun value => accepts value || otherAccepts value := by
  intro resolve value guard clear enough
  simp only [run, Probe.any, first resolve value guard clear enough]
  cases accepts value with
  | true => rfl
  | false =>
      simp only [second resolve value guard clear enough, clear]
      cases otherAccepts value <;> simp [clear]

theorem array (decides : code.Decides room accepts) :
    (Code.array code).Decides room fun
      | some (.array elements) => elements.all fun element => accepts (some element)
      | _ => false := by
  intro resolve value guard clear enough
  rcases value with _ | (_ | _ | _ | _ | elements | _) <;> try rfl
  have each : ∀ element ∈ elements,
      (run resolve code (some element)).Answers room (accepts (some element)) :=
    fun element _ => decides resolve (some element)
  exact Probe.all_answers each guard clear enough

theorem record (decides : code.Decides room accepts) :
    (Code.record code).Decides room fun
      | some (.object entries) => entries.all fun entry => accepts (some entry.2)
      | _ => false := by
  intro resolve value guard clear enough
  rcases value with _ | (_ | _ | _ | _ | _ | entries) <;> try rfl
  have each : ∀ entry ∈ entries,
      (run resolve code (some entry.2)).Answers room (accepts (some entry.2)) :=
    fun entry _ => decides resolve (some entry.2)
  exact Probe.all_answers each guard clear enough

section List

variable {α : Type} {parts : List α} {codeOf : α → Code} {acceptsOf : α → Option Json → Bool}

theorem tuple (each : ∀ part ∈ parts, (codeOf part).Decides room (acceptsOf part)) :
    (Code.tuple (parts.map codeOf)).Decides room fun
      | some (.array elements) => decide (elements.length = parts.length) &&
          (parts.zip elements).all fun pair => acceptsOf pair.1 (some pair.2)
      | _ => false := by
  intro resolve value guard clear enough
  rcases value with _ | (_ | _ | _ | _ | elements | _) <;> try rfl
  by_cases sameLength : elements.length = parts.length
  case pos =>
      rw [run_tuple (by simpa using sameLength), List.zip_map_left, List.map_map]
      have eachPair : ∀ pair ∈ parts.zip elements,
          (run resolve (codeOf pair.1) (some pair.2)).Answers room
            (acceptsOf pair.1 (some pair.2)) :=
        fun pair member => each pair.1 (List.of_mem_zip member).1 resolve (some pair.2)
      have answers := Probe.all_answers eachPair guard clear enough
      simp only [sameLength, decide_true, Bool.true_and]
      exact answers
  case neg =>
      rw [run_tuple_of_ne (by simpa using sameLength)]
      simp [sameLength]

theorem object {nameOf : α → String}
    (each : ∀ part ∈ parts, (codeOf part).Decides room (acceptsOf part)) :
    (Code.object (parts.map fun part => (nameOf part, codeOf part))).Decides room fun
      | some (.object entries) => parts.all fun part =>
          acceptsOf part (entries.lookup (nameOf part))
      | _ => false := by
  intro resolve value guard clear enough
  rcases value with _ | (_ | _ | _ | _ | _ | entries) <;> try rfl
  rw [run_object, List.map_map]
  have eachField : ∀ part ∈ parts,
      (run resolve (codeOf part) (entries.lookup (nameOf part))).Answers room
        (acceptsOf part (entries.lookup (nameOf part))) :=
    fun part member => each part member resolve _
  exact Probe.all_answers eachField guard clear enough

theorem union (each : ∀ part ∈ parts, (codeOf part).Decides room (acceptsOf part)) :
    (Code.union (parts.map codeOf)).Decides room fun value =>
      parts.any fun part => acceptsOf part value := by
  intro resolve value guard clear enough
  rw [run_union, List.map_map]
  have eachAlternative : ∀ part ∈ parts,
      (run resolve (codeOf part) value).Answers room (acceptsOf part value) :=
    fun part member => each part member resolve value
  exact Probe.any_answers eachAlternative guard clear enough

end List

theorem expanded (decides : code.Decides room accepts) :
    (Code.expanded code).Decides (room + 1) accepts :=
  fun resolve value => Probe.framed_answers (decides resolve value)

/-- A check is a run in which no reference is active yet. -/
theorem check_answer (decides : code.Decides room accepts) (resolve : Resolver) {limits : Limits}
    (enough : room ≤ limits.maxDepth) (value : Option Json) :
    (code.check resolve limits value).answer = accepts value := by
  rw [check, decides resolve value { limits } rfl enough]

end Decides

/-- Code and what it flattens to answer as the same test, the one as long as there is room for the
references that are nested in it and the other always. -/
theorem Flattens.exists_decides {room : Nat} {code plain : Code}
    (flattens : Flattens room code plain) :
    ∃ accepts, code.Decides room accepts ∧ plain.Decides 0 accepts := by
  -- The two codes are built in the same way but for expansions, so each case is one lemma, used
  -- with the room and without any.
  induction flattens with
  | leaf isLeaf => exact ⟨_, .leaf isLeaf, .leaf isLeaf⟩
  | both _ _ firstIH secondIH =>
      obtain ⟨_, first, firstPlain⟩ := firstIH
      obtain ⟨_, second, secondPlain⟩ := secondIH
      exact ⟨_, .both first second, .both firstPlain secondPlain⟩
  | either _ _ firstIH secondIH =>
      obtain ⟨_, first, firstPlain⟩ := firstIH
      obtain ⟨_, second, secondPlain⟩ := secondIH
      exact ⟨_, .either first second, .either firstPlain secondPlain⟩
  | array _ ih =>
      obtain ⟨_, decides, plainDecides⟩ := ih
      exact ⟨_, .array decides, .array plainDecides⟩
  | record _ ih =>
      obtain ⟨_, decides, plainDecides⟩ := ih
      exact ⟨_, .record decides, .record plainDecides⟩
  | tuple parts _ ih =>
      choose! accepts each using ih
      exact ⟨_, .tuple fun part member => (each part member).1,
        .tuple fun part member => (each part member).2⟩
  | object parts _ ih =>
      choose! accepts each using ih
      exact ⟨_, .object fun part member => (each part member).1,
        .object fun part member => (each part member).2⟩
  | union parts _ ih =>
      choose! accepts each using ih
      exact ⟨_, .union fun part member => (each part member).1,
        .union fun part member => (each part member).2⟩
  | expanded _ ih =>
      obtain ⟨_, decides, plainDecides⟩ := ih
      exact ⟨_, .expanded decides, plainDecides⟩

/-- Code and what it flattens to check alike, in whatever registries they are checked. -/
theorem Flattens.check_eq {room : Nat} {code plain : Code} (flattens : Flattens room code plain)
    {limits : Limits} (enough : room ≤ limits.maxDepth) (left right : Resolver)
    (value : Option Json) :
    (code.check left limits value).answer = (plain.check right limits value).answer := by
  obtain ⟨accepts, decides, plainDecides⟩ := flattens.exists_decides
  rw [decides.check_answer left enough, plainDecides.check_answer right (Nat.zero_le _)]

end Code

/-! ## Lowering without references -/

namespace Lowering

variable {α β : Type} {relates : α → α → Prop} {relatesNext : β → β → Prop}

/-- Whatever a first lowering gives, a second one gives something related, and it uses no
references. -/
def Mirrors (relates : α → α → Prop) (first second : Lowering α) : Prop :=
  ∀ used value, first.Gives used value → ∃ other, second.Gives [] other ∧ relates value other

theorem Mirrors.pure {value other : α} (related : relates value other) :
    Mirrors relates (pure value) (pure other) := by
  intro used given gives
  rw [gives_pure] at gives
  subst gives
  exact ⟨other, (gives_pure _ _).mpr rfl, related⟩

theorem Mirrors.fail (cause : CompileError) (second : Lowering α) :
    Mirrors relates (fail cause) second :=
  fun _ _ gives => (gives_fail _ _ gives).elim

theorem Mirrors.bind {first second : Lowering α} {next further : α → Lowering β}
    (mirrors : first.Mirrors relates second)
    (nextMirrors : ∀ value other, relates value other →
      (next value).Mirrors relatesNext (further other)) :
    (first >>= next).Mirrors relatesNext (second >>= further) := by
  intro used value gives
  rw [gives_bind] at gives
  obtain ⟨middle, firstGives, nextGives⟩ := gives
  obtain ⟨other, secondGives, related⟩ := mirrors used middle firstGives
  obtain ⟨last, furtherGives, lastRelated⟩ := nextMirrors middle other related used value nextGives
  exact ⟨last, (gives_bind _ _ _).mpr ⟨other, secondGives, furtherGives⟩, lastRelated⟩

end Lowering

namespace Schema

/-- A visit below which the recursion is solved, no expansion returns and references are nested at
most `room` deep. -/
structure Straight (resolve : Resolver) (lowering : List NodeId → Schema → Lowering Code)
    (room : Nat) (visit : Visit) : Prop where
  solves : Solves resolve visit lowering
  apart : visit.NeverReturns resolve
  nests : visit.NestsWithin resolve room

section Straight

variable {resolve other : Resolver} {lowering descend : List NodeId → Schema → Lowering Code}
  {room : Nat} {expanding inside : List NodeId} {schema part target : Schema}

theorem Straight.child (straight : Straight resolve lowering room ⟨expanding, schema⟩)
    (member : part ∈ schema.children) : Straight resolve lowering room ⟨expanding, part⟩ := by
  have chain : Visit.Chain resolve ⟨expanding, schema⟩ ⟨expanding, part⟩ :=
    Visit.chain_child member
  exact ⟨straight.solves.of_chain chain, straight.apart.of_chain chain,
    fun later further => straight.nests later (chain.trans further)⟩

/-- An expansion takes some of the room. -/
theorem Straight.expand {id : NodeId}
    (straight : Straight resolve lowering room ⟨expanding, .reference id⟩)
    (leads : resolve id = .ok target) :
    ∃ fewer, room = fewer + 1 ∧
      Straight resolve lowering fewer ⟨target.id :: expanding, target⟩ := by
  have chain := Visit.chain_target leads (straight.apart.isNew leads)
  have roomForOne : expanding.length + 1 ≤ expanding.length + room := straight.nests _ chain
  obtain ⟨fewer, rfl⟩ := Nat.exists_eq_add_of_le' (Nat.le_of_add_le_add_left roomForOne)
  refine ⟨fewer, rfl, straight.solves.of_chain chain, straight.apart.of_chain chain, ?_⟩
  intro later further
  have within := straight.nests later (chain.trans further)
  simp only [List.length_cons] at within ⊢
  omega

theorem lowerAllBy_flattens {parts : List (Schema × Schema)}
    (each : ∀ part ∈ parts, (lowerBy resolve expanding lowering part.1).Mirrors
      (Code.Flattens room) (lowerBy other inside descend part.2)) :
    (lowerAllBy resolve expanding lowering (parts.map (·.1))).Mirrors
      (fun codes plains => ∃ pairs : List (Code × Code), codes = pairs.map (·.1) ∧
        plains = pairs.map (·.2) ∧ ∀ pair ∈ pairs, pair.1.Flattens room pair.2)
      (lowerAllBy other inside descend (parts.map (·.2))) := by
  induction parts with
  | nil => exact .pure ⟨[], rfl, rfl, by simp⟩
  | cons part rest ih =>
      rw [List.forall_mem_cons] at each
      refine each.1.bind fun code plain flattens => (ih each.2).bind ?_
      rintro _ _ ⟨pairs, rfl, rfl, allFlatten⟩
      exact .pure ⟨(code, plain) :: pairs, rfl, rfl,
        List.forall_mem_cons.mpr ⟨flattens, allFlatten⟩⟩

theorem lowerFieldsBy_flattens {parts : List (String × Schema × Schema)}
    (each : ∀ part ∈ parts, (lowerBy resolve expanding lowering part.2.1).Mirrors
      (Code.Flattens room) (lowerBy other inside descend part.2.2)) :
    (lowerFieldsBy resolve expanding lowering (parts.map fun part => (part.1, part.2.1))).Mirrors
      (fun codes plains => ∃ pairs : List (String × Code × Code),
        codes = (pairs.map fun pair => (pair.1, pair.2.1)) ∧
          plains = (pairs.map fun pair => (pair.1, pair.2.2)) ∧
          ∀ pair ∈ pairs, pair.2.1.Flattens room pair.2.2)
      (lowerFieldsBy other inside descend (parts.map fun part => (part.1, part.2.2))) := by
  induction parts with
  | nil => exact .pure ⟨[], rfl, rfl, by simp⟩
  | cons part rest ih =>
      rw [List.forall_mem_cons] at each
      refine each.1.bind fun code plain flattens => (ih each.2).bind ?_
      rintro _ _ ⟨pairs, rfl, rfl, allFlatten⟩
      exact .pure ⟨(part.1, code, plain) :: pairs, rfl, rfl,
        List.forall_mem_cons.mpr ⟨flattens, allFlatten⟩⟩

/-- If no expansion returns, then lowering a schema gives code that flattens to what the schema
without references is lowered to. -/
theorem Inlines.mirrors {inlined : Schema} (inlines : Inlines resolve schema inlined)
    (straight : Straight resolve lowering room ⟨expanding, schema⟩) :
    (lowerBy resolve expanding lowering schema).Mirrors (Code.Flattens room)
      (lowerBy other inside descend inlined) := by
  induction inlines generalizing expanding room with
  | primitive | literal | container | oneOf => exact .pure (.leaf rfl)
  | custom _ _ rule =>
      simp only [lowerBy, lowerRule]
      split
      · exact .pure (.leaf rfl)
      · exact .fail _ _
  | both _ _ _ _ firstIH secondIH =>
      have first := firstIH (straight.child (by simp [children]))
      have second := secondIH (straight.child (by simp [children]))
      exact first.bind fun _ _ ofFirst => second.bind fun _ _ ofSecond =>
        .pure (.both ofFirst ofSecond)
  | either _ _ _ _ firstIH secondIH =>
      have first := firstIH (straight.child (by simp [children]))
      have second := secondIH (straight.child (by simp [children]))
      exact first.bind fun _ _ ofFirst => second.bind fun _ _ ofSecond =>
        .pure (.either ofFirst ofSecond)
  | array _ _ _ ih =>
      have item := ih (straight.child (by simp [children]))
      exact item.bind fun _ _ flattens => .pure (.array flattens)
  | record _ _ _ ih =>
      have item := ih (straight.child (by simp [children]))
      exact item.bind fun _ _ flattens => .pure (.record flattens)
  | tuple _ _ parts _ ih =>
      have all := lowerAllBy_flattens fun part member =>
        ih part member (straight.child (List.mem_map_of_mem member))
      refine all.bind ?_
      rintro _ _ ⟨pairs, rfl, rfl, flatten⟩
      exact .pure (.tuple pairs flatten)
  | object id _ parts _ ih =>
      have all := lowerFieldsBy_flattens fun part member =>
        ih part member (straight.child (mem_children_object member id))
      refine all.bind ?_
      rintro _ _ ⟨pairs, rfl, rfl, flatten⟩
      exact .pure (.object pairs flatten)
  | union _ _ parts _ ih =>
      have all := lowerAllBy_flattens fun part member =>
        ih part member (straight.child (List.mem_map_of_mem member))
      refine all.bind ?_
      rintro _ _ ⟨pairs, rfl, rfl, flatten⟩
      exact .pure (.union pairs flatten)
  | reference leads _ ih =>
      have isNew := straight.apart.isNew leads
      obtain ⟨fewer, rfl, inside⟩ := straight.expand leads
      intro used code gives
      simp only [lowerBy, lowerReference, leads, if_neg isNew, Lowering.gives_bind,
        Lowering.gives_use, Lowering.gives_pure] at gives
      obtain ⟨_, _, body, bodyGives, rfl⟩ := gives
      rw [inside.solves _ .refl] at bodyGives
      obtain ⟨plain, plainGives, flattens⟩ := ih inside used body bodyGives
      exact ⟨plain, plainGives, .expanded flattens⟩

end Straight

/-- Lowering a schema begins with the schema itself as the one being expanded. -/
theorem exists_lower_eq (references : References) (schema : Schema) :
    ∃ descend, schema.lower references =
      lowerBy references.target [schema.id] descend schema := by
  rw [lower]
  cases references.factories.length with
  | zero => exact ⟨_, rfl⟩
  | succ rounds => exact ⟨_, rfl⟩

/-- A schema without the references of another one is lowered to what the code of the other one
flattens to. -/
theorem Inlines.lower {nodes : Nodes} {registry : Registry} (consistent : registry.Consistent nodes)
    {schema inlined : Schema} {code : Code} {room : Nat}
    (inlines : Inlines registry.target schema inlined)
    (apart : (Visit.root schema).NeverReturns registry.target)
    (nests : (Visit.root schema).NestsWithin registry.target room)
    (lowered : (schema.lower registry.references).result = .ok code) (references : References) :
    ∃ plain, (inlined.lower references).result = .ok plain ∧ code.Flattens room plain := by
  have solves : Solves registry.target (Visit.root schema)
      (lowerWithin registry.target registry.references.factories.length) :=
    solves_lowerWithin (fits_factories consistent _ schema)
  obtain ⟨descend, same⟩ := exists_lower_eq references inlined
  have unfolded : schema.lower registry.references = lowerBy registry.target [schema.id]
      (lowerWithin registry.target registry.references.factories.length) schema :=
    solves (Visit.root schema) .refl
  rw [unfolded] at lowered
  obtain ⟨plain, plainGives, flattens⟩ :=
    inlines.mirrors ⟨solves, apart, nests⟩ _ code ⟨lowered, List.Subset.refl _⟩
  rw [same]
  exact ⟨plain, plainGives.1, flattens⟩

end Schema

namespace Session

open Registry Schema

/-- References that do not lead back compile away.  If none of the references that are come to in
the expansion of a schema leads to what is being expanded there, then there is a schema without
references for it, with what each reference leads to in its place.  Both are compiled to the same
source, in whatever sessions that happens.  And if the limit allows as many references as are nested
anywhere in the expansion, then both routines check alike. -/
theorem references_compile_away (listening : Option Level) (before : List Step) {name : String}
    {schema : Schema} {compiled : Compiled}
    (bound :
      ((start listening).run before).2.registry.references.bindings.lookup name = some schema)
    (result : (((start listening).run before).2.registry.compile schema).1 = .ok compiled)
    (apart : (Visit.root schema).NeverReturns ((start listening).run before).2.registry.target) :
    let resolve := ((start listening).run before).2.registry.target
    (∃ inlined, schema.Inlines resolve inlined) ∧
      ∀ inlined, schema.Inlines resolve inlined →
        (∀ id, ¬ inlined.Contains (.reference id)) ∧
        ∀ otherListening otherSteps,
          let other := ((start otherListening).run otherSteps).2.registry
          (other.routines.lookup inlined.id = none ∨
            ∃ otherName, other.references.bindings.lookup otherName = some inlined) →
          ∃ plain, (other.compile inlined).1 = .ok plain ∧ plain.source = compiled.source ∧
            ∀ limits : Limits, (Visit.root schema).NestsWithin resolve limits.maxDepth →
              ∀ (left right : Registry) (value : Option Json),
                (left.checkCompiled compiled limits value).1 =
                  (right.checkCompiled plain limits value).1 := by
  intro resolve
  obtain ⟨nodes, recollects⟩ := recollects_of_run listening before
  have consistent := recollects.consistent
  have lowered : (schema.lower ((start listening).run before).2.registry.references).result =
      .ok compiled.routine.code := by
    rw [← recollects.compile_code (consistent.bindings name schema bound), result]
    rfl
  refine ⟨exists_inlines (lowersTo_of_lower consistent lowered) apart, ?_⟩
  intro inlined inlines
  refine ⟨inlines.not_contains, ?_⟩
  intro otherListening otherSteps other known
  -- The source is the same whatever the limit is, so the rounds of lowering serve as one.
  have fits := fits_factories consistent [schema.id] schema
  obtain ⟨code, plainLowered, flattens⟩ :=
    inlines.lower consistent apart (Visit.nestsWithin_of_fits fits) lowered other.references
  have compiles : (other.compile inlined).1.map (·.routine.code) = .ok code := by
    rw [← plainLowered]
    rcases known with fresh | ⟨otherName, otherBound⟩
    · exact compile_code_of_fresh fresh
    · obtain ⟨_, otherRecollects⟩ := recollects_of_run otherListening otherSteps
      exact otherRecollects.compile_code
        (otherRecollects.consistent.bindings otherName inlined otherBound)
  cases done : (other.compile inlined).1 with
  | error cause =>
      rw [done] at compiles
      cases compiles
  | ok plain =>
      rw [done] at compiles
      cases compiles
      refine ⟨plain, rfl, flattens.source_eq, ?_⟩
      intro limits nests left right value
      obtain ⟨_, again, flattensWithin⟩ :=
        inlines.lower consistent apart nests lowered other.references
      cases plainLowered.symm.trans again
      exact flattensWithin.check_eq (Nat.le_refl _) left.target right.target value

/-- The two positions of a pair refer to the same lists, and the lists to their elements. -/
theorem references_compile_away_of_lists :
    let steps : List Step :=
      [.define "text" (.word "string"), .define "texts" (.array (.named "text")),
        .define "pair" (.tuple [.named "texts", .named "texts"])]
    let registry := ((start none).run steps).2.registry
    let pair : Schema := .tuple 6 [.reference 4, .reference 5]
    let plainSteps : List Step :=
      [.define "pair" (.tuple [.array (.word "string"), .array (.word "string")])]
    let other := ((start none).run plainSteps).2.registry
    let inlined : Schema :=
      .tuple 5 [.array 2 (.primitive 1 .string), .array 4 (.primitive 3 .string)]
    registry.references.bindings.lookup "pair" = some pair ∧
      (Visit.root pair).NeverReturns registry.target ∧
      ∃ compiled plain, (registry.compile pair).1 = .ok compiled ∧
        (other.compile inlined).1 = .ok plain ∧ plain.source = compiled.source ∧
        ∀ value, (registry.checkCompiled compiled { maxDepth := 2 } value).1 =
          (other.checkCompiled plain { maxDepth := 2 } value).1 := by
  intro steps registry pair plainSteps other inlined
  let texts : Schema := .array 3 (.reference 2)
  let text : Schema := .primitive 1 .string
  let visits : List Visit :=
    [⟨[6], pair⟩, ⟨[6], .reference 4⟩, ⟨[6], .reference 5⟩, ⟨[3, 6], texts⟩, ⟨[3, 6], .reference 2⟩,
      ⟨[1, 3, 6], text⟩]
  have visited : ∀ visit, Visit.Chain registry.target (Visit.root pair) visit → visit ∈ visits := by
    have further : visits.flatMap (Visit.further registry.target) =
        [⟨[6], .reference 4⟩, ⟨[6], .reference 5⟩, ⟨[3, 6], texts⟩, ⟨[3, 6], texts⟩,
          ⟨[3, 6], .reference 2⟩, ⟨[1, 3, 6], text⟩] := rfl
    intro visit chain
    induction chain with
    | refl => exact List.mem_cons_self
    | tail _ isNext ih =>
        have inFurther := List.mem_flatMap.mpr ⟨_, ih, isNext⟩
        rw [further] at inFurther
        simp only [visits, List.mem_cons] at inFurther ⊢
        tauto
  have apart : (Visit.root pair).NeverReturns registry.target := by
    intro later chain id target isReference leads
    have inVisits := visited later chain
    simp only [visits, List.mem_cons, List.not_mem_nil, or_false] at inVisits
    rcases inVisits with rfl | rfl | rfl | rfl | rfl | rfl <;> cases isReference <;>
      (cases leads; decide)
  have nests : (Visit.root pair).NestsWithin registry.target 2 := by
    intro later chain
    have inVisits := visited later chain
    simp only [visits, List.mem_cons, List.not_mem_nil, or_false] at inVisits
    rcases inVisits with rfl | rfl | rfl | rfl | rfl | rfl <;> decide
  have inlines : pair.Inlines registry.target inlined := by
    have inPlace : ∀ id other item, registry.target id = .ok texts →
        Inlines registry.target (.reference id) (.array other (.primitive item .string)) :=
      fun id other item leads => .reference leads (.array 3 other
        (.reference rfl (.primitive 1 item .string)))
    exact .tuple 6 5 [(.reference 4, _), (.reference 5, _)]
      (by simpa using ⟨inPlace 4 2 1 rfl, inPlace 5 4 3 rfl⟩)
  have bound : registry.references.bindings.lookup "pair" = some pair := rfl
  obtain ⟨compiled, result⟩ : ∃ compiled, (registry.compile pair).1 = .ok compiled := ⟨_, rfl⟩
  obtain ⟨_, same⟩ := references_compile_away none steps bound result apart
  obtain ⟨plain, done, sameSource, checks⟩ := (same inlined inlines).2 none plainSteps (.inl rfl)
  exact ⟨bound, apart, compiled, plain, result, done, sameSource,
    checks { maxDepth := 2 } nests registry other⟩

end Session

end Assay
