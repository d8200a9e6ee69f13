import Assay.Proofs.Registry

/-!
# Chains of references

The chain of a reference is what its factory gives, what the factory of that gives, and so on.  What
a reference leads to is the first schema on its chain that is no reference, and a reference is
cyclic if its chain never comes to one.

This says nothing about what has been recorded, although a walk takes a short way over every record
that it meets.  Nor does it depend on the order in which references were settled: a record never
says anything else than the chain does, as long as the factories give what they gave.
-/

namespace Assay.References

variable {references : References}

/-- The same references with nothing recorded. -/
def forget (references : References) : References := { references with resolved := [] }

/-! ## The walk without a bound -/

/-- A walk along a chain, with no bound on its rounds.  It can only be derived if the walk comes to
an end by itself. -/
inductive Follows (references : References) : (passed : List NodeId) → NodeId → Walk → Prop where
  | lost {passed : List NodeId} {id : NodeId} :
      references.produce? id = none → Follows references passed id ⟨[id], .cycle⟩
  | reached {passed : List NodeId} {id : NodeId} {schema : Schema} :
      references.produce? id = some schema → (∀ next, schema ≠ .reference next) →
      Follows references passed id ⟨[id], .reached schema⟩
  | again {passed : List NodeId} {id next : NodeId} :
      references.produce? id = some (.reference next) → next ∈ id :: passed →
      Follows references passed id ⟨[id], .cycle⟩
  | settled {passed : List NodeId} {id next : NodeId} {result : Except SchemaError Schema} :
      references.produce? id = some (.reference next) → next ∉ id :: passed →
      references.resolved.lookup next = some result →
      Follows references passed id ⟨[id], .ofRecorded result⟩
  | onward {passed : List NodeId} {id next : NodeId} {rest : Walk} :
      references.produce? id = some (.reference next) → next ∉ id :: passed →
      references.resolved.lookup next = none → Follows references (id :: passed) next rest →
      Follows references passed id ⟨id :: rest.called, rest.ending⟩

/-- A walk comes to its end before its rounds are used up: all references that it passes are
different and have a factory. -/
theorem follows_walkFrom (rounds : Nat) {passed : List NodeId} {id : NodeId}
    (distinct : (id :: passed).Nodup)
    (known : ∀ other ∈ passed, (references.produce? other).isSome)
    (enough : references.factories.length ≤ rounds + passed.length) :
    references.Follows passed id (references.walkFrom rounds passed id) := by
  induction rounds generalizing passed id with
  | zero =>
      cases given : references.produce? id with
      | none => rw [walkFrom_of_none given]; exact .lost given
      | some schema =>
          -- One reference more would have been passed than there are factories.
          have room := length_le_of_produce? distinct
            (List.forall_mem_cons.mpr ⟨by simp [given], known⟩)
          rw [List.length_cons] at room
          omega
  | succ rounds ih =>
      cases given : references.produce? id with
      | none => rw [walkFrom_of_none given]; exact .lost given
      | some schema =>
          by_cases isReference : ∃ next, schema = .reference next
          case neg =>
              have noReference : ∀ next, schema ≠ .reference next :=
                fun next same => isReference ⟨next, same⟩
              rw [walkFrom_of_schema given noReference]
              exact .reached given noReference
          case pos =>
              obtain ⟨next, rfl⟩ := isReference
              obtain ⟨again, walk⟩ | ⟨new, ⟨result, found, walk⟩ | ⟨unsettled, ⟨spent, _⟩ | more⟩⟩ :=
                walkFrom_cases (rounds + 1) passed given
              · rw [walk]
                exact .again given again
              · rw [walk]
                exact .settled given new found
              · cases spent
              · obtain ⟨fewer, same, walk⟩ := more
                cases same
                rw [walk]
                apply Follows.onward given new unsettled
                apply ih (List.nodup_cons.mpr ⟨new, distinct⟩)
                · exact List.forall_mem_cons.mpr ⟨by simp [given], known⟩
                · rw [List.length_cons]
                  omega

theorem follows_walk (references : References) (id : NodeId) :
    references.Follows [] id (references.walk id) :=
  follows_walkFrom _ (by simp) (by simp) (by simp)

namespace Follows

variable {passed : List NodeId} {id other : NodeId} {walk : Walk}

/-- A walk calls the factory that it starts with. -/
theorem mem_called (follows : references.Follows passed id walk) : id ∈ walk.called := by
  cases follows <;> simp

/-- A walk calls no factory twice, and none of a reference that was passed. -/
theorem called_nodup (follows : references.Follows passed id walk) (new : id ∉ passed) :
    walk.called.Nodup ∧ ∀ other ∈ walk.called, other ∉ passed := by
  induction follows with
  | lost | reached | again | settled => simpa using new
  | onward _ isNew _ _ ih =>
      obtain ⟨distinct, apart⟩ := ih isNew
      refine ⟨List.nodup_cons.mpr ⟨fun member => apart _ member (by simp), distinct⟩, ?_⟩
      refine List.forall_mem_cons.mpr ⟨new, fun other member isPassed => ?_⟩
      exact apart other member (by simp [isPassed])

/-- There is only one walk along a chain. -/
theorem unique {others : Walk} (follows : references.Follows passed id walk)
    (alsoFollows : references.Follows passed id others) : others = walk := by
  induction follows generalizing others with
  | lost given =>
      cases alsoFollows with
      | lost => rfl
      | reached other | again other | settled other | onward other => cases given.symm.trans other
  | reached given noReference =>
      cases alsoFollows with
      | lost other => cases given.symm.trans other
      | reached other => cases given.symm.trans other; rfl
      | again other | settled other | onward other =>
          cases given.symm.trans other
          exact (noReference _ rfl).elim
  | again given isPassed =>
      cases alsoFollows with
      | lost other => cases given.symm.trans other
      | reached other noReference =>
          cases given.symm.trans other
          exact (noReference _ rfl).elim
      | again => rfl
      | settled other new | onward other new =>
          cases given.symm.trans other
          exact (new isPassed).elim
  | settled given new found =>
      cases alsoFollows with
      | lost other => cases given.symm.trans other
      | reached other noReference =>
          cases given.symm.trans other
          exact (noReference _ rfl).elim
      | again other isPassed =>
          cases given.symm.trans other
          exact (new isPassed).elim
      | settled other _ alsoFound =>
          cases given.symm.trans other
          cases found.symm.trans alsoFound
          rfl
      | onward other _ fresh =>
          cases given.symm.trans other
          cases found.symm.trans fresh
  | onward given new fresh _ ih =>
      cases alsoFollows with
      | lost other => cases given.symm.trans other
      | reached other noReference =>
          cases given.symm.trans other
          exact (noReference _ rfl).elim
      | again other isPassed =>
          cases given.symm.trans other
          exact (new isPassed).elim
      | settled other _ found =>
          cases given.symm.trans other
          cases fresh.symm.trans found
      | onward other _ _ rest =>
          cases given.symm.trans other
          rw [ih rest]

/-- Behind its first reference a walk only calls factories of references that have not been
settled. -/
theorem fresh_of_called (follows : references.Follows passed id walk)
    (member : other ∈ walk.called) :
    other = id ∨ references.resolved.lookup other = none := by
  induction follows with
  | lost | reached | again | settled => exact .inl (by simpa using member)
  | onward _ _ fresh _ ih =>
      rcases List.mem_cons.mp member with same | isRest
      · exact .inl same
      · rcases ih isRest with rfl | alsoFresh
        · exact .inr fresh
        · exact .inr alsoFresh

/-- Behind its first reference a walk comes to each reference from another one. -/
theorem given_of_called (follows : references.Follows passed id walk)
    (member : other ∈ walk.called) :
    other = id ∨
      ∃ source, source ≠ other ∧ references.produce? source = some (.reference other) := by
  induction follows with
  | lost | reached | again | settled => exact .inl (by simpa using member)
  | onward given new _ _ ih =>
      rcases List.mem_cons.mp member with same | isRest
      · exact .inl same
      · rcases ih isRest with rfl | isGiven
        · refine .inr ⟨_, ?_, given⟩
          rintro rfl
          exact new (by simp)
        · exact .inr isGiven

/-- Whatever comes on the chain behind a reference that a walk calls is called as well, has been
passed before or has been settled. -/
theorem next_of_called {source next : NodeId} (follows : references.Follows passed id walk)
    (member : source ∈ walk.called) (gives : references.produce? source = some (.reference next)) :
    next ∈ walk.called ∨ next ∈ passed ∨
      ∃ result, references.resolved.lookup next = some result := by
  induction follows with
  | lost given =>
      cases List.mem_singleton.mp member
      cases given.symm.trans gives
  | reached given noReference =>
      cases List.mem_singleton.mp member
      cases given.symm.trans gives
      exact (noReference _ rfl).elim
  | again given isPassed =>
      cases List.mem_singleton.mp member
      cases given.symm.trans gives
      rcases List.mem_cons.mp isPassed with rfl | further
      · exact .inl member
      · exact .inr (.inl further)
  | settled given _ found =>
      cases List.mem_singleton.mp member
      cases given.symm.trans gives
      exact .inr (.inr ⟨_, found⟩)
  | onward given _ _ rest ih =>
      rcases List.mem_cons.mp member with rfl | isRest
      · cases given.symm.trans gives
        exact .inl (List.mem_cons_of_mem _ rest.mem_called)
      · rcases ih isRest with isCalled | isPassed | settled
        · exact .inl (List.mem_cons_of_mem _ isCalled)
        · rcases List.mem_cons.mp isPassed with rfl | further
          · exact .inl (by simp)
          · exact .inr (.inl further)
        · exact .inr (.inr settled)

end Follows

/-! ## Chains -/

/-- A reference comes on the chain of another one. -/
abbrev OnChain (references : References) : NodeId → NodeId → Prop :=
  Relation.ReflTransGen fun source next => references.produce? source = some (.reference next)

/-- What comes on the chain of a reference after its own factory and those of `position` further
references have been called. -/
def chain (references : References) : (position : Nat) → NodeId → Option Schema
  | 0, id => references.produce? id
  | position + 1, id =>
      match references.produce? id with
      | some (.reference next) => references.chain position next
      | _ => none

/-- The chain of a reference comes to a schema that is no reference, and ends there. -/
def ChainReaches (references : References) (id : NodeId) (schema : Schema) : Prop :=
  (∃ position, references.chain position id = some schema) ∧ ∀ next, schema ≠ .reference next

theorem chain_of_reference {id next : NodeId}
    (given : references.produce? id = some (.reference next)) (position : Nat) :
    references.chain (position + 1) id = references.chain position next := by
  rw [chain, given]

/-- Without any records, a reference leads to what its chain reaches. -/
theorem exists_leadsIn_forget_iff {id : NodeId} {schema : Schema} :
    (∃ steps, references.forget.LeadsIn steps id (.ok schema)) ↔
      references.ChainReaches id schema := by
  constructor
  · rintro ⟨steps, leads⟩
    generalize same : Except.ok schema = result at leads
    induction leads with
    | recorded found => cases found
    | produced _ given noReference =>
        cases same
        exact ⟨⟨0, given⟩, noReference⟩
    | follows _ given _ ih =>
        obtain ⟨⟨position, reached⟩, noReference⟩ := ih same
        have given : references.produce? _ = some (.reference _) := given
        exact ⟨⟨position + 1, (chain_of_reference given position).trans reached⟩, noReference⟩
  · rintro ⟨⟨position, reached⟩, noReference⟩
    induction position generalizing id with
    | zero => exact ⟨0, .produced rfl reached noReference⟩
    | succ position ih =>
        cases given : references.produce? id with
        | none => simp [chain, given] at reached
        | some produced =>
            cases produced with
            | reference next =>
                rw [chain_of_reference given] at reached
                obtain ⟨steps, leads⟩ := ih reached
                exact ⟨steps + 1, .follows rfl given leads⟩
            | _ => simp [chain, given] at reached

/-- Without any records, nothing but a schema is ever led to. -/
theorem ok_of_leadsIn_forget {steps : Nat} {id : NodeId} {result : Except SchemaError Schema}
    (leads : references.forget.LeadsIn steps id result) : ∃ schema, result = .ok schema := by
  induction leads with
  | recorded found => cases found
  | produced => exact ⟨_, rfl⟩
  | follows _ _ _ ih => exact ih

theorem target_forget_eq_ok_iff {id : NodeId} {schema : Schema} :
    references.forget.target id = .ok schema ↔ references.ChainReaches id schema := by
  rw [target_eq_iff, exists_leadsIn_forget_iff]
  simp

theorem target_forget_eq_error_iff {id : NodeId} {cause : SchemaError} :
    references.forget.target id = .error cause ↔
      cause = .cyclicReference ∧ ∀ schema, ¬ references.ChainReaches id schema := by
  rw [target_eq_iff]
  constructor
  · rintro (⟨steps, leads⟩ | ⟨nowhere, same⟩)
    · obtain ⟨schema, impossible⟩ := ok_of_leadsIn_forget leads
      cases impossible
    · refine ⟨Except.error.inj same, fun schema reaches => ?_⟩
      obtain ⟨steps, leads⟩ := exists_leadsIn_forget_iff.mpr reaches
      exact nowhere steps _ leads
  · rintro ⟨rfl, never⟩
    refine .inr ⟨fun steps result leads => ?_, rfl⟩
    obtain ⟨schema, rfl⟩ := ok_of_leadsIn_forget leads
    exact never schema (exists_leadsIn_forget_iff.mp ⟨steps, leads⟩)

/-- What the chain of a reference reaches depends on the factories of the references on it. -/
theorem ChainReaches.of_same {other : References} {id : NodeId} {schema : Schema}
    (reaches : references.ChainReaches id schema)
    (same : ∀ next, references.OnChain id next → other.produce? next = references.produce? next) :
    other.ChainReaches id schema := by
  obtain ⟨⟨position, reached⟩, noReference⟩ := reaches
  refine ⟨⟨position, ?_⟩, noReference⟩
  induction position generalizing id with
  | zero => exact (same id .refl).trans reached
  | succ position ih =>
      cases given : references.produce? id with
      | none => simp [chain, given] at reached
      | some produced =>
          cases produced with
          | reference next =>
              rw [chain_of_reference given] at reached
              rw [chain_of_reference ((same id .refl).trans given)]
              exact ih (fun further onChain => same further (.head given onChain)) reached
          | _ => simp [chain, given] at reached

/-- Where a reference leads without any records depends on the factories of the references on its
chain. -/
theorem target_forget_of_same {other : References} {id : NodeId}
    (same : ∀ next, references.OnChain id next → other.produce? next = references.produce? next) :
    other.forget.target id = references.forget.target id := by
  cases leads : references.forget.target id with
  | ok schema =>
      exact target_forget_eq_ok_iff.mpr ((target_forget_eq_ok_iff.mp leads).of_same same)
  | error cause =>
      obtain ⟨isCyclic, never⟩ := target_forget_eq_error_iff.mp leads
      refine target_forget_eq_error_iff.mpr ⟨isCyclic, fun schema reaches => never schema ?_⟩
      -- The two chains are the same, so the other way round the same argument applies.
      apply reaches.of_same
      intro next onChain
      have onBoth : references.OnChain id next := by
        induction onChain with
        | refl => exact .refl
        | tail _ given ih => exact ih.tail ((same _ ih).symm.trans given)
      exact (same next onBoth).symm

/-! ## Records that agree with the chains -/

/-- The records say nothing else than the factories do. -/
def Faithful (references : References) : Prop := references.target = references.forget.target

/-- It is enough to know this of every single record. -/
theorem faithful_of_recorded
    (each : ∀ id result, references.resolved.lookup id = some result →
      references.forget.target id = result) : references.Faithful := by
  funext id
  by_cases somewhere : ∃ steps result, references.LeadsIn steps id result
  · obtain ⟨steps, result, leads⟩ := somewhere
    rw [target_of_leadsIn leads]
    induction leads with
    | recorded found => exact (each _ _ found).symm
    | @produced id _ _ given noReference =>
        have leads : references.forget.LeadsIn 0 id _ := .produced rfl given noReference
        exact (target_of_leadsIn leads).symm
    | @follows _ id next _ _ given _ ih =>
        have same : references.forget.target id = references.forget.target next :=
          target_of_reference rfl given
        exact ih.trans same.symm
  · have nowhere := fun steps result leads => somewhere ⟨steps, result, leads⟩
    rw [target_of_not_leadsIn nowhere, target_of_not_leadsIn]
    intro steps result leads
    -- The way to a result meets a record, or else it is a way with the records as well.
    obtain ⟨steps, result, alsoLeads⟩ :
        ∃ steps result, references.LeadsIn steps id result := by
      clear somewhere nowhere
      induction leads with
      | recorded found => cases found
      | @produced id schema _ given noReference =>
          cases found : references.resolved.lookup id with
          | some recorded => exact ⟨0, recorded, .recorded found⟩
          | none => exact ⟨0, _, .produced found given noReference⟩
      | @follows _ id _ _ _ given _ ih =>
          obtain ⟨steps, result, leads⟩ := ih
          cases found : references.resolved.lookup id with
          | some recorded => exact ⟨0, recorded, .recorded found⟩
          | none => exact ⟨steps + 1, result, .follows found given leads⟩
    exact nowhere steps result alsoLeads

end Assay.References

namespace Assay.Registry

open References

variable {before after registry : Registry}

/-- Settling references leaves the records as faithful as they were. -/
theorem Settles.faithful (settles : before.Settles after) (faithful : before.references.Faithful) :
    after.references.Faithful := by
  have sameForgotten : after.references.forget = before.references.forget := by
    rw [forget, forget, settles.bindings, settles.factories]
  calc after.references.target
    _ = before.references.target := settles.target
    _ = before.references.forget.target := faithful
    _ = after.references.forget.target := by rw [sameForgotten]

/-- What a reference leads to is told by its chain alone.  Whichever references have been settled
before and in whatever order, a walk along its chain comes to an end, and what is recorded is the
first schema on the chain that is no reference, or that the reference is cyclic if the chain never
comes to one.

Whoever asks for the reference gets that answer, unless the reference is settled anew and the report
on it asks for it as well.  If the report on no reference does, then none is ever asked for while it
is being settled. -/
theorem settle_finds_chain (bindings : List (String × Schema))
    (factories : List (NodeId × Factory)) (listening : Option Level) (earlier : List NodeId)
    (id : NodeId) :
    let fresh : Registry := { references := { bindings, factories }, listening }
    let registry := earlier.foldl settle fresh
    (registry.references.resolved.lookup id = none → ∃ walk,
        (∀ other, registry.references.Follows [] id other ↔ other = walk) ∧
          walk.ending.result = registry.target id) ∧
      (registry.settle id).references.resolved.lookup id = some (registry.target id) ∧
      (∀ schema, registry.target id = .ok schema ↔ fresh.references.ChainReaches id schema) ∧
      (∀ cause, registry.target id = .error cause ↔
        cause = .cyclicReference ∧ ∀ schema, ¬ fresh.references.ChainReaches id schema) ∧
      (∀ other : List NodeId, (other.foldl settle fresh).target id = registry.target id) ∧
      ((registry.settle id).reentered = registry.reentered ↔
        (registry.isSettled id = false → id ∉ fresh.asked id)) ∧
      ((∀ other ∈ earlier ++ [id], other ∉ fresh.asked other) →
        (registry.settle id).reentered = []) ∧
      (fresh.isSeen .debug = false → (registry.settle id).reentered = []) := by
  intro fresh registry
  have settles : ∀ others : List NodeId, fresh.Settles (others.foldl settle fresh) :=
    fun others => .foldl settle_settles others fresh
  have sameTarget : registry.target = fresh.references.forget.target := (settles earlier).target
  have sameAsked : registry.asked = fresh.asked := (uses_foldl_settle earlier fresh).asked
  have never (others : ∀ other ∈ earlier ++ [id], other ∉ fresh.asked other) :
      (registry.settle id).reentered = [] := by
    have all := reentered_foldl_settle others
    rwa [List.foldl_append] at all
  refine ⟨?_, registry.lookup_settle id, ?_, ?_, ?_, ?_, never, ?_⟩
  · intro unsettled
    have follows := follows_walk registry.references id
    refine ⟨registry.references.walk id, fun other => ⟨follows.unique, ?_⟩,
      (target_of_fresh unsettled).symm⟩
    rintro rfl
    exact follows
  · intro schema
    rw [sameTarget]
    exact target_forget_eq_ok_iff
  · intro cause
    rw [sameTarget]
    exact target_forget_eq_error_iff
  · intro other
    rw [sameTarget, (settles other).target]
    rfl
  · rw [← sameAsked]
    exact registry.reentered_settle_iff id
  · intro unseen
    apply never
    intro other _
    rw [asked_of_unseen unseen]
    exact List.not_mem_nil

/-- The first reference leads into a cycle of the other two and is no part of it. -/
example :
    let references : References := { factories :=
      [(1, .fixed (.reference 2)), (2, .fixed (.reference 3)), (3, .fixed (.reference 2))] }
    (({ references } : Registry).settle 3).target 1 = .error .cyclicReference := by
  cbv

end Assay.Registry
