import Assay.Proofs.Consultation
import Assay.Proofs.Lowering

/-!
# Lowering a schema again

Lowering asks what references lead to and enters each of them into the list of those it uses.  So it
gives the same code, or fails in the same way, wherever these lead to the same: a label is the same
because the references that it mentions are used as well.  It does not matter either how many rounds
there are, as long as they are enough, so lowering is not affected by references that are added
later.

Every reference that is used can be reached from the schema.
-/

namespace Assay

namespace Lowering

variable {α β : Type} {agree : NodeId → Prop}

/-- A second lowering is the same as a first one, if all references that the first uses have a
property. -/
def SameIf (agree : NodeId → Prop) (first second : Lowering α) : Prop :=
  (∀ id ∈ first.used, agree id) → second = first

theorem SameIf.refl (lowering : Lowering α) : lowering.SameIf agree lowering := fun _ => rfl

theorem used_bind_of_error {first : Lowering α} {next : α → Lowering β} {cause : CompileError}
    (failed : first.result = .error cause) : (first >>= next).used = first.used := by
  change (first.andThen next).used = _
  rw [andThen, failed]

theorem used_bind_of_ok {first : Lowering α} {next : α → Lowering β} {value : α}
    (done : first.result = .ok value) :
    (first >>= next).used = first.used ++ (next value).used := by
  change (first.andThen next).used = _
  rw [andThen, done]

theorem bind_congr {first : Lowering α} {next other : α → Lowering β}
    (same : ∀ value, first.result = .ok value → other value = next value) :
    first >>= other = first >>= next := by
  change first.andThen other = first.andThen next
  rw [andThen, andThen]
  cases done : first.result with
  | error cause => rfl
  | ok value => simp only [same value done]

theorem SameIf.bind {first second : Lowering α} {next other : α → Lowering β}
    (same : first.SameIf agree second)
    (nextSame : ∀ value, (next value).SameIf agree (other value)) :
    (first >>= next).SameIf agree (second >>= other) := by
  intro agreeAll
  cases done : first.result with
  | error cause =>
      rw [used_bind_of_error done] at agreeAll
      rw [same agreeAll]
      exact bind_congr fun value alsoDone => by cases done.symm.trans alsoDone
  | ok value =>
      rw [used_bind_of_ok done] at agreeAll
      rw [same fun id member => agreeAll id (List.mem_append_left _ member)]
      apply bind_congr
      intro value alsoDone
      cases done.symm.trans alsoDone
      exact nextSame value fun id member => agreeAll id (List.mem_append_right _ member)

/-- All references that a lowering uses have a property. -/
def OnlyUses (allowed : NodeId → Prop) (lowering : Lowering α) : Prop :=
  ∀ id ∈ lowering.used, allowed id

theorem OnlyUses.pure (allowed : NodeId → Prop) (value : α) :
    (Pure.pure value : Lowering α).OnlyUses allowed :=
  List.forall_mem_nil allowed

theorem OnlyUses.fail (allowed : NodeId → Prop) (cause : CompileError) :
    (Lowering.fail cause : Lowering α).OnlyUses allowed :=
  List.forall_mem_nil allowed

theorem OnlyUses.bind {first : Lowering α} {next : α → Lowering β} (ofFirst : first.OnlyUses agree)
    (ofNext : ∀ value, (next value).OnlyUses agree) : (first >>= next).OnlyUses agree := by
  cases done : first.result with
  | error cause =>
      rw [OnlyUses, used_bind_of_error done]
      exact ofFirst
  | ok value =>
      rw [OnlyUses, used_bind_of_ok done]
      exact fun id member => (List.mem_append.mp member).elim (ofFirst id) (ofNext value id)

end Lowering

namespace Schema

section Used

variable {resolve : Resolver} {allowed : NodeId → Prop} {expanding : List NodeId}
  {descend : List NodeId → Schema → Lowering Code}

theorem lowerAllBy_onlyUses {schemas : List Schema}
    (each : ∀ schema ∈ schemas, (lowerBy resolve expanding descend schema).OnlyUses allowed) :
    (lowerAllBy resolve expanding descend schemas).OnlyUses allowed := by
  induction schemas with
  | nil => exact .pure allowed _
  | cons schema rest ih =>
      obtain ⟨ofSchema, ofRest⟩ := List.forall_mem_cons.mp each
      exact ofSchema.bind fun _ => (ih ofRest).bind fun _ => .pure allowed _

theorem lowerFieldsBy_onlyUses {fields : List (String × Schema)}
    (each : ∀ field ∈ fields, (lowerBy resolve expanding descend field.2).OnlyUses allowed) :
    (lowerFieldsBy resolve expanding descend fields).OnlyUses allowed := by
  induction fields with
  | nil => exact .pure allowed _
  | cons field rest ih =>
      obtain ⟨name, schema⟩ := field
      obtain ⟨ofField, ofRest⟩ := List.forall_mem_cons.mp each
      exact ofField.bind fun _ => (ih ofRest).bind fun _ => .pure allowed _

theorem lowerBy_onlyUses (schema : Schema)
    (references : ∀ id, schema.Contains (.reference id) →
      (lowerReference resolve expanding descend id).OnlyUses allowed) :
    (lowerBy resolve expanding descend schema).OnlyUses allowed := by
  induction schema using inductionOnChildren with
  | step schema ih =>
      have each : ∀ child ∈ schema.children,
          (lowerBy resolve expanding descend child).OnlyUses allowed :=
        fun child member => ih child member fun id contains => references id (.head member contains)
      cases schema with
      | primitive | literal | container | oneOf => exact .pure allowed _
      | custom id rule =>
          rw [lowerBy, lowerRule]
          split
          · exact .pure allowed _
          · exact .fail allowed _
      | both id first second | either id first second =>
          exact (each first (by simp [children])).bind fun _ =>
            (each second (by simp [children])).bind fun _ => .pure allowed _
      | array id item | record id item =>
          exact (each item (by simp [children])).bind fun _ => .pure allowed _
      | tuple id parts | union id parts =>
          exact (lowerAllBy_onlyUses each).bind fun _ => .pure allowed _
      | object id fields =>
          have eachField : ∀ field ∈ fields,
              (lowerBy resolve expanding descend field.2).OnlyUses allowed :=
            fun field member => each field.2 (List.mem_map_of_mem member)
          exact (lowerFieldsBy_onlyUses eachField).bind fun _ => .pure allowed _
      | reference id => exact references id .refl

theorem handover_onlyUses {target : Schema}
    (isAllowed : ∀ id, target.Reaches resolve (.reference id) → allowed id) :
    (handover resolve target).OnlyUses allowed :=
  Lowering.OnlyUses.bind
    (fun mention mentioned => isAllowed mention (reaches_of_mentionsWithin mentioned))
    fun _ => .pure allowed _

theorem lowerReference_onlyUses {id : NodeId}
    (isAllowed : ∀ other, Reaches resolve (.reference id) (.reference other) → allowed other)
    (continues : ∀ expanding target,
      (∀ other, target.Reaches resolve (.reference other) → allowed other) →
      (descend expanding target).OnlyUses allowed) :
    (lowerReference resolve expanding descend id).OnlyUses allowed := by
  refine Lowering.OnlyUses.bind (List.forall_mem_singleton.mpr (isAllowed id .refl)) fun _ => ?_
  cases leads : resolve id with
  | error cause => exact .fail allowed _
  | ok target =>
      have ofTarget := fun other reaches => isAllowed other (.head (.target leads) reaches)
      dsimp only
      split
      · exact handover_onlyUses ofTarget
      · exact (continues _ target ofTarget).bind fun _ => .pure allowed _

/-- Lowering uses only references that can be reached from the schema. -/
theorem lowerWithin_onlyUses (rounds : Nat) {schema : Schema}
    (isAllowed : ∀ id, schema.Reaches resolve (.reference id) → allowed id) :
    (lowerWithin resolve rounds expanding schema).OnlyUses allowed := by
  have fromReference {schema : Schema}
      (isAllowed : ∀ id, schema.Reaches resolve (.reference id) → allowed id) {id : NodeId}
      (contains : schema.Contains (.reference id)) (other : NodeId)
      (reaches : Reaches resolve (.reference id) (.reference other)) : allowed other :=
    isAllowed other ((reaches_of_contains contains resolve).trans reaches)
  induction rounds generalizing expanding schema with
  | zero =>
      apply lowerBy_onlyUses
      intro id contains
      exact lowerReference_onlyUses (fromReference isAllowed contains) fun _ _ => handover_onlyUses
  | succ rounds ih =>
      apply lowerBy_onlyUses
      intro id contains
      exact lowerReference_onlyUses (fromReference isAllowed contains) fun _ _ => ih

end Used

section Congruence

variable {left right : Resolver} {expanding : List NodeId}
  {descend descendAgain : List NodeId → Schema → Lowering Code}

/-- Two resolvers lead a reference to the same result. -/
abbrev AgreeOn (left right : Resolver) (id : NodeId) : Prop := right id = left id

theorem handover_sameIf (target : Schema) :
    (handover left target).SameIf (AgreeOn left right) (handover right target) := by
  intro agree
  have used : (Lowering.use (target.mentions left)).result = .ok () := rfl
  rw [handover, Lowering.used_bind_of_ok used] at agree
  have sameOn : ∀ used ∈ target.mentions left, right used = left used :=
    fun used mentioned => agree used (List.mem_append_left _ mentioned)
  have sameMentions : target.mentions right = target.mentions left :=
    mentionsWithin_of_mentions descriptionDepth target sameOn
  have sameLabel : target.describe right = target.describe left :=
    describeWithin_of_mentions descriptionDepth target sameOn
  rw [handover, handover, sameMentions, sameLabel]

theorem lowerReference_sameIf (id : NodeId)
    (continues : ∀ target, left id = .ok target → right id = .ok target →
      target.id ∉ expanding → (descend (target.id :: expanding) target).SameIf (AgreeOn left right)
        (descendAgain (target.id :: expanding) target)) :
    (lowerReference left expanding descend id).SameIf (AgreeOn left right)
      (lowerReference right expanding descendAgain id) := by
  intro agree
  have used : (Lowering.use [id]).result = .ok () := rfl
  rw [lowerReference, Lowering.used_bind_of_ok used] at agree
  have same : right id = left id := agree id (by simp [Lowering.use])
  rw [lowerReference, lowerReference]
  apply Lowering.bind_congr
  intro _ _
  have agreeAfter := fun other member => agree other (List.mem_append_right _ member)
  cases leads : left id with
  | error cause => simp only [same.trans leads]
  | ok target =>
      simp only [leads, same.trans leads] at agreeAfter ⊢
      split at agreeAfter
      · next isExpanding =>
        rw [if_pos isExpanding, if_pos isExpanding]
        exact handover_sameIf target agreeAfter
      · next isNew =>
        rw [if_neg isNew, if_neg isNew]
        have further := continues target leads (same.trans leads) isNew
        exact (further.bind fun _ => .refl _) agreeAfter

theorem lowerAllBy_sameIf {schemas : List Schema}
    (each : ∀ schema ∈ schemas, (lowerBy left expanding descend schema).SameIf (AgreeOn left right)
      (lowerBy right expanding descendAgain schema)) :
    (lowerAllBy left expanding descend schemas).SameIf (AgreeOn left right)
      (lowerAllBy right expanding descendAgain schemas) := by
  induction schemas with
  | nil => exact .refl _
  | cons schema rest ih =>
      have further := ih fun other member => each other (List.mem_cons_of_mem _ member)
      exact (each schema (by simp)).bind fun _ => further.bind fun _ => .refl _

theorem lowerFieldsBy_sameIf {fields : List (String × Schema)}
    (each : ∀ field ∈ fields, (lowerBy left expanding descend field.2).SameIf (AgreeOn left right)
      (lowerBy right expanding descendAgain field.2)) :
    (lowerFieldsBy left expanding descend fields).SameIf (AgreeOn left right)
      (lowerFieldsBy right expanding descendAgain fields) := by
  induction fields with
  | nil => exact .refl _
  | cons field rest ih =>
      obtain ⟨name, schema⟩ := field
      have further := ih fun other member => each other (List.mem_cons_of_mem _ member)
      exact (each (name, schema) (by simp)).bind fun _ => further.bind fun _ => .refl _

theorem lowerBy_sameIf (schema : Schema)
    (continues : ∀ id target, schema.Contains (.reference id) → left id = .ok target →
      right id = .ok target → target.id ∉ expanding →
      (descend (target.id :: expanding) target).SameIf (AgreeOn left right)
        (descendAgain (target.id :: expanding) target)) :
    (lowerBy left expanding descend schema).SameIf (AgreeOn left right)
      (lowerBy right expanding descendAgain schema) := by
  induction schema using inductionOnChildren with
  | step schema ih =>
      have each : ∀ child ∈ schema.children, (lowerBy left expanding descend child).SameIf
          (AgreeOn left right) (lowerBy right expanding descendAgain child) :=
        fun child member => ih child member
          fun id target contains => continues id target (.head member contains)
      cases schema with
      | primitive | literal | container | oneOf | custom => exact .refl _
      | both id first second | either id first second =>
          exact (each first (by simp [children])).bind fun _ =>
            (each second (by simp [children])).bind fun _ => .refl _
      | array id item | record id item =>
          exact (each item (by simp [children])).bind fun _ => .refl _
      | tuple id parts | union id parts =>
          exact (lowerAllBy_sameIf fun part member => each part member).bind fun _ => .refl _
      | object id fields =>
          have eachField : ∀ field ∈ fields, (lowerBy left expanding descend field.2).SameIf
              (AgreeOn left right) (lowerBy right expanding descendAgain field.2) :=
            fun field member => each field.2 (List.mem_map_of_mem member)
          exact (lowerFieldsBy_sameIf eachField).bind fun _ => .refl _
      | reference id =>
          exact lowerReference_sameIf id fun target => continues id target .refl

/-- Lowering with enough rounds is the same as lowering with any other number of rounds that are
enough. -/
theorem lowerWithin_sameIf (rounds more : Nat) {schema : Schema}
    (fits : Fits left rounds expanding schema) (alsoFits : Fits right more expanding schema) :
    (lowerWithin left rounds expanding schema).SameIf (AgreeOn left right)
      (lowerWithin right more expanding schema) := by
  induction rounds generalizing more expanding schema with
  | zero =>
      -- A further expansion would need a round.
      cases more <;>
        · apply lowerBy_sameIf
          intro id target contains leads _ isNew
          obtain ⟨_, impossible, _⟩ := fits.expand contains leads isNew
          cases impossible
  | succ rounds ih =>
      cases more with
      | zero =>
          apply lowerBy_sameIf
          intro id target contains _ alsoLeads isNew
          obtain ⟨_, impossible, _⟩ := alsoFits.expand contains alsoLeads isNew
          cases impossible
      | succ more =>
          apply lowerBy_sameIf
          intro id target contains leads alsoLeads isNew
          obtain ⟨_, same, fitsInside⟩ := fits.expand contains leads isNew
          obtain ⟨_, alsoSame, alsoFitsInside⟩ := alsoFits.expand contains alsoLeads isNew
          cases same
          cases alsoSame
          exact ih more fitsInside alsoFitsInside

end Congruence

/-- Every reference that is used when a schema is lowered can be reached from it. -/
theorem reaches_of_used {references : References} {schema : Schema} {id : NodeId}
    (used : id ∈ (schema.lower references).used) :
    schema.Reaches references.target (.reference id) := by
  have onlyReached : (schema.lower references).OnlyUses fun id =>
      schema.Reaches references.target (.reference id) :=
    lowerWithin_onlyUses _ fun _ reaches => reaches
  exact onlyReached id used

theorem lower_of_same {left right : References} (schema : Schema)
    (sameTarget : left.target = right.target) (sameFactories : left.factories = right.factories) :
    schema.lower left = schema.lower right := by
  rw [lower, lower, sameTarget, sameFactories]

/-- A schema is lowered again as it was lowered before, if all references that were used lead where
they led. -/
theorem lower_of_used {nodes later : Nodes} {before after : Registry}
    (consistent : before.Consistent nodes) (alsoConsistent : after.Consistent later)
    {schema : Schema}
    (kept : ∀ used ∈ (schema.lower before.references).used,
      after.target used = before.target used) :
    schema.lower after.references = schema.lower before.references :=
  lowerWithin_sameIf _ _ (fits_factories consistent _ schema)
    (fits_factories alsoConsistent _ schema) kept

end Schema

end Assay
