import Assay.Proofs.Validation
import Mathlib.Logic.Relation

/-!
# Changes of a context

A run changes its context in few ways, however the schema combines its tests.  It goes to another
place, remembers another expectation, notes that it uses a reference, counts a reference as active or
as no longer active, and raises a fault.  Faults are raised, and references counted as active, only as
long as no fault has ended the run, and at most as many references as the limit allows.

What each of these changes keeps is kept by every run. -/

namespace Assay

namespace Context

/-- One change of the context of a run. -/
inductive Change : Context → Context → Prop where
  | move (context : Context) (trail : List Segment) : Change context { context with trail }
  | remember (context : Context) (failure : Option Failure) :
      Change context (context.withFailure failure)
  | use (context : Context) (id : NodeId) : Change context (context.note (.used id))
  | activate (context : Context) : context.frames < context.limits.maxDepth →
      Change context { context with frames := context.frames + 1 }
  | release (context : Context) : Change context context.leaveReference
  | unresolved (context : Context) (cause : SchemaError) : context.isFaulted = false →
      Change context (context.raise (.schema cause))
  | exceed (context : Context) : context.isFaulted = false →
      context.limits.maxDepth ≤ context.frames →
      Change context
        ((context.note (.depthExceeded context.limits.maxDepth (some context.path))).raise
          (.depthLimit context.limits.maxDepth context.path))

/-- One context becomes another one by changes of a run. -/
abbrev Evolves : Context → Context → Prop := Relation.ReflTransGen Change

section Evolves

variable {before after : Context}

/-- A run takes nothing out of the journal. -/
theorem Evolves.journal_subset (evolves : before.Evolves after) :
    before.journal ⊆ after.journal := by
  induction evolves with
  | refl => exact List.Subset.refl _
  | tail _ change ih =>
      refine List.Subset.trans ih ?_
      cases change with
      | use | exceed => exact List.subset_cons_self _ _
      | move | remember | activate | release | unresolved => exact List.Subset.refl _

end Evolves

end Context

/-- A run changes its context only as runs do. -/
def Run.Evolves (run : Run) : Prop := ∀ context : Context, context.Evolves (run context).2

/-- A test changes the context only as runs do, whatever the value. -/
def Test.Evolves (test : Test) : Prop := ∀ value, (test value).Evolves

theorem Run.all_evolves {α : Type} {run : α → Run} {items : List α}
    (each : ∀ item ∈ items, (run item).Evolves) : (Run.all (items.map run)).Evolves := by
  induction items with
  | nil => exact fun _ => .refl
  | cons item rest ih =>
      intro context
      have evolves := each item (by simp) context
      simp only [List.map_cons, Run.all]
      generalize run item context = result at evolves ⊢
      obtain ⟨accepted, middle⟩ := result
      cases accepted with
      | true => exact evolves.trans (ih (fun other member => each other (by simp [member])) middle)
      | false => exact evolves

namespace Test

theorem reject_evolves (schema : Schema) : (reject schema).Evolves := by
  intro value context
  rw [reject, Context.expect]
  split
  · exact .single (.remember context _)
  · exact .refl

theorem leaf_evolves (schema : Schema) (accepts : Option Json → Bool) :
    (leaf schema accepts).Evolves := by
  intro value context
  rw [leaf]
  split
  · exact .refl
  · exact reject_evolves schema value context

theorem under_evolves {test : Test} (evolves : test.Evolves) (segment : Segment) :
    (test.under segment).Evolves := by
  intro value context
  have inside := evolves value (context.enter segment)
  rw [Context.enter_eq] at inside
  simp only [under, Context.enter_eq, Context.back_eq]
  exact .head (.move context _) (inside.tail (.move _ _))

theorem both_evolves {first second : Test} (firstEvolves : first.Evolves)
    (secondEvolves : second.Evolves) : (Test.both first second).Evolves := by
  intro value context
  have evolves := firstEvolves value context
  rw [Test.both]
  generalize first value context = result at evolves ⊢
  obtain ⟨accepted, middle⟩ := result
  cases accepted with
  | true => exact evolves.trans (secondEvolves value middle)
  | false => exact evolves

theorem either_evolves {first second : Test} (firstEvolves : first.Evolves)
    (secondEvolves : second.Evolves) : (Test.either first second).Evolves := by
  intro value context
  have evolves := firstEvolves value context
  rw [Test.either]
  generalize first value context = result at evolves ⊢
  obtain ⟨accepted, middle⟩ := result
  cases accepted with
  | true => exact evolves
  | false => exact evolves.trans (secondEvolves value middle)

theorem tryEach_evolves {alternatives : List Schema} {test : Schema → Test}
    (each : ∀ alternative ∈ alternatives, (test alternative).Evolves) (schema : Schema)
    (value : Option Json) (start : Nat) (prior best : Option Failure) :
    (tryEach schema value start prior (alternatives.map test) best).Evolves := by
  induction alternatives generalizing best with
  | nil =>
      intro context
      rw [List.map_nil, tryEach]
      split
      · split
        · exact .single (.remember context _)
        · exact reject_evolves schema value context
      · exact reject_evolves schema value context
  | cons alternative rest ih =>
      intro context
      have evolves := each alternative (by simp) value context
      simp only [List.map_cons, tryEach]
      generalize test alternative value context = result at evolves ⊢
      obtain ⟨accepted, middle⟩ := result
      cases accepted with
      | true => exact evolves.tail (.remember middle prior)
      | false =>
          have reset : context.Evolves (middle.resetTo start) := evolves.tail (.move middle _)
          simp only
          split
          · exact reset
          · exact (reset.tail (.remember _ none)).trans
              (ih (fun other member => each other (by simp [member])) _ _)

theorem union_evolves {alternatives : List Schema} {test : Schema → Test}
    (each : ∀ alternative ∈ alternatives, (test alternative).Evolves) (schema : Schema) :
    (Test.union schema (alternatives.map test)).Evolves := by
  intro value context
  exact .head (.remember context none) (tryEach_evolves each schema value _ _ _ _)

/-- A reference is noted before anything else happens, and asked for what it leads to only if no
fault has ended the run. -/
theorem reference_evolves {descend : Schema → Test} (evolves : ∀ target, (descend target).Evolves)
    (resolve : Resolver) (id : NodeId) (value : Option Json) {context : Context}
    (clear : context.isFaulted = false) :
    (context.note (.used id)).Evolves (reference resolve descend id value context).2 := by
  rw [reference]
  simp only
  cases resolve id with
  | error cause => exact .single (.unresolved _ cause clear)
  | ok target =>
      by_cases full : context.limits.maxDepth ≤ context.frames
      · have entered := (context.note (.used id)).enterReference_of_full full
        simp only [entered]
        exact .single (.exceed _ clear full)
      · have entered := (context.note (.used id)).enterReference_of_room full
        simp only [entered]
        have inside := evolves target value
          { context.note (.used id) with frames := context.frames + 1 }
        exact .head (.activate _ (Nat.lt_of_not_le full)) (inside.tail (.release _))

end Test

namespace Schema

variable {resolve : Resolver} {descend : Schema → Test}

/-- Once a fault has ended the run nothing changes, so only the other contexts count. -/
theorem testBy_evolves_of_clear {schema : Schema}
    (evolves : ∀ value (context : Context), context.isFaulted = false →
      context.Evolves (testBy resolve descend schema value context).2) :
    (testBy resolve descend schema).Evolves := by
  intro value context
  cases faulted : context.isFaulted with
  | true => rw [testBy_of_isFaulted schema value faulted]
  | false => exact evolves value context faulted

theorem testBy_evolves (evolves : ∀ target, (descend target).Evolves) (schema : Schema) :
    (testBy resolve descend schema).Evolves := by
  induction schema using inductionOnKinds with
  | leaf schema accepts found =>
      apply testBy_evolves_of_clear
      intro value context clear
      rw [testBy_eq_testOnce, testOnce_of_leafTest? found clear]
      exact Test.leaf_evolves schema accepts value context
  | both id first second firstIH secondIH =>
      apply testBy_evolves_of_clear
      intro value context clear
      rw [testBy, if_neg (by simp [clear])]
      exact Test.both_evolves firstIH secondIH value context
  | either id first second firstIH secondIH =>
      apply testBy_evolves_of_clear
      intro value context clear
      rw [testBy, if_neg (by simp [clear])]
      exact Test.either_evolves firstIH secondIH value context
  | inside schema inside ih =>
      apply testBy_evolves_of_clear
      intro value context clear
      cases found : schema.parts? value with
      | none =>
          rw [testBy_eq_testOnce, testOnce_of_no_parts inside found clear]
          exact Test.reject_evolves schema value context
      | some parts =>
          rw [testBy_eq_testOnce, testOnce_of_parts? found clear]
          apply Run.all_evolves
          intro part inParts
          have child := mem_children_of_mem_parts? found inParts
          exact Test.under_evolves (ih part.schema child) part.segment part.value
  | union id alternatives ih =>
      apply testBy_evolves_of_clear
      intro value context clear
      rw [testBy, if_neg (by simp [clear]), testsBy_eq_map]
      exact Test.union_evolves ih _ value context
  | reference id =>
      apply testBy_evolves_of_clear
      intro value context clear
      rw [testBy, if_neg (by simp [clear])]
      exact .head (.use context id) (Test.reference_evolves evolves resolve id value clear)

/-- The run of a schema changes its context only as runs do. -/
theorem testWithin_evolves (resolve : Resolver) (budget : Nat) (schema : Schema) :
    (schema.testWithin resolve budget).Evolves := by
  induction budget generalizing schema with
  | zero => exact testBy_evolves (fun _ _ _ => .refl) schema
  | succ budget ih => exact testBy_evolves ih schema

theorem test_evolves (resolve : Resolver) (schema : Schema) : (schema.test resolve).Evolves :=
  fun value context => schema.testWithin_evolves resolve context.remaining value context

end Schema

end Assay
