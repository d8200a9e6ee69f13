import Assay.Proofs.Composition
import Assay.Proofs.Identity
import Assay.Proofs.Routine

/-!
# Compiled routines

Compiling a schema settles every reference that can be reached from it, so from then on the schema
means the same whatever happens, and its code answers by this meaning.  A registry is *sound* if
this holds of every routine that it keeps, which matters because a schema whose node has a routine
already is not lowered again. -/

namespace Assay.Registry

/-- Everything that was settled has stayed as it was. -/
def Kept (before after : Registry) : Prop :=
  ∀ id result, before.references.resolved.lookup id = some result →
    after.references.resolved.lookup id = some result

theorem Kept.refl (registry : Registry) : registry.Kept registry := fun _ _ found => found

theorem Kept.trans {before middle after : Registry} (first : before.Kept middle)
    (second : middle.Kept after) : before.Kept after :=
  fun id result found => second id result (first id result found)

/-- Every reference that can be reached from a schema has been settled. -/
def Settled (registry : Registry) (schema : Schema) : Prop :=
  ∀ id, schema.Reaches registry.target (.reference id) →
    ∃ result, registry.references.resolved.lookup id = some result

section Settled

variable {before after : Registry} {schema : Schema}

/-- A settled schema leads wherever it led. -/
theorem Settled.agreeFrom (settled : before.Settled schema) (kept : before.Kept after) :
    schema.AgreeFrom before.target after.target := by
  intro id reaches
  obtain ⟨result, found⟩ := settled id reaches
  rw [target_of_recorded found, target_of_recorded (kept id result found)]

theorem Settled.of_kept (settled : before.Settled schema) (kept : before.Kept after) :
    after.Settled schema := by
  intro id reaches
  obtain ⟨result, found⟩ := settled id ((settled.agreeFrom kept).reaches_iff.mp reaches)
  exact ⟨result, kept id result found⟩

end Settled

/-- Code stands for a schema: all references of the schema have been settled, and they lead where
they led when the schema was lowered to the code. -/
structure Backs (registry : Registry) (schema : Schema) (code : Code) : Prop where
  settled : registry.Settled schema
  lowers : ∃ resolve used expanding, Schema.LowersTo resolve used expanding schema code ∧
    schema.AgreeFrom resolve registry.target

theorem Backs.of_kept {before after : Registry} {schema : Schema} {code : Code}
    (backs : before.Backs schema code) (kept : before.Kept after) : after.Backs schema code where
  settled := backs.settled.of_kept kept
  lowers := by
    obtain ⟨resolve, used, expanding, lowers, agree⟩ := backs.lowers
    exact ⟨resolve, used, expanding, lowers, agree.trans (backs.settled.agreeFrom kept)⟩

section Answers

variable {registry before after : Registry} {compiled : Compiled} {limits : Limits}
  {value : Option Json}

theorem Backs.check_answer (backs : registry.Backs compiled.schema compiled.routine.code) :
    (registry.checkCompiled compiled limits value).1 = true ↔
      compiled.schema.meaning registry.target limits.maxDepth value = .accept := by
  obtain ⟨resolve, used, expanding, lowers, agree⟩ := backs.lowers
  exact Code.check_answer lowers agree limits value

/-- A compiled routine checks as its schema does. -/
theorem Backs.checkCompiled_eq (backs : registry.Backs compiled.schema compiled.routine.code) :
    (registry.checkCompiled compiled limits value).1 =
      (registry.check compiled.schema limits value).1 := by
  rw [Bool.eq_iff_iff, backs.check_answer, Registry.check_answer]

/-- A compiled routine asserts as its schema does. -/
theorem Backs.assertCompiled_eq (backs : registry.Backs compiled.schema compiled.routine.code) :
    (registry.assertCompiled compiled limits value).1 =
      (registry.assert compiled.schema limits value).1 := by
  have answer : (registry.checkCompiled compiled limits value).1 = true ↔
      compiled.schema.meaning registry.target limits.maxDepth value = .accept :=
    backs.check_answer
  have settles : registry.Settles (registry.checkCompiled compiled limits value).2 :=
    registry.carryOut_settles _
  rw [assertCompiled]
  generalize registry.checkCompiled compiled limits value = result at answer settles ⊢
  obtain ⟨accepted, middle⟩ := result
  cases accepted with
  | true =>
      have accepts := answer.mp rfl
      rw [← Schema.verdict_outcome] at accepts
      rw [assert_answer]
      cases equal : compiled.schema.outcome registry.target limits.maxDepth value with
      | accepted => rfl
      | rejected | unresolved | tooDeep => simp [equal, Outcome.verdict] at accepts
  | false => exact assert_congr fun id _ => congrFun settles.target id

/-- A settled schema checks the same at every later time. -/
theorem Settled.check_eq {schema : Schema} (settled : before.Settled schema)
    (kept : before.Kept after) :
    (after.check schema limits value).1 = (before.check schema limits value).1 := by
  rw [Bool.eq_iff_iff, Registry.check_answer, Registry.check_answer, ← Schema.verdict_outcome,
    ← Schema.verdict_outcome, Schema.outcome_congr _ _ (settled.agreeFrom kept)]

/-- A settled schema asserts the same at every later time. -/
theorem Settled.assert_eq {schema : Schema} (settled : before.Settled schema)
    (kept : before.Kept after) :
    (after.assert schema limits value).1 = (before.assert schema limits value).1 :=
  assert_congr (settled.agreeFrom kept)

end Answers

/-! ## Sound registries -/

/-- A registry is consistent, and the code of every routine it keeps stands for the schema of the
node it is kept for. -/
structure Sound (nodes : Nodes) (registry : Registry) : Prop where
  consistent : registry.Consistent nodes
  given : ∀ id routine, registry.routines.lookup id = some (.ok routine) → id < registry.nextId
  backs : ∀ id routine, registry.routines.lookup id = some (.ok routine) →
    registry.Backs (nodes id) routine.code

/-- Whatever happens keeps a registry sound and everything that was settled as it was. -/
def Preserves (before after : Registry) : Prop :=
  ∀ nodes, before.Sound nodes → (∃ later, after.Sound later) ∧ before.Kept after

theorem Preserves.trans {before middle after : Registry} (first : before.Preserves middle)
    (second : middle.Preserves after) : before.Preserves after := by
  intro nodes sound
  obtain ⟨⟨between, soundBetween⟩, kept⟩ := first nodes sound
  obtain ⟨later, keptFurther⟩ := second between soundBetween
  exact ⟨later, kept.trans keptFurther⟩

section Sound

variable {nodes : Nodes} {registry after : Registry}

theorem Sound.initial (nodes : Nodes) (listening : Option Level) :
    ({ listening } : Registry).Sound nodes :=
  ⟨.initial nodes listening, by simp, by simp⟩

theorem Sound.settles (sound : registry.Sound nodes) (settles : registry.Settles after) :
    after.Sound nodes := by
  refine ⟨sound.consistent.settles settles, ?_, ?_⟩
  · rw [settles.routines, settles.nextId]
    exact sound.given
  · rw [settles.routines]
    exact fun id routine found => (sound.backs id routine found).of_kept settles.kept

theorem Settles.preserves (settles : registry.Settles after) : registry.Preserves after :=
  fun nodes sound => ⟨⟨nodes, sound.settles settles⟩, settles.kept⟩

theorem define_preserves (registry : Registry) (name : String) (draft : Draft) :
    registry.Preserves (registry.define name draft).2 := by
  intro nodes sound
  obtain ⟨later, grows, consistent⟩ := sound.consistent.define name draft
  have kept : registry.Kept (registry.define name draft).2 := by
    intro id result found
    rw [grows.resolved]
    exact found
  refine ⟨⟨later, consistent, ?_, ?_⟩, kept⟩
  · intro id routine found
    rw [grows.routines] at found
    exact Nat.lt_of_lt_of_le (sound.given id routine found) grows.nextId
  · intro id routine found
    rw [grows.routines] at found
    rw [grows.nodes id (sound.given id routine found)]
    exact (sound.backs id routine found).of_kept kept

/-- Lowering a schema and taking in what it used leaves the schema settled, with its code standing
for it. -/
theorem backs_of_lower (consistent : registry.Consistent nodes) {schema : Schema}
    (filed : schema.Filed nodes registry.nextId) {code : Code}
    (lowered : (schema.lower registry.references).result = .ok code)
    (settles : (registry.absorb (.ofMentions (schema.lower registry.references).used)).Settles
      after) :
    after.Backs schema code := by
  have lowers := Schema.lowersTo_of_lower consistent lowered
  have absorbed := registry.absorb_settles (.ofMentions (schema.lower registry.references).used)
  have sameTarget := (absorbed.trans settles).target
  refine ⟨?_, registry.target, _, _, lowers, fun id _ => congrFun sameTarget id⟩
  intro id reaches
  rw [sameTarget] at reaches
  have isUsed := lowers.used_of_reaches consistent (.inl filed) reaches
  exact ⟨_, settles.kept id _ (lookup_absorb (List.mem_map_of_mem isUsed))⟩

/-- Assembling a routine keeps a registry sound, and the code of the routine stands for the schema.
-/
theorem Sound.assemble (sound : registry.Sound nodes) {schema : Schema}
    (filed : schema.Filed nodes registry.nextId) :
    (registry.assemble schema).2.Sound nodes ∧ registry.Kept (registry.assemble schema).2 ∧
      ∀ routine, (registry.assemble schema).1 = .ok routine →
        (registry.assemble schema).2.Backs schema routine.code := by
  let lowering := schema.lower registry.references
  obtain ⟨reported, uses, assembled⟩ := registry.assemble_eq schema
  have further := uses.settles
  have settles : registry.Settles reported := (registry.absorb_settles _).trans further
  have consistent := sound.consistent.settles settles
  rw [assembled]
  have backs : ∀ code, lowering.result = .ok code → reported.Backs schema code :=
    fun code done => backs_of_lower sound.consistent filed done further
  have isBacked : ∀ routine : Routine, reported.assembling lowering.result = .ok routine →
      reported.Backs schema routine.code := by
    intro routine done
    rw [assembling] at done
    cases result : lowering.result with
    | error cause => simp [result, Except.map] at done
    | ok code =>
        rw [result, Except.map, Except.ok.injEq] at done
        cases done
        exact backs code result
  refine ⟨⟨?_, ?_, ?_⟩, settles.kept,
    fun routine done => (isBacked routine done).of_kept fun _ _ found => found⟩
  · exact consistent.keeping _ _
  · intro id routine found
    rcases lookup_keeping found with ⟨rfl, _⟩ | earlier
    · exact settles.nextId ▸ filed.below
    · exact (sound.settles settles).given id routine earlier
  · intro id routine found
    rcases lookup_keeping found with ⟨rfl, done⟩ | earlier
    · rw [filed.same]
      exact (isBacked routine done.symm).of_kept fun _ _ found => found
    · exact ((sound.settles settles).backs id routine earlier).of_kept fun _ _ found => found

/-- Compiling a schema keeps a registry sound, and the code of the compiled routine stands for the
schema, whether it was assembled now or before. -/
theorem Sound.compile (sound : registry.Sound nodes) {schema : Schema}
    (filed : schema.Filed nodes registry.nextId) :
    (registry.compile schema).2.Sound nodes ∧ registry.Kept (registry.compile schema).2 ∧
      ∀ compiled, (registry.compile schema).1 = .ok compiled →
        compiled.schema = schema ∧
          (registry.compile schema).2.Backs schema compiled.routine.code := by
  have fromResult : ∀ (result : Except CompileError Routine) (after : Registry),
      (∀ routine, result = .ok routine → after.Backs schema routine.code) →
      ∀ compiled : Compiled,
        (result.map fun routine => { routine, schema }) = .ok compiled →
        compiled.schema = schema ∧ after.Backs schema compiled.routine.code := by
    intro result after backs compiled done
    cases result with
    | error cause => simp [Except.map] at done
    | ok routine =>
        cases done
        exact ⟨rfl, backs routine rfl⟩
  rw [Registry.compile]
  cases found : registry.routines.lookup schema.id with
  | some result =>
      refine ⟨sound, .refl registry, fromResult result registry ?_⟩
      rintro routine rfl
      have backs := sound.backs schema.id routine found
      rw [filed.same] at backs
      exact backs
  | none =>
      obtain ⟨stays, kept, backs⟩ := sound.assemble filed
      exact ⟨stays, kept, fromResult _ _ backs⟩

end Sound

end Assay.Registry
