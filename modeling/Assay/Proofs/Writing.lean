import Assay.Proofs.Places
import Assay.Routine.Source
import Mathlib.Data.List.Basic
import Mathlib.Logic.Relation

/-!
# Variables and references in a source

Writing code out goes through its parts in order.  Each part is handed the place that it is about
and the number of the next variable, and it hands on the number that it has come to.  A part of an
array or a record is about the variable that was just bound, and any other part is about the same
place or one step further down.

So the variables of a part are those from the number it is handed to the number it hands on, and no
two parts share one.  And the place that a part is handed tells the innermost array or record around
it, and the keys and positions from there.  Since the text of a place can be read in one way only,
so does the reference that is written. -/

namespace Assay

/-- A text is part of any text into which it is joined. -/
theorem isInfix_intercalate (separator : String) {text : String} {texts : List String}
    (member : text ∈ texts) : text.toList <:+: (separator.intercalate texts).toList := by
  induction texts with
  | nil => cases member
  | cons first rest ih =>
      cases rest with
      | nil => simp [List.mem_singleton.mp member]
      | cons second others =>
          rw [String.intercalate_cons_cons, String.toList_append, String.toList_append]
          rcases List.mem_cons.mp member with rfl | inRest
          · exact ((List.prefix_append _ _).trans (List.prefix_append _ _)).isInfix
          · exact (ih inRest).trans (List.suffix_append _ _).isInfix

namespace Expression

/-- The parts of an expression. -/
def children : Expression → List Expression
  | .conjunction parts | .disjunction parts => parts
  | .every _ _ _ body => [body]
  | _ => []

/-- One expression is written inside another one, or is the same. -/
abbrev Contains : Expression → Expression → Prop :=
  Relation.ReflTransGen fun outer inner => inner ∈ outer.children

theorem texts_eq_map (parts : List Expression) : texts parts = parts.map text := by
  induction parts with
  | nil => rfl
  | cons part rest ih => rw [texts, ih, List.map_cons]

theorem isInfix_text_of_mem_children {outer inner : Expression} (member : inner ∈ outer.children) :
    inner.text.toList <:+: outer.text.toList := by
  cases outer with
  | conjunction parts | disjunction parts =>
      rw [text, texts_eq_map, String.toList_append, String.toList_append]
      exact (isInfix_intercalate _ (List.mem_map_of_mem member)).trans (List.infix_append _ _ _)
  | every kind place variableIndex body =>
      rw [List.mem_singleton.mp member, text, String.toList_append, String.toList_append]
      exact List.infix_append _ _ _
  | _ => cases member

/-- What is written inside an expression is part of its text. -/
theorem Contains.isInfix {outer inner : Expression} (contains : outer.Contains inner) :
    inner.text.toList <:+: outer.text.toList := by
  induction contains with
  | refl => exact List.infix_rfl
  | tail _ member ih => exact (isInfix_text_of_mem_children member).trans ih

end Expression

namespace Code

/-- A move from code to one of its parts, which are told apart by their numbers. -/
inductive Move where
  /-- To a part about the same place. -/
  | along (part : Nat)
  /-- To what every member of an array or of a record satisfies. -/
  | member
  /-- To a part about a place one step further down. -/
  | down (part : Nat) (segment : Segment)
  deriving DecidableEq

/-- A way from code to a part of it, with the last move first. -/
abbrev Way := List Move

/-- The keys and positions on a way, from the innermost array or record on. -/
def Way.steps : Way → List Segment
  | [] => []
  | .member :: _ => []
  | .along _ :: way => Way.steps way
  | .down _ segment :: way => Way.steps way ++ [segment]

/-- The way to the innermost array or record around a part, if there is one. -/
def Way.binder? : Way → Option Way
  | [] => none
  | .member :: way => some way
  | .along _ :: way => Way.binder? way
  | .down _ _ :: way => Way.binder? way

/-- Whether code binds a variable for the members of what it is about. -/
def binds : Code → Bool
  | .array _ | .record _ => true
  | _ => false

/-- Code that is written out about a place, when `next` is the number of the next variable. -/
structure Writing where
  code : Code
  place : Place
  next : Nat

namespace Writing

/-- The writing of a whole source. -/
def whole (code : Code) : Writing := ⟨code, { base := .root }, 0⟩

/-- The expression that is written. -/
def expression (writing : Writing) : Expression :=
  (writing.code.expressionAt writing.place writing.next).1

/-- The number of the next variable afterwards. -/
def after (writing : Writing) : Nat := (writing.code.expressionAt writing.place writing.next).2

/-- The number of the first variable that is left for the parts. -/
def inner (writing : Writing) : Nat := if writing.code.binds then writing.next + 1 else writing.next

/-- The parts of the code, each with the place that it is about. -/
def parts (writing : Writing) : List (Move × Code × Place) :=
  match writing.code with
  | .both first second | .either first second =>
      [(.along 0, first, writing.place), (.along 1, second, writing.place)]
  | .array item | .record item => [(.member, item, { base := .variable writing.next })]
  | .tuple positions => positions.mapIdx fun position code =>
      (.down position (.index position), code, writing.place.step (.index position))
  | .object fields => fields.mapIdx fun position field =>
      (.down position (.field field.1), field.2, writing.place.step (.field field.1))
  | .union alternatives => alternatives.mapIdx fun position code =>
      (.along position, code, writing.place)
  | .expanded body => [(.along 0, body, writing.place)]
  | _ => []

/-- Parts that are written one after another, when `next` is the number of the next variable. -/
def inTurn : (next : Nat) → List (Move × Code × Place) → List (Move × Writing)
  | _, [] => []
  | next, (move, code, place) :: rest =>
      (move, ⟨code, place, next⟩) :: inTurn (code.expressionAt place next).2 rest

/-- The number of the next variable after parts have been written one after another. -/
def afterAll : (next : Nat) → List (Move × Code × Place) → Nat
  | next, [] => next
  | next, (_, code, place) :: rest => afterAll (code.expressionAt place next).2 rest

/-- The writings that are made directly for one writing, in order. -/
def further (writing : Writing) : List (Move × Writing) := inTurn writing.inner writing.parts

/-- A way leads from one writing to another that is made for it, directly or through others. -/
inductive Leads (start : Writing) : Way → Writing → Prop where
  | here : Leads start [] start
  | further {way : Way} {move : Move} {writing part : Writing} : Leads start way writing →
      (move, part) ∈ writing.further → Leads start (move :: way) part

section Further

variable {writing part start : Writing} {move : Move} {way : Way}

theorem mem_parts_of_inTurn {next : Nat} {parts : List (Move × Code × Place)}
    (member : (move, part) ∈ inTurn next parts) : (move, part.code, part.place) ∈ parts := by
  induction parts generalizing next with
  | nil => cases member
  | cons first rest ih =>
      rcases List.mem_cons.mp member with same | inRest
      · cases same
        exact List.mem_cons_self
      · exact List.mem_cons_of_mem _ (ih inRest)

theorem sizeOf_lt_of_mem_parts {code : Code} {place : Place}
    (member : (move, code, place) ∈ writing.parts) : sizeOf code < sizeOf writing.code := by
  obtain ⟨outer, outerPlace, next⟩ := writing
  cases outer with
  | both first second | either first second =>
      simp only [parts, List.mem_cons, List.not_mem_nil, or_false, Prod.mk.injEq] at member
      rcases member with ⟨_, rfl, _⟩ | ⟨_, rfl, _⟩ <;>
        simp only [both.sizeOf_spec, either.sizeOf_spec] <;> omega
  | array item | record item | expanded item =>
      simp only [parts, List.mem_singleton, Prod.mk.injEq] at member
      obtain ⟨_, rfl, _⟩ := member
      simp only [array.sizeOf_spec, record.sizeOf_spec, expanded.sizeOf_spec]
      omega
  | tuple codes | union codes =>
      obtain ⟨position, inBounds, same⟩ := List.mem_mapIdx.mp member
      simp only [Prod.mk.injEq] at same
      obtain ⟨_, rfl, _⟩ := same
      have smaller := List.sizeOf_lt_of_mem (List.getElem_mem inBounds)
      simp only [tuple.sizeOf_spec, union.sizeOf_spec]
      omega
  | object fields =>
      obtain ⟨position, inBounds, same⟩ := List.mem_mapIdx.mp member
      simp only [Prod.mk.injEq] at same
      obtain ⟨_, rfl, _⟩ := same
      have smaller := List.sizeOf_lt_of_mem (List.getElem_mem inBounds)
      have inField : sizeOf fields[position].2 < sizeOf fields[position] := by
        cases fields[position]
        simp only [Prod.mk.sizeOf_spec]
        omega
      simp only [object.sizeOf_spec]
      omega
  | primitive | literal | container | oneOf | custom | handover => cases member

/-- What holds of a writing whenever it holds of those that are made for it holds of all. -/
@[elab_as_elim] theorem inductionOnFurther {motive : Writing → Prop}
    (step : ∀ writing : Writing, (∀ move part, (move, part) ∈ writing.further → motive part) →
      motive writing) (writing : Writing) : motive writing :=
  step writing fun _ part member =>
    have := sizeOf_lt_of_mem_parts (mem_parts_of_inTurn member)
    inductionOnFurther step part
termination_by sizeOf writing.code

/-- A way begins with a move to a part, unless it is no way at all. -/
theorem Leads.cases_start (leads : start.Leads way writing) :
    way = [] ∧ writing = start ∨ ∃ move part rest, (move, part) ∈ start.further ∧
      part.Leads rest writing ∧ way = rest ++ [move] := by
  induction leads with
  | here => exact .inl ⟨rfl, rfl⟩
  | @further way move writing part _ member ih =>
      rcases ih with ⟨rfl, rfl⟩ | ⟨first, middle, rest, isFirst, leads, rfl⟩
      · exact .inr ⟨move, part, [], member, .here, rfl⟩
      · exact .inr ⟨first, middle, move :: rest, isFirst, .further leads member, rfl⟩

/-- A way from a part is a way from the whole, with the move to the part in front. -/
theorem Leads.after_move (member : (move, part) ∈ start.further) (leads : part.Leads way writing) :
    start.Leads (way ++ [move]) writing := by
  induction leads with
  | here => exact .further .here member
  | further _ next ih => exact .further ih next

end Further

/-! ## The expression that is written -/

section Expressions

/-- What comes of parts that are written one after another. -/
def resultAll (next : Nat) (parts : List (Move × Code × Place)) : List Expression × Nat :=
  ((inTurn next parts).map fun part => part.2.expression, afterAll next parts)

theorem resultAll_cons (next : Nat) (move : Move) (code : Code) (place : Place)
    (rest : List (Move × Code × Place)) :
    resultAll next ((move, code, place) :: rest) =
      ((code.expressionAt place next).1 ::
          (resultAll (code.expressionAt place next).2 rest).1,
        (resultAll (code.expressionAt place next).2 rest).2) := rfl

theorem alternativeExpressions_eq (codes : List Code) (place : Place) (next : Nat)
    (move : Nat → Move) :
    alternativeExpressions codes place next =
      resultAll next (codes.mapIdx fun position code => (move position, code, place)) := by
  induction codes generalizing next move with
  | nil => rfl
  | cons code rest ih =>
      rw [alternativeExpressions, List.mapIdx_cons, resultAll_cons]
      simp only [ih _ fun position => move (position + 1)]

theorem fieldExpressions_eq (fields : List (String × Code)) (place : Place) (next : Nat)
    (move : Nat → String × Code → Move) :
    fieldExpressions fields place next =
      resultAll next (fields.mapIdx fun position field =>
        (move position field, field.2, place.step (.field field.1))) := by
  induction fields generalizing next move with
  | nil => rfl
  | cons field rest ih =>
      rw [fieldExpressions, List.mapIdx_cons, resultAll_cons]
      simp only [ih _ fun position => move (position + 1)]

theorem positionExpressions_eq (codes : List Code) (place : Place) (first next : Nat)
    (move : Nat → Move) :
    positionExpressions codes place first next =
      resultAll next (codes.mapIdx fun position code =>
        (move position, code, place.step (.index (first + position)))) := by
  induction codes generalizing first next move with
  | nil => rfl
  | cons code rest ih =>
      rw [positionExpressions, List.mapIdx_cons, resultAll_cons]
      simp only [ih _ _ fun position => move (position + 1), Nat.add_zero, Nat.add_assoc,
        Nat.add_comm 1]

theorem expressionAt_tuple (codes : List Code) (place : Place) (next : Nat) :
    let all := resultAll next (parts ⟨.tuple codes, place, next⟩)
    (Code.tuple codes).expressionAt place next =
      (.conjunction (.hasLength place codes.length :: all.1), all.2) := by
  have equal := positionExpressions_eq codes place 0 next
    fun position => .down position (.index position)
  simp only [Nat.zero_add] at equal
  rw [expressionAt, equal]
  rfl

theorem expressionAt_object (fields : List (String × Code)) (place : Place) (next : Nat) :
    let all := resultAll next (parts ⟨.object fields, place, next⟩)
    (Code.object fields).expressionAt place next =
      (.conjunction (.isKind Container.object.name place :: all.1), all.2) := by
  rw [expressionAt, fieldExpressions_eq fields place next
    fun position field => .down position (.field field.1)]
  rfl

theorem expressionAt_union (codes : List Code) (place : Place) (next : Nat) :
    let all := resultAll next (parts ⟨.union codes, place, next⟩)
    (Code.union codes).expressionAt place next = (.disjunction all.1, all.2) := by
  rw [expressionAt, alternativeExpressions_eq codes place next .along]
  rfl

/-- Writing code out comes to the number that its parts come to. -/
theorem after_eq (writing : Writing) : writing.after = afterAll writing.inner writing.parts := by
  obtain ⟨code, place, next⟩ := writing
  cases code with
  | tuple codes => rw [after, expressionAt_tuple]; rfl
  | object fields => rw [after, expressionAt_object]; rfl
  | union codes => rw [after, expressionAt_union]; rfl
  | _ => rfl

/-- What is written for a part is written inside what is written for the whole. -/
theorem contains_of_mem_further {writing part : Writing} {move : Move}
    (member : (move, part) ∈ writing.further) : writing.expression.Contains part.expression := by
  obtain ⟨code, place, next⟩ := writing
  have inAll : part.expression ∈ (resultAll (inner ⟨code, place, next⟩)
      (parts ⟨code, place, next⟩)).1 := List.mem_map.mpr ⟨(move, part), member, rfl⟩
  cases code with
  | tuple codes =>
      rw [expression, expressionAt_tuple]
      exact .single (List.mem_cons_of_mem _ inAll)
  | object fields =>
      rw [expression, expressionAt_object]
      exact .single (List.mem_cons_of_mem _ inAll)
  | union codes =>
      rw [expression, expressionAt_union]
      exact .single inAll
  | both | either => exact .single inAll
  | array item | record item =>
      rw [List.mem_singleton.mp inAll]
      exact .tail (.single (List.mem_cons_of_mem _ List.mem_cons_self)) List.mem_cons_self
  | expanded body =>
      rw [List.mem_singleton.mp inAll]
      exact .refl
  | primitive | literal | container | oneOf | custom | handover => cases inAll

/-- What binds a variable is written as an iteration over the members of its place. -/
theorem expression_of_binds {writing : Writing} (binds : writing.code.binds = true) :
    ∃ kind body, writing.expression = iteration kind writing.place writing.next body := by
  obtain ⟨code, place, next⟩ := writing
  cases code with
  | array item => exact ⟨.array, _, rfl⟩
  | record item => exact ⟨.object, _, rfl⟩
  | _ => cases binds

end Expressions

/-! ## Variables -/

section Variables

variable {writing part start other : Writing} {move otherMove : Move} {way otherWay : Way}
  {next number : Nat} {parts : List (Move × Code × Place)}

theorem next_le_afterAll
    (each : ∀ move part, (move, part) ∈ inTurn next parts → part.next ≤ part.after) :
    next ≤ afterAll next parts := by
  induction parts generalizing next with
  | nil => exact Nat.le_refl next
  | cons first rest ih =>
      have ofFirst := each _ _ List.mem_cons_self
      have ofRest := ih fun move part member => each move part (List.mem_cons_of_mem _ member)
      exact Nat.le_trans ofFirst ofRest

theorem next_le_inner (writing : Writing) : writing.next ≤ writing.inner := by
  rw [inner]
  split
  · exact Nat.le_succ _
  · exact Nat.le_refl _

theorem inner_of_binds (binds : writing.code.binds = true) : writing.inner = writing.next + 1 := by
  rw [inner, if_pos binds]

theorem next_le_after (writing : Writing) : writing.next ≤ writing.after := by
  induction writing using inductionOnFurther with
  | step writing ih =>
      rw [after_eq]
      exact Nat.le_trans writing.next_le_inner (next_le_afterAll ih)

theorem inner_le_after (writing : Writing) : writing.inner ≤ writing.after := by
  rw [after_eq]
  exact next_le_afterAll fun _ part _ => part.next_le_after

/-- The variables of a part are among those of all parts that are written in turn. -/
theorem bounds_of_mem_inTurn (member : (move, part) ∈ inTurn next parts) :
    next ≤ part.next ∧ part.after ≤ afterAll next parts := by
  induction parts generalizing next with
  | nil => cases member
  | cons first rest ih =>
      rcases List.mem_cons.mp member with same | inRest
      · cases same
        exact ⟨Nat.le_refl next, next_le_afterAll fun _ part _ => part.next_le_after⟩
      · obtain ⟨later, within⟩ := ih inRest
        exact ⟨Nat.le_trans (next_le_after ⟨_, _, next⟩) later, within⟩

/-- No two parts that are written in turn share a variable. -/
theorem eq_or_apart_of_mem_inTurn (member : (move, part) ∈ inTurn next parts)
    (otherMember : (otherMove, other) ∈ inTurn next parts) :
    (otherMove, other) = (move, part) ∨ part.after ≤ other.next ∨ other.after ≤ part.next := by
  induction parts generalizing next with
  | nil => cases member
  | cons first rest ih =>
      rcases List.mem_cons.mp member with same | inRest
      · rcases List.mem_cons.mp otherMember with alsoSame | otherInRest
        · exact .inl (alsoSame.trans same.symm)
        · cases same
          exact .inr (.inl (bounds_of_mem_inTurn otherInRest).1)
      · rcases List.mem_cons.mp otherMember with same | otherInRest
        · cases same
          exact .inr (.inr (bounds_of_mem_inTurn inRest).1)
        · exact ih inRest otherInRest

/-- Every variable of parts that are written in turn belongs to one of them. -/
theorem exists_mem_inTurn (begun : next ≤ number) (unfinished : number < afterAll next parts) :
    ∃ move part, (move, part) ∈ inTurn next parts ∧ part.next ≤ number ∧ number < part.after := by
  induction parts generalizing next with
  | nil => exact (Nat.not_lt_of_le begun unfinished).elim
  | cons first rest ih =>
      obtain ⟨move, code, place⟩ := first
      by_cases isFirst : number < after ⟨code, place, next⟩
      case pos => exact ⟨move, ⟨code, place, next⟩, List.mem_cons_self, begun, isFirst⟩
      case neg =>
          obtain ⟨move, part, member, within⟩ := ih (Nat.le_of_not_lt isFirst) unfinished
          exact ⟨move, part, List.mem_cons_of_mem _ member, within⟩

theorem bounds_of_mem_further (member : (move, part) ∈ writing.further) :
    writing.inner ≤ part.next ∧ part.after ≤ writing.after := by
  rw [writing.after_eq]
  exact bounds_of_mem_inTurn member

theorem Leads.bounds (leads : start.Leads way writing) :
    start.next ≤ writing.next ∧ writing.after ≤ start.after := by
  induction leads with
  | here => exact ⟨Nat.le_refl _, Nat.le_refl _⟩
  | @further way move writing part _ member ih =>
      obtain ⟨later, within⟩ := bounds_of_mem_further member
      exact ⟨Nat.le_trans ih.1 (Nat.le_trans writing.next_le_inner later),
        Nat.le_trans within ih.2⟩

/-- What binds a variable has it for itself. -/
theorem next_lt_after (binds : writing.code.binds = true) : writing.next < writing.after := by
  have room := writing.inner_le_after
  rw [inner_of_binds binds] at room
  exact room

/-- No variable is bound twice. -/
theorem Leads.eq_of_next (leads : start.Leads way writing) (otherLeads : start.Leads otherWay other)
    (binds : writing.code.binds = true) (otherBinds : other.code.binds = true)
    (same : other.next = writing.next) : otherWay = way := by
  induction start using inductionOnFurther generalizing way otherWay with
  | step start ih =>
      rcases leads.cases_start with ⟨rfl, rfl⟩ | ⟨move, part, rest, member, inside, rfl⟩
      · rcases otherLeads.cases_start with ⟨rfl, rfl⟩ | ⟨_, part, _, member, inside, rfl⟩
        · rfl
        · have later := (bounds_of_mem_further member).1
          rw [inner_of_binds binds] at later
          exact absurd same (Nat.ne_of_gt (Nat.lt_of_lt_of_le later inside.bounds.1))
      · rcases otherLeads.cases_start with ⟨rfl, rfl⟩ | ⟨otherMove, otherPart, _, otherMember,
          otherInside, rfl⟩
        · have later := (bounds_of_mem_further member).1
          rw [inner_of_binds otherBinds] at later
          exact absurd same (Nat.ne_of_lt (Nat.lt_of_lt_of_le later inside.bounds.1))
        · have ofPart := inside.bounds
          have ofOther := otherInside.bounds
          have room := next_lt_after binds
          have otherRoom := next_lt_after otherBinds
          rcases eq_or_apart_of_mem_inTurn member otherMember with equal | apart
          · cases equal
            rw [ih move part member inside otherInside]
          · omega

/-- Every variable is bound somewhere. -/
theorem exists_leads_of_next (begun : start.next ≤ number) (unfinished : number < start.after) :
    ∃ way writing, start.Leads way writing ∧ writing.code.binds = true ∧
      writing.next = number := by
  induction start using inductionOnFurther with
  | step start ih =>
      by_cases isInner : start.inner ≤ number
      case pos =>
          rw [after_eq] at unfinished
          obtain ⟨move, part, member, within⟩ := exists_mem_inTurn isInner unfinished
          obtain ⟨way, writing, leads, bindsIt⟩ := ih move part member within.1 within.2
          exact ⟨way ++ [move], writing, leads.after_move member, bindsIt⟩
      case neg =>
          refine ⟨[], start, .here, ?_, ?_⟩ <;> rw [inner] at isInner <;> split at isInner
          · assumption
          · exact (isInner begun).elim
          · omega
          · exact (isInner begun).elim

end Variables

/-! ## References -/

section References

variable {writing part start : Writing} {move : Move} {way : Way}

/-- The place to which a move leads. -/
def placeAfter (writing : Writing) : Move → Place
  | .along _ => writing.place
  | .member => { base := .variable writing.next }
  | .down _ segment => writing.place.step segment

theorem place_of_mem_parts {code : Code} {place : Place}
    (member : (move, code, place) ∈ writing.parts) :
    place = writing.placeAfter move ∧ (move = .member → writing.code.binds = true) := by
  obtain ⟨outer, outerPlace, next⟩ := writing
  cases outer with
  | both first second | either first second =>
      simp only [parts, List.mem_cons, List.not_mem_nil, or_false, Prod.mk.injEq] at member
      rcases member with ⟨rfl, _, rfl⟩ | ⟨rfl, _, rfl⟩ <;> exact ⟨rfl, nofun⟩
  | array item | record item =>
      simp only [parts, List.mem_singleton, Prod.mk.injEq] at member
      obtain ⟨rfl, _, rfl⟩ := member
      exact ⟨rfl, fun _ => rfl⟩
  | expanded body =>
      simp only [parts, List.mem_singleton, Prod.mk.injEq] at member
      obtain ⟨rfl, _, rfl⟩ := member
      exact ⟨rfl, nofun⟩
  | tuple codes | union codes =>
      obtain ⟨position, inBounds, same⟩ := List.mem_mapIdx.mp member
      simp only [Prod.mk.injEq] at same
      obtain ⟨rfl, _, rfl⟩ := same
      exact ⟨rfl, nofun⟩
  | object fields =>
      obtain ⟨position, inBounds, same⟩ := List.mem_mapIdx.mp member
      simp only [Prod.mk.injEq] at same
      obtain ⟨rfl, _, rfl⟩ := same
      exact ⟨rfl, nofun⟩
  | primitive | literal | container | oneOf | custom | handover => cases member

/-- What a part is handed a place relative to: the whole value, or the variable that the array or
record at the end of a way binds. -/
inductive BaseOf (code : Code) : Option Way → Base → Prop where
  | root : BaseOf code none .root
  | bound {way : Way} {binder : Writing} : (whole code).Leads way binder →
      binder.code.binds = true → BaseOf code (some way) (.variable binder.next)

/-- The place that a part is handed tells the innermost array or record around it, and the keys and
positions from there. -/
theorem Leads.place {code : Code} (leads : (whole code).Leads way writing) :
    BaseOf code way.binder? writing.place.base ∧ writing.place.steps = way.steps := by
  induction leads with
  | here => exact ⟨.root, rfl⟩
  | @further way move writing part leads member ih =>
      obtain ⟨place, binds⟩ := place_of_mem_parts (mem_parts_of_inTurn member)
      rw [place]
      cases move with
      | along number => exact ih
      | member => exact ⟨.bound leads (binds rfl), rfl⟩
      | down number segment => exact ⟨ih.1, congrArg (· ++ [segment]) ih.2⟩

/-- A base belongs to one array or record only. -/
theorem BaseOf.unique {code : Code} {binder? other? : Option Way} {base : Base}
    (isBase : BaseOf code binder? base) (isOther : BaseOf code other? base) : other? = binder? := by
  cases isBase with
  | root =>
      cases isOther with
      | root => rfl
  | bound leads binds =>
      generalize same : Base.variable _ = base at isOther
      cases isOther with
      | root => cases same
      | bound otherLeads otherBinds =>
          rw [leads.eq_of_next otherLeads binds otherBinds (Base.variable.inj same).symm]

theorem Leads.contains (leads : start.Leads way writing) :
    start.expression.Contains writing.expression := by
  induction leads with
  | here => exact .refl
  | further _ member ih => exact ih.trans (contains_of_mem_further member)

end References

end Writing

/-! ## The text that is written -/

/-- What code is written as, given the reference to the place that it is about, the variable that it
may bind and what its parts are written as. -/
def written (code : Code) (reference bound : String) (parts : List String) : String :=
  let isKind (kind : String) := "is_" ++ kind ++ "(" ++ reference ++ ")"
  let every (kind : Container) := reference ++ "." ++ Expression.walkName kind ++ "().all(|" ++
    bound ++ "| " ++ String.join parts ++ ")"
  let all (conditions : List String) := "(" ++ String.intercalate " && " conditions ++ ")"
  let any (conditions : List String) := "(" ++ String.intercalate " || " conditions ++ ")"
  match code with
  | .primitive kind => isKind kind.name
  | .literal expected => reference ++ " == " ++ expected.text
  | .container kind => isKind kind.name
  | .oneOf members =>
      "[" ++ String.intercalate ", " (members.map Literal.text) ++ "].contains(" ++ reference ++ ")"
  | .custom _ generate => generate reference
  | .both _ _ => all parts
  | .either _ _ | .union _ => any parts
  | .array _ => all [isKind "array", every .array]
  | .record _ => all [isKind "object", every .object]
  | .tuple positions => all (("len(" ++ reference ++ ") == " ++ toString positions.length) :: parts)
  | .object _ => all (isKind "object" :: parts)
  | .expanded _ => String.join parts
  | .handover _ label => "interpret(" ++ label ++ ", " ++ reference ++ ")"

namespace Writing

/-- Code is written from the reference that it is handed and from what its parts are written as. -/
theorem text_expression (writing : Writing) :
    writing.expression.text = writing.code.written writing.place.text
      (Base.variable writing.next).text
      (writing.further.map fun part => part.2.expression.text) := by
  obtain ⟨code, place, next⟩ := writing
  have texts_all (parts : List (Move × Code × Place)) :
      Expression.texts (resultAll next parts).1 =
        (inTurn next parts).map fun part => part.2.expression.text := by
    rw [Expression.texts_eq_map, resultAll, List.map_map]
    rfl
  cases code with
  | tuple codes =>
      rw [expression, expressionAt_tuple, Expression.text, Expression.texts, texts_all]
      rfl
  | object fields =>
      rw [expression, expressionAt_object, Expression.text, Expression.texts, texts_all]
      rfl
  | union codes =>
      rw [expression, expressionAt_union, Expression.text, texts_all]
      rfl
  | array item | record item | expanded item =>
      have only (text : String) : String.join [text] = text := String.empty_append
      simp only [written, further, inTurn, parts, List.map_cons, List.map_nil, only]
      rfl
  | _ => rfl

end Writing

/-- References in a source are unambiguous, whatever keys occur and however often the same schema
has been expanded.

The arrays and records of the code bind the variables from the first number to the last one, each
its own, and no two of them have a variable of the same text.  Each part of the code is written
somewhere in the source, an array or a record as an iteration that binds its variable, and it is
handed a reference.  What is written for it consists of this reference, of its variable and of what
is written for its parts.  The reference is the text of a place: of the whole value or of the
variable that the innermost array or record around the part binds, followed by the keys and
positions from there.  Two parts that are handed the same reference are inside the same innermost
array or record, and the same keys and positions lead to them from there. -/
theorem references_are_unambiguous (code : Code) :
    let whole := Writing.whole code
    code.source = whole.expression.text ∧
      (∀ number, number < whole.after ↔ ∃ way writing, whole.Leads way writing ∧
        writing.code.binds = true ∧ writing.next = number) ∧
      (∀ way writing otherWay other, whole.Leads way writing → whole.Leads otherWay other →
        writing.code.binds = true → other.code.binds = true →
        (Base.variable other.next).text = (Base.variable writing.next).text → otherWay = way) ∧
      ∀ way writing, whole.Leads way writing →
        code.expression.Contains writing.expression ∧
        (writing.code.binds = true → ∃ kind body,
          writing.expression = iteration kind writing.place writing.next body) ∧
        writing.expression.text.toList <:+: code.source.toList ∧
        writing.expression.text = writing.code.written writing.place.text
          (Base.variable writing.next).text
          (writing.further.map fun part => part.2.expression.text) ∧
        Writing.BaseOf code way.binder? writing.place.base ∧ writing.place.steps = way.steps ∧
        ∀ otherWay other, whole.Leads otherWay other →
          other.place.text = writing.place.text →
          Way.binder? otherWay = way.binder? ∧ Way.steps otherWay = way.steps := by
  intro whole
  refine ⟨rfl, ?_, ?_, ?_⟩
  · intro number
    constructor
    · exact fun unfinished => Writing.exists_leads_of_next (Nat.zero_le number) unfinished
    · rintro ⟨way, writing, leads, binds, rfl⟩
      exact Nat.lt_of_lt_of_le (Writing.next_lt_after binds) leads.bounds.2
  · intro way writing otherWay other leads otherLeads binds otherBinds same
    have sameVariable := Place.base_text_injective same
    exact leads.eq_of_next otherLeads binds otherBinds (Base.variable.inj sameVariable)
  · intro way writing leads
    obtain ⟨isBase, steps⟩ := leads.place
    have isInSource := Expression.Contains.isInfix leads.contains
    refine ⟨leads.contains, Writing.expression_of_binds, isInSource, writing.text_expression, isBase,
      steps, ?_⟩
    intro otherWay other otherLeads same
    obtain ⟨isOther, otherSteps⟩ := otherLeads.place
    have samePlace := Place.text_injective same
    rw [samePlace] at isOther otherSteps
    exact ⟨isBase.unique isOther, otherSteps.symm.trans steps⟩

/-- A key that looks like two steps, and two steps. -/
example :
    (Code.object [("a.b", .array (.primitive .number)),
      ("a", .object [("b", .record (.primitive .string))])]).source =
        "(is_object(value) && " ++
          "(is_array(value[\"a.b\"]) && value[\"a.b\"].iter().all(|v0| is_number(v0))) && " ++
          "(is_object(value.a) && " ++
            "(is_object(value.a.b) && value.a.b.values().all(|v1| is_string(v1)))))" := by
  decide +kernel

end Code
end Assay
