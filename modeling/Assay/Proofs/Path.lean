import Assay.Proofs.Places

/-!
# Texts of paths

Nothing is escaped in the text of a path, so a name with a dot or a bracket in it may look like
several steps.  If no name contains one, every step says by itself where it ends: a name goes on to
the dot or the bracket of the next step, and a position to its closing bracket.

The dot that is left out in front of a leading field can be put back, as the text of a path that
begins with a position begins with a bracket.  With that dot the text is that of the steps one after
another. -/

namespace Assay

namespace Segment

/-- Whether the name of a field has nothing in it that begins another step. -/
def IsPlain : Segment → Prop
  | .field name => '.' ∉ name.toList ∧ '[' ∉ name.toList
  | .index _ => True

instance : DecidablePred IsPlain
  | .field name => inferInstanceAs (Decidable ('.' ∉ name.toList ∧ '[' ∉ name.toList))
  | .index _ => inferInstanceAs (Decidable True)

/-- The characters of a plain name. -/
def isNamePart (char : Char) : Bool := char != '.' && char != '['

theorem IsPlain.isNamePart {name : String} (plain : (field name).IsPlain) :
    ∀ char ∈ name.toList, isNamePart char = true := by
  intro char member
  have noDot : char ≠ '.' := fun isDot => plain.1 (isDot ▸ member)
  have noBracket : char ≠ '[' := fun isBracket => plain.2 (isBracket ▸ member)
  simp [Segment.isNamePart, noDot, noBracket]

theorem not_isNamePart_of_opens {rest : List Char} (opens : Place.Opens rest) :
    ∀ char ∈ rest.head?, isNamePart char = false := by
  intro char isHead
  rcases opens char isHead with rfl | rfl <;> decide

theorem toList_text_field (name : String) : (field name).text.toList = '.' :: name.toList := by
  simp [text]

theorem toList_text_index (position : Nat) :
    (index position).text.toList = '[' :: (Nat.toDigits 10 position ++ [']']) := by
  simp [text]

theorem opens_text (segment : Segment) (rest : List Char) :
    Place.Opens (segment.text.toList ++ rest) := by
  cases segment <;> simp [Place.Opens, toList_text_field, toList_text_index]

theorem toList_text_ne_nil (segment : Segment) : segment.text.toList ≠ [] := by
  cases segment <;> simp [toList_text_field, toList_text_index]

/-- A plain segment says by itself where it ends, if another one or nothing comes behind it. -/
theorem text_append_inj {left right : Segment} (leftPlain : left.IsPlain)
    (rightPlain : right.IsPlain) {leftRest rightRest : List Char}
    (leftOpens : Place.Opens leftRest) (rightOpens : Place.Opens rightRest)
    (same : left.text.toList ++ leftRest = right.text.toList ++ rightRest) :
    left = right ∧ leftRest = rightRest := by
  cases left with
  | field name =>
      rw [toList_text_field] at same
      cases right with
      | field other =>
          rw [toList_text_field] at same
          obtain ⟨sameName, sameRest⟩ := append_inj_of_all leftPlain.isNamePart
            rightPlain.isNamePart (not_isNamePart_of_opens leftOpens)
            (not_isNamePart_of_opens rightOpens) (List.cons.inj same).2
          exact ⟨congrArg field (String.toList_injective sameName), sameRest⟩
      | index position =>
          rw [toList_text_index] at same
          exact absurd (List.cons.inj same).1 (by decide)
  | index position =>
      rw [toList_text_index] at same
      cases right with
      | field other =>
          rw [toList_text_field] at same
          exact absurd (List.cons.inj same).1 (by decide)
      | index other =>
          rw [toList_text_index] at same
          simp only [List.cons_append, List.append_assoc, List.nil_append] at same
          obtain ⟨samePosition, sameRest⟩ := Place.toDigits_append_inj (List.cons.inj same).2
          exact ⟨congrArg index samePosition, sameRest⟩

end Segment

namespace Path

/-- Whether a path has plain names only, and no leading field without a name. -/
structure IsPlain (path : Path) : Prop where
  segments : ∀ segment ∈ path, segment.IsPlain
  leading : path.head? ≠ some (.field "")

instance : DecidablePred IsPlain := fun path =>
  decidable_of_iff ((∀ segment ∈ path, segment.IsPlain) ∧ path.head? ≠ some (.field ""))
    ⟨fun ⟨segments, leading⟩ => ⟨segments, leading⟩, fun plain => ⟨plain.segments, plain.leading⟩⟩

/-- The texts of the segments of a path, one after another. -/
def segmentChars (path : Path) : List Char := path.flatMap fun segment => segment.text.toList

/-- A text with the dot in front of a leading name. -/
def withLeadingDot : List Char → List Char
  | [] => []
  | '[' :: rest => '[' :: rest
  | chars => '.' :: chars

theorem withLeadingDot_of_isNamePart {char : Char} {rest : List Char}
    (isName : Segment.isNamePart char = true) :
    withLeadingDot (char :: rest) = '.' :: char :: rest := by
  unfold withLeadingDot
  split
  · next empty => cases empty
  · next bracket => exact absurd ((List.cons.inj bracket).1 ▸ isName) (by decide)
  · rfl

theorem toList_text_cons (first : Segment) (rest : List Segment) :
    (text (first :: rest)).toList = first.leadingText.toList ++ segmentChars rest :=
  Place.toList_foldl_append Segment.text rest first.leadingText

/-- Only a leading dot is missing in the text of a plain path. -/
theorem segmentChars_eq_withLeadingDot {path : Path} (plain : path.IsPlain) :
    path.segmentChars = withLeadingDot path.text.toList := by
  cases path with
  | nil => rfl
  | cons first rest =>
      rw [toList_text_cons, segmentChars, List.flatMap_cons]
      cases first with
      | field name =>
          have isName := (plain.segments _ List.mem_cons_self).isNamePart
          rw [Segment.leadingText, Segment.toList_text_field]
          -- The name has a first character, which begins no step, so a dot was in front of it.
          cases chars : name.toList with
          | nil =>
              have unnamed : name = "" := String.toList_eq_nil_iff.mp chars
              exact (plain.leading (unnamed ▸ rfl)).elim
          | cons char others =>
              have isFirst := isName char (chars ▸ List.mem_cons_self)
              simp only [List.cons_append]
              rw [withLeadingDot_of_isNamePart isFirst]
              rfl
      | index position =>
          have leading : (Segment.index position).leadingText = (Segment.index position).text := rfl
          rw [leading, Segment.toList_text_index]
          rfl

theorem segmentChars_inj {left right : Path} (leftPlain : ∀ segment ∈ left, segment.IsPlain)
    (rightPlain : ∀ segment ∈ right, segment.IsPlain)
    (same : left.segmentChars = right.segmentChars) : left = right := by
  refine Place.eq_of_flatMap_eq Segment.opens_text Segment.toList_text_ne_nil ?_ same
  intro one inLeft other inRight oneRest otherRest oneOpens otherOpens sameText
  exact Segment.text_append_inj (leftPlain one inLeft) (rightPlain other inRight) oneOpens
    otherOpens sameText

theorem text_inj {left right : Path} (leftPlain : left.IsPlain) (rightPlain : right.IsPlain) :
    left.text = right.text ↔ left = right := by
  constructor
  · intro same
    apply segmentChars_inj leftPlain.segments rightPlain.segments
    rw [segmentChars_eq_withLeadingDot leftPlain, segmentChars_eq_withLeadingDot rightPlain, same]
  · exact congrArg text

/-- The clause of a message that names a place shows the text of the path. -/
theorem toList_text_eq_drop_clause (path : Path) :
    path.text.toList = path.clause.toList.drop 3 := by
  cases path <;> simp [clause, text]

/-- The text of a path identifies the place that the path leads to, as long as no name of a field
contains a dot or an opening bracket and a leading field has a name.  Paths that have the same text
agree segment by segment, and so do paths that are named by the same clause of a message. -/
theorem text_identifies (left right : Path) (leftPlain : left.IsPlain)
    (rightPlain : right.IsPlain) :
    (left.text = right.text ↔ left = right) ∧ (left.clause = right.clause ↔ left = right) := by
  have byText := text_inj leftPlain rightPlain
  constructor
  · exact byText
  · constructor
    · intro same
      apply byText.mp
      apply String.toList_injective
      rw [toList_text_eq_drop_clause left, toList_text_eq_drop_clause right, same]
    · exact congrArg clause

/-- A field without a name is seen inside a path, also behind a name that ends in a bracket. -/
theorem text_identifies_of_unnamed :
    let inside : Path := [.field "a]", .field "", .index 10]
    let without : Path := [.field "a]", .index 10]
    inside.IsPlain ∧ without.IsPlain ∧ inside.text ≠ without.text ∧
      inside.clause ≠ without.clause := by
  intro inside without
  have insidePlain : inside.IsPlain := by decide
  have withoutPlain : without.IsPlain := by decide
  have differ : inside ≠ without := by decide
  obtain ⟨sameText, sameClause⟩ := text_identifies inside without insidePlain withoutPlain
  exact ⟨insidePlain, withoutPlain, fun same => differ (sameText.mp same),
    fun same => differ (sameClause.mp same)⟩

/-- A dot in a name looks like a step, and a leading field without a name is not seen. -/
example : text [.field "a.b"] = text [.field "a", .field "b"] ∧
    text [.field "", .index 0] = text [.index 0] := by decide +kernel

end Path
end Assay
