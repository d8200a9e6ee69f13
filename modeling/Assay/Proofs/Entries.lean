import Assay.Yaml.Node
import Mathlib.Data.Option.Basic

/-!
# Documents of plain entries

A mapping of words to words can be written with an entry on each line: the key, a colon and a space,
and the value.  The scanner then comes to the beginning of every line in the same state, up to the
tokens that it has read.  The first line opens the block mapping, the end of the text closes it, and
no line depends on the ones before it.  So the entries of such a document are read one after
another, and they are read as they are written. -/

namespace Assay.Yaml

/-! ## Words -/

/-- The characters of words.  None of them has a meaning for the structure of a text. -/
def isWordChar (char : Char) : Bool := char.isAlphanum || char == '_'

/-- Whether some characters are a word. -/
structure IsWord (word : List Char) : Prop where
  nonempty : word ≠ []
  chars : ∀ char ∈ word, isWordChar char = true

/-- A text that goes on with a word, or ends. -/
def BeginsWord (chars : List Char) : Prop := ∀ char ∈ chars.head?, isWordChar char = true

section Characters

variable {char other : Char} (isWord : isWordChar char = true)

include isWord

theorem toNat_of_isWordChar : 0x20 ≤ char.toNat ∧ char.toNat ≤ 0x7E := by
  have between {least most : Char} (above : 0x20 ≤ least.toNat) (below : most.toNat ≤ 0x7E)
      (range : least.val ≤ char.val ∧ char.val ≤ most.val) :
      0x20 ≤ char.toNat ∧ char.toNat ≤ 0x7E :=
    ⟨Nat.le_trans above (UInt32.le_iff_toNat_le.mp range.1),
      Nat.le_trans (UInt32.le_iff_toNat_le.mp range.2) below⟩
  rcases Bool.or_eq_true_iff.mp isWord with isAlphanum | underscore
  · rcases Bool.or_eq_true_iff.mp isAlphanum with isAlpha | isDigit
    · rcases Bool.or_eq_true_iff.mp isAlpha with isUpper | isLower
      · exact between (by decide) (by decide) (of_decide_eq_true isUpper)
      · obtain ⟨least, most⟩ := Bool.and_eq_true_iff.mp isLower
        exact between (by decide) (by decide) ⟨of_decide_eq_true least, of_decide_eq_true most⟩
    · obtain ⟨least, most⟩ := Bool.and_eq_true_iff.mp isDigit
      exact between (by decide) (by decide) ⟨of_decide_eq_true least, of_decide_eq_true most⟩
  · rw [beq_iff_eq.mp underscore]
    decide

theorem ne_of_isWordChar (special : isWordChar other = false) : char ≠ other := by
  rintro rfl
  rw [isWord] at special
  cases special

theorem beq_eq_false_of_isWordChar (special : isWordChar other = false) :
    (char == other) = false :=
  beq_eq_false_iff_ne.mpr (ne_of_isWordChar isWord special)

theorem contains_eq_false_of_isWordChar {chars : List Char}
    (special : chars.all (fun other => !isWordChar other) = true) :
    chars.contains char = false := by
  rw [← Bool.not_eq_true, List.contains_iff_mem]
  intro member
  have notWord := List.all_eq_true.mp special char member
  rw [isWord] at notWord
  cases notWord

theorem after_of_isWordChar (mark : Mark) : mark.after char = mark.skip 1 := by
  have size : char.utf8Size = 1 := by
    rw [Char.utf8Size_eq_one_iff, UInt32.le_iff_toNat_le]
    exact Nat.le_trans (toNat_of_isWordChar isWord).2 (by decide)
  rw [Mark.after, if_neg (ne_of_isWordChar isWord (by decide)), size, Mark.skip]

theorem isBlank_of_isWordChar : isBlank char = false := by
  simp (disch := decide) only [isBlank, beq_eq_false_of_isWordChar isWord, Bool.or_self]

theorem isFlowMark_of_isWordChar : isFlowMark char = false := by
  simp (disch := decide) only [isFlowMark, beq_eq_false_of_isWordChar isWord, Bool.or_self]

omit isWord in
theorem startsWithMarker_eq_false {marker : Char} (differs : (char == marker) = false)
    (rest : List Char) : startsWithMarker marker (char :: rest) = false := by
  unfold startsWithMarker
  split
  · next same =>
      rw [← (List.cons.inj same).1, differs]
      rfl
  · rfl

theorem atDocumentMarker_of_isWordChar (rest : List Char) (mark : Mark) :
    atDocumentMarker (char :: rest) mark = false := by
  rw [atDocumentMarker,
    startsWithMarker_eq_false (beq_eq_false_of_isWordChar isWord (by decide)),
    startsWithMarker_eq_false (beq_eq_false_of_isWordChar isWord (by decide)), Bool.or_self,
    Bool.and_false]

end Characters

theorem Mark.skip_skip (mark : Mark) (first second : Nat) :
    (mark.skip first).skip second = mark.skip (first + second) := by
  simp only [Mark.skip, Nat.add_assoc]

/-! ## Plain scalars -/

section Plain

variable {indent : Int} {mark : Mark} {collected rest : List Char}

/-- A plain scalar goes on through the characters of a word. -/
theorem plainFrom_word {word : List Char} (chars : ∀ char ∈ word, isWordChar char = true) :
    plainFrom false indent (word ++ rest) mark collected {} =
      plainFrom false indent rest (mark.skip word.length) (word.reverse ++ collected) {} := by
  induction word generalizing mark collected with
  | nil => rfl
  | cons char word ih =>
      obtain ⟨isWord, areWord⟩ := List.forall_mem_cons.mp chars
      have goesOn : endsPlain false indent char (word ++ rest) mark {} = false := by
        simp [endsPlain, Gap.isEmpty, atDocumentMarker_of_isWordChar isWord,
          ne_of_isWordChar isWord (by decide : isWordChar ':' = false)]
      rw [List.cons_append, plainFrom, isBlank_of_isWordChar isWord, goesOn,
        if_neg (ne_of_isWordChar isWord (by decide))]
      simp only [Bool.false_eq_true, if_false, Bool.false_and, Gap.folded, List.nil_append]
      rw [ih areWord, after_of_isWordChar isWord, Mark.skip_skip, List.reverse_cons,
        List.append_assoc, List.length_cons, Nat.add_comm 1]
      rfl

/-- A plain scalar ends in front of a colon with a space behind it. -/
theorem plainFrom_colon :
    plainFrom false indent (':' :: ' ' :: rest) mark collected {} =
      some ⟨String.ofList collected.reverse, ':' :: ' ' :: rest, mark, false⟩ := by
  have ends : endsPlain false indent ':' (' ' :: rest) mark {} = true := by
    simp [endsPlain, atGap, isBlank]
  rw [plainFrom, ends]
  rfl

/-- A plain scalar inside a mapping that is not indented ends at the end of its line, if the next
line is not indented either. -/
theorem plainFrom_newline (begins : BeginsWord rest) :
    plainFrom false 1 ('\n' :: rest) mark collected {} =
      some ⟨String.ofList collected.reverse, rest, mark.after '\n', true⟩ := by
  rw [plainFrom]
  cases rest with
  | nil => rfl
  | cons char rest =>
      have isWord := begins char rfl
      -- Behind the break a word in the first column is indented too little to go on.
      have ends : endsPlain false 1 char rest (mark.after '\n') (Gap.addBreak {}) = true := by
        simp [endsPlain, Gap.isEmpty, Gap.addBreak, Mark.after]
      rw [if_neg (by decide), if_pos rfl, plainFrom, isBlank_of_isWordChar isWord,
        if_neg (by decide), if_neg (ne_of_isWordChar isWord (by decide)), ends, if_pos rfl]
      rfl

end Plain

/-! ## Entries -/

/-- An entry that can be written on a line: its key and its value are words, and the key is short
enough to be recognized by the colon behind it. -/
structure Entry where
  key : String
  value : String
  isKey : IsWord key.toList
  isValue : IsWord value.toList
  short : key.length ≤ 1024

namespace Entry

/-- The line that an entry is written on. -/
def chars (entry : Entry) : List Char :=
  entry.key.toList ++ ':' :: ' ' :: (entry.value.toList ++ ['\n'])

/-- The tokens of an entry. -/
def tokens (entry : Entry) : List Token :=
  [.key, .scalar .plain entry.key, .value, .scalar .plain entry.value]

/-- The nodes of an entry. -/
def nodes (entry : Entry) : Node × Node :=
  (.scalar none .plain none entry.key, .scalar none .plain none entry.value)

theorem beginsWord (entries : List Entry) : BeginsWord (entries.flatMap chars) := by
  cases entries with
  | nil => exact fun _ isHead => nomatch isHead
  | cons entry rest =>
      obtain ⟨first, others, isFirst⟩ := List.exists_cons_of_ne_nil entry.isKey.nonempty
      intro char isHead
      rw [List.flatMap_cons, chars, isFirst] at isHead
      cases isHead
      exact entry.isKey.chars first (isFirst ▸ List.mem_cons_self)

theorem length_le_chars (entries : List Entry) :
    3 * entries.length ≤ (entries.flatMap chars).length := by
  induction entries with
  | nil => exact Nat.le_refl 0
  | cons entry rest ih =>
      have three : 3 ≤ entry.chars.length := by
        simp only [chars, List.length_append, List.length_cons, List.length_nil]
        omega
      rw [List.flatMap_cons, List.length_append, List.length_cons]
      omega

theorem length_le_tokens (entries : List Entry) :
    entries.length ≤ (entries.flatMap tokens).length := by
  induction entries with
  | nil => exact Nat.le_refl 0
  | cons entry rest ih =>
      rw [List.flatMap_cons, List.length_append, List.length_cons, tokens, List.length_cons]
      omega

end Entry

/-! ## Scanning -/

namespace Scanner

/-- The scanner at the beginning of a line, in front of the block mapping or inside it. -/
def atLine (inside : Bool) (rest : List Char) (mark : Mark) (tokens : List Token) (count : Nat) :
    Scanner where
  rest := rest
  mark := mark
  tokens := tokens
  count := count
  indent := if inside then 0 else -1
  indents := if inside then [-1] else []

/-- The scanner behind a key that began at `start`. -/
def behindKey (inside : Bool) (rest : List Char) (start mark : Mark) (tokens : List Token)
    (count : Nat) : Scanner :=
  { atLine inside rest mark tokens (count + 1) with
    keyAllowed := false
    candidates := [some { position := count, mark := start, required := inside }] }

/-- The scanner behind a colon. -/
def behindColon (rest : List Char) (mark : Mark) (tokens : List Token) (count : Nat) : Scanner :=
  { atLine true rest mark tokens count with keyAllowed := false }

section Steps

variable {rounds count : Nat} {scanner : Scanner} {inside : Bool} {rest : List Char}
variable {start mark : Mark} {tokens : List Token}

theorem passGap_of_isWordChar {char : Char} (isWord : isWordChar char = true) (inFlow : Bool)
    (mark : Mark) (keyAllowed : Bool) :
    passGap inFlow (char :: rest) mark keyAllowed false = (char :: rest, mark, keyAllowed) := by
  have noMark : ¬ (char = byteOrderMark ∧ mark.column = 0) :=
    fun isMark => ne_of_isWordChar isWord (by decide) isMark.1
  have noBlank : (false || char == ' ' || (char == '\t' && (inFlow || !keyAllowed))) = false := by
    simp (disch := decide) only [beq_eq_false_of_isWordChar isWord, Bool.or_self, Bool.false_and]
  rw [passGap, noBlank, if_neg (ne_of_isWordChar isWord (by decide)), if_neg Bool.false_ne_true,
    if_neg (ne_of_isWordChar isWord (by decide)), if_neg noMark]

theorem closeTo_of_le {column : Int} (indented : scanner.indent ≤ column) :
    scanner.closeTo column = scanner := by
  rw [closeTo]
  cases scanner.indents with
  | nil => rfl
  | cons outer outers =>
      rw [closeBlocks, decide_eq_false (Int.not_lt.mpr indented), Bool.and_false,
        if_neg Bool.false_ne_true]

/-- A word is read as a plain scalar. -/
theorem token?_of_isWordChar {char : Char} (isWord : isWordChar char = true)
    (begins : scanner.rest = char :: rest) (indented : scanner.indent ≤ scanner.mark.column) :
    scanner.token? char rest = scanner.plain? := by
  have isPlain : beginsPlain scanner.inFlow char rest = true := by
    simp (disch := decide) only [beginsPlain, beq_eq_false_of_isWordChar isWord,
      isFlowMark_of_isWordChar isWord, contains_eq_false_of_isWordChar isWord,
      isBlank_of_isWordChar isWord, Bool.or_self, Bool.false_eq_true, if_false, Bool.not_false]
  rw [token?, closeTo_of_le indented, begins, isPlain,
    startsWithMarker_eq_false (beq_eq_false_of_isWordChar isWord (by decide)),
    startsWithMarker_eq_false (beq_eq_false_of_isWordChar isWord (by decide))]
  simp (disch := decide) only [beq_eq_false_of_isWordChar isWord, Bool.and_false, Bool.false_and,
    Bool.false_eq_true, if_false, if_true]

/-- A colon with a space behind it ends a key. -/
theorem token?_colon (begins : scanner.rest = ':' :: ' ' :: rest)
    (indented : scanner.indent ≤ scanner.mark.column) :
    scanner.token? ':' (' ' :: rest) = scanner.value? := by
  rw [token?, closeTo_of_le indented, begins, startsWithMarker_eq_false (by decide),
    startsWithMarker_eq_false (by decide)]
  simp [atGap, isBlank]

theorem scan?_atWord {word : List Char} (isWord : IsWord word)
    (begins : scanner.rest = word ++ rest) (indented : scanner.indent ≤ scanner.mark.column) :
    scan? (rounds + 1) scanner = scanner.plain?.bind (scan? rounds) := by
  obtain ⟨char, others, rfl⟩ := List.exists_cons_of_ne_nil isWord.nonempty
  have isFirst := isWord.chars char List.mem_cons_self
  rw [List.cons_append] at begins
  have same : { scanner with rest := char :: (others ++ rest) } = scanner := by rw [← begins]
  rw [scan?, begins, passGap_of_isWordChar isFirst]
  simp only [same, token?_of_isWordChar isFirst begins indented]
  rfl

theorem scan?_atColon (begins : scanner.rest = ':' :: ' ' :: rest)
    (indented : scanner.indent ≤ scanner.mark.column) :
    scan? (rounds + 1) scanner = scanner.value?.bind (scan? rounds) := by
  have read := token?_colon begins indented
  obtain ⟨_, _, _, _, _, _, _, _⟩ := scanner
  cases begins
  rw [← read]
  rfl

theorem scan?_key {key : List Char} (isKey : IsWord key) (atStart : mark.column = 0) :
    scan? (rounds + 1) (atLine inside (key ++ ':' :: ' ' :: rest) mark tokens count) =
      scan? rounds (behindKey inside (':' :: ' ' :: rest) mark (mark.skip key.length)
        (.scalar .plain (String.ofList key) :: tokens) count) := by
  -- Only inside the mapping a token in the first column has to be a key.
  have required : decide ((if inside then 0 else -1 : Int) = mark.column) = inside := by
    rw [atStart]
    cases inside <;> rfl
  have scanned : (atLine inside (key ++ ':' :: ' ' :: rest) mark tokens count).plain? =
      some (behindKey inside (':' :: ' ' :: rest) mark (mark.skip key.length)
        (.scalar .plain (String.ofList key) :: tokens) count) := by
    simp [plain?, offerCandidate?, dropCandidate?, atLine, inFlow, plainFrom_word isKey.chars,
      plainFrom_colon, required, behindKey, pushScalar, push]
  rw [scan?_atWord isKey rfl (by cases inside <;> simp [atLine]), scanned]
  rfl

/-- The colon makes a key of the scalar in front of it, and the first one opens the mapping. -/
theorem value?_behindKey {scalar : Token} (atStart : start.column = 0)
    (near : isStale mark { position := count, mark := start, required := inside } = false) :
    (behindKey inside (':' :: rest) start mark (scalar :: tokens) count).value? =
      some (behindColon rest (mark.skip 1)
        (.value :: scalar :: .key :: if inside then tokens else .blockMappingStart :: tokens)
        (count + if inside then 3 else 4)) := by
  cases inside with
  | true =>
      simp [value?, behindKey, near, atLine, atStart, insertAt, openBlock, inFlow, skip, push,
        behindColon]
  | false =>
      have behind : count + 1 + 1 - count = 2 := by omega
      simp [value?, behindKey, near, atLine, atStart, insertAt, openBlock, inFlow, skip, push,
        behindColon, behind]

theorem scan?_colon {scalar : Token} (atStart : start.column = 0)
    (near : isStale mark { position := count, mark := start, required := inside } = false) :
    scan? (rounds + 1) (behindKey inside (':' :: ' ' :: rest) start mark (scalar :: tokens) count) =
      scan? rounds (behindColon (' ' :: rest) (mark.skip 1)
        (.value :: scalar :: .key :: if inside then tokens else .blockMappingStart :: tokens)
        (count + if inside then 3 else 4)) := by
  have indented : (if inside then 0 else -1 : Int) ≤ mark.column := by cases inside <;> simp
  rw [scan?_atColon rfl indented, value?_behindKey atStart near]
  rfl

theorem scan?_value {value : List Char} (isValue : IsWord value) (begins : BeginsWord rest) :
    scan? (rounds + 1) (behindColon (' ' :: (value ++ '\n' :: rest)) mark tokens count) =
      scan? rounds (atLine true rest ((mark.skip (value.length + 1)).after '\n')
        (.scalar .plain (String.ofList value) :: tokens) (count + 1)) := by
  have behindSpace :
      scan? (rounds + 1) (behindColon (' ' :: (value ++ '\n' :: rest)) mark tokens count) =
        scan? (rounds + 1) (behindColon (value ++ '\n' :: rest) (mark.skip 1) tokens count) := rfl
  have scanned : (behindColon (value ++ '\n' :: rest) (mark.skip 1) tokens count).plain? =
      some (atLine true rest ((mark.skip (value.length + 1)).after '\n')
        (.scalar .plain (String.ofList value) :: tokens) (count + 1)) := by
    simp [plain?, offerCandidate?, behindColon, atLine, inFlow, plainFrom_word isValue.chars,
      plainFrom_newline begins, pushScalar, push, Mark.skip_skip, Nat.add_comm 1]
  rw [behindSpace, scan?_atWord isValue rfl (by simp [behindColon, atLine]), scanned]
  rfl

/-- Reading a line takes the scanner to the beginning of the next one. -/
theorem scan?_entry (entry : Entry) (begins : BeginsWord rest) (atStart : mark.column = 0)
    (rounds : Nat) (inside : Bool) (tokens : List Token) (count : Nat) :
    ∃ mark' count', mark'.column = 0 ∧
      scan? (rounds + 3) (atLine inside (entry.chars ++ rest) mark tokens count) =
        scan? rounds (atLine true rest mark'
          (entry.tokens.reverse ++ if inside then tokens else .blockMappingStart :: tokens)
          count') := by
  have near : isStale (mark.skip entry.key.toList.length)
      { position := count, mark, required := inside } = false := by
    have short := entry.short
    rw [← String.length_toList] at short
    simp [isStale, Mark.skip]
    omega
  let behindColon := (mark.skip entry.key.toList.length).skip 1
  let behindValue := behindColon.skip (entry.value.toList.length + 1)
  refine ⟨behindValue.after '\n', count + (if inside then 3 else 4) + 1, rfl, ?_⟩
  rw [Entry.chars, List.append_assoc, List.cons_append, List.cons_append, List.append_assoc,
    List.cons_append, List.nil_append, scan?_key entry.isKey atStart, scan?_colon atStart near,
    scan?_value entry.isValue begins, String.ofList_toList, String.ofList_toList]
  rfl

/-- Reading the lines of a mapping to their end closes it. -/
theorem scan?_entries (entries : List Entry) (atStart : mark.column = 0)
    (enough : 3 * entries.length < rounds) (tokens : List Token) (count : Nat) :
    (scan? rounds (atLine true (entries.flatMap Entry.chars) mark tokens count)).map (·.tokens) =
      some (.blockEnd :: ((entries.flatMap Entry.tokens).reverse ++ tokens)) := by
  induction entries generalizing rounds mark tokens count with
  | nil =>
      obtain ⟨fewer, rfl⟩ := Nat.exists_eq_add_of_lt enough
      rfl
  | cons entry rest ih =>
      rw [List.length_cons] at enough
      obtain ⟨fewer, rfl⟩ : ∃ fewer, rounds = fewer + 3 := ⟨rounds - 3, by omega⟩
      obtain ⟨mark', count', atStart', read⟩ :=
        scan?_entry entry (Entry.beginsWord rest) atStart fewer true tokens count
      rw [List.flatMap_cons, read, ih atStart' (by omega), List.flatMap_cons, List.reverse_append,
        List.append_assoc]
      rfl

end Steps

end Scanner

/-! ## Characters of lines -/

/-- Whether a character ends a line or is an ASCII character that can be seen. -/
def IsPrintable (char : Char) : Prop := char = '\n' ∨ 0x20 ≤ char.toNat ∧ char.toNat ≤ 0x7E

instance : DecidablePred IsPrintable := fun char =>
  inferInstanceAs (Decidable (char = '\n' ∨ 0x20 ≤ char.toNat ∧ char.toNat ≤ 0x7E))

namespace IsPrintable

variable {char other : Char}

theorem isPermitted (printable : IsPrintable char) : isPermitted char = true := by
  rcases printable with rfl | ⟨least, most⟩
  · decide
  · simp [Yaml.isPermitted, least, most]

theorem ne (printable : IsPrintable char) (special : ¬ IsPrintable other) : char ≠ other := by
  rintro rfl
  exact special printable

end IsPrintable

/-- Printable characters contain no break that would be unified. -/
theorem unifyBreaks_of_isPrintable {chars : List Char}
    (printable : ∀ char ∈ chars, IsPrintable char) : unifyBreaks chars = chars := by
  induction chars with
  | nil => rfl
  | cons char rest ih =>
      obtain ⟨isChar, areRest⟩ := List.forall_mem_cons.mp printable
      have noReturn : char ≠ '\r' := isChar.ne (by decide)
      have noBreak : (char == '\r' || char == '\u0085' || char == '\u2028' || char == '\u2029') =
          false := by
        simp [noReturn, isChar.ne (by decide : ¬ IsPrintable '\u0085'),
          isChar.ne (by decide : ¬ IsPrintable '\u2028'),
          isChar.ne (by decide : ¬ IsPrintable '\u2029')]
      unfold unifyBreaks
      split
      · next same => exact (noReturn (List.cons.inj same).1).elim
      · next same =>
          obtain ⟨rfl, rfl⟩ := List.cons.inj same
          rw [noBreak, ih areRest, if_neg Bool.false_ne_true]
      · next same => cases same

theorem Entry.isPrintable_chars (entries : List Entry) :
    ∀ char ∈ entries.flatMap chars, IsPrintable char := by
  intro char member
  obtain ⟨entry, -, member⟩ := List.mem_flatMap.mp member
  have ofWord {word : List Char} (isWord : IsWord word) (inWord : char ∈ word) :
      IsPrintable char :=
    .inr (toNat_of_isWordChar (isWord.chars char inWord))
  simp only [chars, List.mem_append, List.mem_cons, List.not_mem_nil, or_false] at member
  rcases member with inKey | rfl | rfl | inValue | rfl
  · exact ofWord entry.isKey inKey
  · decide
  · decide
  · exact ofWord entry.isValue inValue
  · decide

/-- The tokens of lines with an entry each. -/
theorem tokens?_of_entries {text : String} (first : Entry) (rest : List Entry)
    (isText : text.toList = (first :: rest).flatMap Entry.chars) :
    tokens? text =
      some (.blockMappingStart :: ((first :: rest).flatMap Entry.tokens ++ [.blockEnd])) := by
  have printable : ∀ char ∈ text.toList, IsPrintable char :=
    isText ▸ Entry.isPrintable_chars (first :: rest)
  have permitted : text.toList.all isPermitted = true :=
    List.all_eq_true.mpr fun char member => (printable char member).isPermitted
  have unified : unifyBreaks text.toList = text.toList := unifyBreaks_of_isPrintable printable
  have long := Entry.length_le_chars (first :: rest)
  rw [← isText, List.length_cons] at long
  obtain ⟨rounds, isRounds⟩ : ∃ rounds, text.toList.length + 1 = rounds + 3 :=
    ⟨text.toList.length - 2, by omega⟩
  have enough : 3 * rest.length < rounds := by omega
  have atStart : ({} : Mark).column = 0 := rfl
  obtain ⟨mark, count, atSecond, read⟩ :=
    Scanner.scan?_entry first (Entry.beginsWord rest) atStart rounds false [] 0
  rw [← List.flatMap_cons, ← isText] at read
  have scanned := Scanner.scan?_entries rest atSecond enough
    (first.tokens.reverse ++ [.blockMappingStart]) count
  obtain ⟨scanner, isScanner, tokens⟩ := Option.map_eq_some_iff.mp scanned
  have scan : Scanner.scan? (text.toList.length + 1) { rest := text.toList } = some scanner := by
    rw [isRounds]
    exact read.trans isScanner
  simp [tokens?, permitted, unified, scan, tokens, (Option.guard_eq_some' ()).mpr]

/-! ## Nodes -/

namespace Node

theorem parse?_scalar (rounds : Nat) (place : Place) (style : Style) (content : String)
    (reading : Reading) (rest : List Token) :
    parse? (rounds + 2) place { reading with tokens := .scalar style content :: rest } =
      some (.scalar none style none content, { reading with tokens := rest }) := by
  have written : place.isOmitted (some (.scalar style content)) = false := by cases place <;> rfl
  simp [parse?, written, properties?, content?]

theorem value?_scalar (rounds : Nat) (place : Place) (style : Style) (content : String)
    (reading : Reading) (rest : List Token) :
    value? (rounds + 3) place { reading with tokens := .value :: .scalar style content :: rest } =
      some (.scalar none style none content, { reading with tokens := rest }) :=
  parse?_scalar rounds place style content reading rest

theorem blockMapping?_entry (rounds : Nat) (entry : Entry) (slot : Option Nat)
    (found : List (Node × Node)) (reading : Reading) (rest : List Token) :
    blockMapping? (rounds + 4) slot found { reading with tokens := entry.tokens ++ rest } =
      blockMapping? (rounds + 3) slot (entry.nodes :: found) { reading with tokens := rest } := by
  have key := parse?_scalar (rounds + 1) .blockKey .plain entry.key reading
    (.value :: .scalar .plain entry.value :: rest)
  have value := value?_scalar rounds .blockValue .plain entry.value reading rest
  rw [blockMapping?]
  simp only [Entry.tokens, List.cons_append, List.nil_append, key, value, Option.bind_eq_bind,
    Option.bind_some, Entry.nodes]

theorem blockMapping?_entries {rounds : Nat} (entries : List Entry)
    (enough : entries.length + 3 ≤ rounds) (slot : Option Nat) (found : List (Node × Node))
    (reading : Reading) (rest : List Token) :
    blockMapping? rounds slot found
        { reading with tokens := entries.flatMap Entry.tokens ++ .blockEnd :: rest } =
      some (.mapping slot (found.reverse ++ entries.map Entry.nodes),
        { reading with tokens := rest }) := by
  induction entries generalizing rounds found with
  | nil =>
      obtain ⟨fewer, rfl⟩ := Nat.exists_eq_add_of_le' enough
      simp [blockMapping?]
  | cons entry entries ih =>
      rw [List.length_cons] at enough
      obtain ⟨fewer, rfl⟩ : ∃ fewer, rounds = fewer + 4 := ⟨rounds - 4, by omega⟩
      rw [List.flatMap_cons, List.append_assoc, blockMapping?_entry, ih (by omega),
        List.reverse_cons, List.append_assoc, List.map_cons]
      rfl

theorem parse?_entries {rounds : Nat} (entries : List Entry)
    (enough : entries.length + 3 ≤ rounds) (reading : Reading) (rest : List Token) :
    parse? (rounds + 2) .bareDocument { reading with
        tokens := .blockMappingStart :: (entries.flatMap Entry.tokens ++ .blockEnd :: rest) } =
      some (.mapping none (entries.map Entry.nodes), { reading with tokens := rest }) := by
  have mapping := blockMapping?_entries entries enough none [] reading rest
  rw [parse?]
  simp only [Place.isOmitted, Bool.false_eq_true, if_false, properties?, Option.bind_eq_bind,
    Option.bind_some]
  rw [content?]
  simpa [Place.allowsBlock] using mapping

end Node

/-- A document with an entry on each line holds the mapping of these entries. -/
theorem document?_of_entries {text : String} (first : Entry) (rest : List Entry)
    (isText : text.toList = (first :: rest).flatMap Entry.chars) :
    document? text = some (some (.mapping none ((first :: rest).map Entry.nodes))) := by
  have long := Entry.length_le_tokens (first :: rest)
  generalize isRead :
    Token.blockMappingStart :: ((first :: rest).flatMap Entry.tokens ++ [Token.blockEnd]) = read
  have length : ((first :: rest).flatMap Entry.tokens).length + 2 = read.length := by
    rw [← isRead, List.length_cons, List.length_append, List.length_singleton]
  obtain ⟨rounds, isRounds⟩ : ∃ rounds, 4 * (read.length + 2) = rounds + 2 :=
    ⟨4 * read.length + 6, by omega⟩
  have enough : (first :: rest).length + 3 ≤ rounds := by omega
  have mapping := Node.parse?_entries (first :: rest) enough { tokens := [] } []
  have start : Node.documentStart? read = some (.bareDocument, { tokens := read }) := by
    rw [← isRead]
    simp [Node.documentStart?, Node.directives?, (Option.guard_eq_some' ()).mpr]
  have nonempty : read ≠ [] := isRead ▸ List.cons_ne_nil _ _
  rw [isRead] at mapping
  rw [document?, tokens?_of_entries first rest isText, isRead]
  simp [nonempty, start, isRounds, mapping, Node.dropDocumentEnds, (Option.guard_eq_some' ()).mpr]

end Assay.Yaml
