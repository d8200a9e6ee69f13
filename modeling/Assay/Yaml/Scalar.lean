import Assay.Digits
import Assay.Yaml.Text

/-!
# Scalars of YAML text

Reads one scalar in each of the styles of YAML: plain, in single or double quotes, and as a block
of lines.  Every reader gives the content, what follows the scalar and the place there.
-/

namespace Assay.Yaml

/-- How a scalar is written. -/
inductive Style where
  | plain
  | singleQuoted
  | doubleQuoted
  | literal
  | folded
  deriving DecidableEq, Repr

/-- A scalar that has been read, with what follows it.  `broken` tells that a line break was passed
after it. -/
structure Scanned where
  content : String
  rest : List Char
  mark : Mark
  broken : Bool := false

/-- Whether a plain scalar ends in front of a character, after a gap and with what follows. -/
def endsPlain (inFlow : Bool) (indent : Int) (char : Char) (rest : List Char) (mark : Mark)
    (gap : Gap) : Bool :=
  (!gap.isEmpty && (char == '#' || (!inFlow && decide ((mark.column : Int) < indent)))) ||
    atDocumentMarker (char :: rest) mark || (char == ':' && atGap rest) ||
    (inFlow && isFlowMark char)

/-- Whether a text begins with a colon that belongs neither to a scalar in a flow collection nor
behind it. -/
def isStrayColon : List Char → Bool
  | ':' :: char :: _ => isFlowMark char || char == '?'
  | _ => false

/-- Reads a plain scalar, whose lines are indented by at least `indent` outside flow collections.
Collected characters are reversed. -/
def plainFrom (inFlow : Bool) (indent : Int) :
    List Char → Mark → (collected : List Char) → Gap → Option Scanned
  | [], mark, collected, gap =>
      some ⟨String.ofList collected.reverse, [], mark, gap.isBroken⟩
  | char :: rest, mark, collected, gap =>
      if isBlank char then
        if gap.isBroken && char == '\t' && decide ((mark.column : Int) < indent) then none
        else plainFrom inFlow indent rest (mark.after char) collected (gap.addBlank char)
      else if char = '\n' then
        plainFrom inFlow indent rest (mark.after char) collected gap.addBreak
      else if endsPlain inFlow indent char rest mark gap then
        some ⟨String.ofList collected.reverse, char :: rest, mark, gap.isBroken⟩
      else if inFlow && isStrayColon (char :: rest) then none
      else
        plainFrom inFlow indent rest (mark.after char) (char :: (gap.folded ++ collected)) {}

/-- The character with a hexadecimal code. -/
def charOfHex? (digits : List Char) : Option Char := do
  let code ← Digits.read? 16 digits
  if code < 0xD800 ∨ (0xE000 ≤ code ∧ code < 0x110000) then some (Char.ofNat code) else none

/-- The character of a one-letter escape. -/
def simpleEscape? (letter : Char) : Option Char :=
  match letter with
  | '0' => some '\x00'
  | 'a' => some '\x07'
  | 'b' => some '\x08'
  | 't' => some '\t'
  | '\t' => some '\t'
  | 'n' => some '\n'
  | 'v' => some '\x0b'
  | 'f' => some '\x0c'
  | 'r' => some '\r'
  | 'e' => some '\x1b'
  | ' ' => some ' '
  | '"' => some '"'
  | '/' => some '/'
  | '\\' => some '\\'
  | 'N' => some '\u0085'
  | '_' => some '\u00a0'
  | 'L' => some '\u2028'
  | 'P' => some '\u2029'
  | _ => none

/-- Reads the rest of a scalar in double quotes. -/
def doubleQuotedFrom : List Char → Mark → (collected : List Char) → Gap → Option Scanned
  | [], _, _, _ => none
  | '"' :: rest, mark, collected, gap =>
      some ⟨String.ofList (gap.folded ++ collected).reverse, rest, mark.after '"', false⟩
  | '\\' :: 'x' :: a :: b :: rest, mark, collected, gap => do
      let char ← charOfHex? [a, b]
      doubleQuotedFrom rest (mark.skip 4) (char :: (gap.folded ++ collected)) {}
  | '\\' :: 'u' :: a :: b :: c :: d :: rest, mark, collected, gap => do
      let char ← charOfHex? [a, b, c, d]
      doubleQuotedFrom rest (mark.skip 6) (char :: (gap.folded ++ collected)) {}
  | '\\' :: 'U' :: a :: b :: c :: d :: e :: f :: g :: h :: rest, mark, collected, gap => do
      let char ← charOfHex? [a, b, c, d, e, f, g, h]
      doubleQuotedFrom rest (mark.skip 10) (char :: (gap.folded ++ collected)) {}
  | '\\' :: '\n' :: rest, mark, collected, gap =>
      doubleQuotedFrom rest ((mark.after '\\').after '\n') (gap.folded ++ collected)
        { escaped := true }
  | '\\' :: letter :: rest, mark, collected, gap => do
      let char ← simpleEscape? letter
      doubleQuotedFrom rest (mark.skip 2) (char :: (gap.folded ++ collected)) {}
  | char :: rest, mark, collected, gap =>
      if atDocumentMarker (char :: rest) mark then none
      else if isBlank char then
        doubleQuotedFrom rest (mark.after char) collected (gap.addBlank char)
      else if char = '\n' then doubleQuotedFrom rest (mark.after char) collected gap.addBreak
      else
        doubleQuotedFrom rest (mark.after char) (char :: (gap.folded ++ collected)) {}

/-- Reads the rest of a scalar in single quotes. -/
def singleQuotedFrom : List Char → Mark → (collected : List Char) → Gap → Option Scanned
  | [], _, _, _ => none
  | '\x27' :: '\x27' :: rest, mark, collected, gap =>
      singleQuotedFrom rest (mark.skip 2) ('\x27' :: (gap.folded ++ collected)) {}
  | '\x27' :: rest, mark, collected, gap =>
      some ⟨String.ofList (gap.folded ++ collected).reverse, rest, mark.skip 1, false⟩
  | char :: rest, mark, collected, gap =>
      if atDocumentMarker (char :: rest) mark then none
      else if isBlank char then
        singleQuotedFrom rest (mark.after char) collected (gap.addBlank char)
      else if char = '\n' then singleQuotedFrom rest (mark.after char) collected gap.addBreak
      else
        singleQuotedFrom rest (mark.after char) (char :: (gap.folded ++ collected)) {}

/-! ## Block scalars -/

/-- What happens to the line breaks at the end of a block scalar. -/
inductive Chomping where
  | strip
  | clip
  | keep
  deriving DecidableEq, Repr

/-- The header of a block scalar: its chomping and, if given, its indentation. -/
structure BlockHeader where
  chomping : Chomping := .clip
  indent : Option Nat := none

/-- Reads the header of a block scalar up to the end of its line.  A comment may follow it. -/
def blockHeader? (line : List Char) : Option BlockHeader :=
  let chomping? : Char → Option Chomping
    | '+' => some .keep
    | '-' => some .strip
    | _ => none
  let indent? (char : Char) : Option Nat :=
    if '1' ≤ char ∧ char ≤ '9' then some (char.toNat - 48) else none
  let (first, line) : BlockHeader × List Char :=
    match line with
    | char :: rest =>
        match chomping? char, indent? char with
        | some chomping, _ => ({ chomping }, rest)
        | none, some indent => ({ indent }, rest)
        | none, none => ({}, char :: rest)
    | [] => ({}, [])
  let (header, line) : BlockHeader × List Char :=
    match line with
    | char :: rest =>
        match chomping? char, indent? char with
        | some chomping, _ =>
            if first.indent.isSome then ({ first with chomping }, rest) else (first, char :: rest)
        | none, some indent =>
            if first.chomping != .clip then ({ first with indent }, rest)
            else (first, char :: rest)
        | none, none => (first, char :: rest)
    | [] => (first, [])
  if endsLine line then some header else none

/-- The number of spaces at the start of a line. -/
def leadingSpaces (line : List Char) : Nat := (line.takeWhile (· == ' ')).length

/-- The indentation of a block scalar that does not give it: that of the first line with content, and
of blank lines in front of it the widest.  No tab may stand where the indentation is counted. -/
def detectIndent? (least : Nat) : (lines : List (List Char)) → (widest : Nat) → Option Nat
  | [], widest => some (max least widest)
  | line :: rest, widest =>
      let spaces := leadingSpaces line
      match line.drop spaces with
      | [] => detectIndent? least rest (max widest spaces)
      | '\t' :: _ => none
      | _ => some (max least (max widest spaces))

/-- A line with content of a block scalar, without its indentation, and the number of empty lines in
front of it. -/
structure BlockLine where
  empty : Nat
  text : List Char

/-- The lines of a block scalar, the number of empty lines behind them, and the lines that follow.
Where the text ends inside the last line, that line is not `closed` by a line break. -/
structure BlockBody where
  lines : List BlockLine
  trailing : Nat
  closed : Bool
  following : List (List Char)

/-- Reads the lines of a block scalar, of which `empty` ones without content came before.  No tab may
take the place of the indentation. -/
def blockBody? (indent : Nat) : (empty : Nat) → (lines : List (List Char)) → Option BlockBody
  | empty, [] => some { lines := [], trailing := empty, closed := false, following := [] }
  | empty, line :: rest =>
      let spaces := leadingSpaces line
      if indent ≤ spaces ∧ indent < line.length then do
        let body ← blockBody? indent 0 rest
        return { body with lines := { empty, text := line.drop indent } :: body.lines }
      else if spaces = line.length ∧ rest ≠ [] then blockBody? indent (empty + 1) rest
      else if spaces < indent ∧ (line.drop spaces).head? = some '\t' then none
      else some { lines := [], trailing := empty, closed := true, following := line :: rest }

/-- The text between two lines of a block scalar.  In the folded style a single line break between
lines that do not begin with a blank is a space, and of several all but the first remain. -/
def blockGap (style : Style) (previous : List Char) (line : BlockLine) : List Char :=
  let begins (text : List Char) : Bool := text.head?.any isBlank
  if style == .folded && !begins previous && !begins line.text then
    if line.empty == 0 then [' '] else List.replicate line.empty '\n'
  else List.replicate (line.empty + 1) '\n'

/-- The text of lines that follow a line of a block scalar. -/
def blockText (style : Style) (previous : List Char) : List BlockLine → List Char
  | [] => []
  | line :: rest => blockGap style previous line ++ (line.text ++ blockText style line.text rest)

/-- The content of a block scalar from its lines.  Its chomping decides on the line breaks at its
end. -/
def BlockBody.content (body : BlockBody) (style : Style) (chomping : Chomping) : List Char :=
  let text :=
    match body.lines with
    | [] => []
    | first :: rest =>
        List.replicate first.empty '\n' ++ (first.text ++ blockText style first.text rest)
  let lastBreak := if body.closed && !body.lines.isEmpty then ['\n'] else []
  match chomping with
  | .strip => text
  | .clip => text ++ lastBreak
  | .keep => text ++ (lastBreak ++ List.replicate body.trailing '\n')

/-- Whether a line with content is indented too little for a block scalar. -/
def endsBlock (least : Nat) (line : List Char) : Bool :=
  decide (leadingSpaces line < least) && decide (leadingSpaces line < line.length)

/-- Reads a block scalar after its mark.  Its lines are indented more than `parentIndent`. -/
def blockScalar? (style : Style) (parentIndent : Int) (chars : List Char) (mark : Mark) :
    Option Scanned := do
  let (headerLine, afterHeader) := splitLine chars
  let header ← blockHeader? headerLine
  let least := (max 1 (parentIndent + 1)).toNat
  let (lines, following) := linesUntil (endsBlock least) afterHeader []
  let indent ← match header.indent with
    | some increment => some ((max parentIndent 0).toNat + increment)
    | none => detectIndent? least lines 0
  let body ← blockBody? indent 0 lines
  let rest := joinLines body.following ++ following
  return {
    content := String.ofList (body.content style header.chomping)
    rest
    mark := (chars.take (chars.length - rest.length)).foldl Mark.after mark }

end Assay.Yaml
