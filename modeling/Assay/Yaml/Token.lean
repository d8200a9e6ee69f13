import Assay.Yaml.Scalar
import Assay.Yaml.Tag

/-!
# Tokens of YAML text

Splits a text into tokens.  YAML shows the structure of a block by its indentation and a key only by
the colon after it, so the scanner keeps the indentations of the open blocks, and for every open
collection the token that may still turn out to be a key.  When the colon comes, the marks in front
of the key are put in their places among the tokens.
-/

namespace Assay.Yaml

/-- The tokens of YAML text.  The starts and ends of blocks have no characters of their own. -/
inductive Token where
  | directive (directive : Directive)
  | documentStart
  | documentEnd
  | blockSequenceStart
  | blockMappingStart
  | blockEnd
  | flowSequenceStart
  | flowSequenceEnd
  | flowMappingStart
  | flowMappingEnd
  | blockEntry
  | flowEntry
  | key
  | value
  | alias (name : String)
  | anchor (name : String)
  | tag (tag : Tag)
  | scalar (style : Style) (content : String)
  deriving DecidableEq, Repr

/-- Whether a token stands in front of a document or behind it. -/
def Token.isBetweenDocuments : Token → Bool
  | .directive _ | .documentStart | .documentEnd => true
  | _ => false

/-- A token that may turn out to be a key: the number of tokens in front of it and its place.  In a
block, a token at the current indentation has to be a key. -/
structure Candidate where
  position : Nat
  mark : Mark
  required : Bool

/-- The state of the scanner.  Tokens are kept latest first, with their number.  `indents` holds the indentations around
the current one, and `candidates` one entry for each open flow collection and one for the blocks
around them, innermost first. -/
structure Scanner where
  rest : List Char
  mark : Mark := {}
  tokens : List Token := []
  count : Nat := 0
  indent : Int := -1
  indents : List Int := []
  keyAllowed : Bool := true
  candidates : List (Option Candidate) := [none]

namespace Scanner

/-- Whether the scanner is inside a flow collection. -/
def inFlow (scanner : Scanner) : Bool :=
  match scanner.candidates with
  | _ :: _ :: _ => true
  | _ => false

/-- Adds a token. -/
def push (scanner : Scanner) (token : Token) : Scanner :=
  { scanner with tokens := token :: scanner.tokens, count := scanner.count + 1 }

/-- Goes on after some characters of one line. -/
def skip (scanner : Scanner) (count : Nat) : Scanner :=
  { scanner with rest := scanner.rest.drop count, mark := scanner.mark.skip count }

/-- Goes on where the characters begin that follow some read ones. -/
def resume (scanner : Scanner) (following : List Char) : Scanner :=
  let read := scanner.rest.take (scanner.rest.length - following.length)
  { scanner with rest := following, mark := read.foldl Mark.after scanner.mark }

/-- Puts a token behind the first `position` ones. -/
def insertAt (scanner : Scanner) (position : Nat) (token : Token) : Scanner :=
  let later := scanner.count - position
  { scanner with
    tokens := scanner.tokens.take later ++ token :: scanner.tokens.drop later
    count := scanner.count + 1 }

/-- Opens a block at a column, unless one is open there. -/
def openBlock (scanner : Scanner) (column : Nat) (position : Nat) (token : Token) : Scanner :=
  if !scanner.inFlow && decide (scanner.indent < column) then
    { scanner with indent := column, indents := scanner.indent :: scanner.indents }.insertAt
      position token
  else scanner

/-- Closes the blocks whose indentation is beyond a column. -/
def closeBlocks (column : Int) : (indents : List Int) → Scanner → Scanner
  | [], scanner => scanner
  | outer :: outers, scanner =>
      if !scanner.inFlow && decide (column < scanner.indent) then
        closeBlocks column outers
          ({ scanner with indent := outer, indents := outers }.push .blockEnd)
      else scanner

/-- Closes the blocks that end before the current place. -/
def closeTo (scanner : Scanner) (column : Int) : Scanner :=
  closeBlocks column scanner.indents scanner

/-- Gives up the innermost candidate, which must not have been required. -/
def dropCandidate? (scanner : Scanner) : Option Scanner :=
  match scanner.candidates with
  | some candidate :: rest =>
      if candidate.required then none else some { scanner with candidates := none :: rest }
  | _ => some scanner

/-- Makes the token that comes next a candidate, where a key is allowed. -/
def offerCandidate? (scanner : Scanner) : Option Scanner :=
  if scanner.keyAllowed then do
    let scanner ← scanner.dropCandidate?
    let required := !scanner.inFlow && decide (scanner.indent = scanner.mark.column)
    let candidate : Candidate :=
      { position := scanner.count, mark := scanner.mark, required }
    return { scanner with candidates := some candidate :: scanner.candidates.tail }
  else some scanner

/-- A key and its colon are on one line, and at most 1024 octets apart. -/
def isStale (mark : Mark) (candidate : Candidate) : Bool :=
  decide (candidate.mark.line < mark.line) || decide (candidate.mark.offset + 1024 < mark.offset)

/-- Passes blanks, comments and line breaks.  Gives what follows, the place there, and whether a key
is allowed there.  In a block a key is allowed after every line break, and then a tab is no blank.  A
line may begin with a byte order mark. -/
def passGap (inFlow : Bool) :
    List Char → Mark → (keyAllowed inComment : Bool) → List Char × Mark × Bool
  | [], mark, keyAllowed, _ => ([], mark, keyAllowed)
  | char :: rest, mark, keyAllowed, inComment =>
      if char = '\n' then
        passGap inFlow rest (mark.after char) (keyAllowed || !inFlow) false
      else if inComment || char == ' ' || (char == '\t' && (inFlow || !keyAllowed)) then
        passGap inFlow rest (mark.after char) keyAllowed inComment
      else if char = '#' then passGap inFlow rest (mark.after char) keyAllowed true
      else if char = byteOrderMark ∧ mark.column = 0 then
        passGap inFlow rest (mark.after char) keyAllowed false
      else (char :: rest, mark, keyAllowed)

/-- Reads a directive or a marker between documents. -/
def betweenDocuments? (scanner : Scanner) : Option Scanner := do
  let scanner ← (scanner.closeTo (-1)).dropCandidate?
  return { scanner with keyAllowed := false }

/-- Reads a directive, which takes its line with the line break. -/
def directive? (scanner : Scanner) : Option Scanner := do
  let scanner ← scanner.betweenDocuments?
  let (line, following) := splitLine scanner.rest
  let directive ← Directive.ofLine? (line.drop 1)
  return (scanner.resume following).push (.directive directive)

/-- Enters a flow collection. -/
def openFlow? (scanner : Scanner) (token : Token) : Option Scanner := do
  let scanner ← scanner.offerCandidate?
  let scanner := (scanner.skip 1).push token
  return { scanner with candidates := none :: scanner.candidates, keyAllowed := true }

/-- Leaves a flow collection. -/
def closeFlow? (scanner : Scanner) (token : Token) : Option Scanner := do
  let scanner ← scanner.dropCandidate?
  let candidates :=
    if scanner.inFlow then scanner.candidates.tail else scanner.candidates
  return ({ scanner with candidates, keyAllowed := false }.skip 1).push token

/-- Reads the comma between the entries of a flow collection. -/
def flowEntry? (scanner : Scanner) : Option Scanner := do
  let scanner ← scanner.dropCandidate?
  return ({ scanner with keyAllowed := true }.skip 1).push .flowEntry

/-- Opens a block whose first mark stands at the current place, where a block may begin. -/
def beginBlock? (scanner : Scanner) (token : Token) : Option Scanner :=
  if scanner.inFlow then some scanner
  else if scanner.keyAllowed then
    some (scanner.openBlock scanner.mark.column scanner.count token)
  else none

/-- Reads the dash of a block sequence. -/
def blockEntry? (scanner : Scanner) : Option Scanner := do
  let scanner ← scanner.beginBlock? .blockSequenceStart
  let scanner ← scanner.dropCandidate?
  return ({ scanner with keyAllowed := true }.skip 1).push .blockEntry

/-- Reads the question mark in front of a key. -/
def key? (scanner : Scanner) : Option Scanner := do
  let scanner ← scanner.beginBlock? .blockMappingStart
  let scanner ← scanner.dropCandidate?
  return ({ scanner with keyAllowed := !scanner.inFlow }.skip 1).push .key

/-- Reads the colon behind a key.  The candidate becomes the key, unless it is too far away.  If there
is none, the colon itself begins an entry. -/
def value? (scanner : Scanner) : Option Scanner :=
  let alone (scanner : Scanner) : Option Scanner := do
    let scanner ← scanner.beginBlock? .blockMappingStart
    return ({ scanner with keyAllowed := !scanner.inFlow }.skip 1).push .value
  match scanner.candidates with
  | some candidate :: outer =>
      if isStale scanner.mark candidate then do alone (← scanner.dropCandidate?)
      else
        let keyed := { scanner with candidates := none :: outer }.insertAt candidate.position .key
        let opened :=
          keyed.openBlock candidate.mark.column candidate.position .blockMappingStart
        some (({ opened with keyAllowed := false }.skip 1).push .value)
  | _ => alone scanner

/-- Reads the name of an anchor or an alias after its mark. -/
def name? (scanner : Scanner) (token : String → Token) : Option Scanner := do
  let scanner ← scanner.offerCandidate?
  let name := (scanner.rest.drop 1).takeWhile isNameChar
  let following := scanner.rest.drop (name.length + 1)
  let ended := atGap following ||
    (following.head?.any fun char =>
      "?:,]%@`".toList.contains char || char == '\x7d')
  guard (!name.isEmpty && ended)
  return ({ scanner with keyAllowed := false }.skip (name.length + 1)).push
    (token (String.ofList name))

/-- Reads a tag. -/
def tag? (scanner : Scanner) : Option Scanner := do
  let scanner ← scanner.offerCandidate?
  let (tag, following) ← Tag.read? (scanner.rest.drop 1)
  guard (atGap following || (scanner.inFlow && following.head? == some ','))
  return ({ scanner with keyAllowed := false }.resume following).push (.tag tag)

/-- Goes on after a scalar. -/
def pushScalar (scanner : Scanner) (style : Style) (scanned : Scanned) (keyAllowed : Bool) :
    Scanner :=
  { scanner with rest := scanned.rest, mark := scanned.mark, keyAllowed }.push
    (.scalar style scanned.content)

/-- Reads a scalar in quotes. -/
def quoted? (scanner : Scanner) (style : Style)
    (read : List Char → Mark → List Char → Gap → Option Scanned) : Option Scanner := do
  let scanner ← scanner.offerCandidate?
  let scanned ← read (scanner.rest.drop 1) (scanner.mark.skip 1) [] {}
  return scanner.pushScalar style scanned false

/-- Reads a block scalar. -/
def block? (scanner : Scanner) (style : Style) : Option Scanner := do
  let scanner ← scanner.dropCandidate?
  let scanned ← blockScalar? style scanner.indent (scanner.rest.drop 1) (scanner.mark.skip 1)
  return scanner.pushScalar style scanned true

/-- Reads a plain scalar. -/
def plain? (scanner : Scanner) : Option Scanner := do
  let scanner ← scanner.offerCandidate?
  let scanned ← plainFrom scanner.inFlow (scanner.indent + 1) scanner.rest scanner.mark [] {}
  return scanner.pushScalar .plain scanned scanned.broken

/-- Whether a plain scalar may begin with a character, given what follows it. -/
def beginsPlain (inFlow : Bool) (char : Char) (rest : List Char) : Bool :=
  if char == '-' then !(rest.head?.any isBlank)
  else if char == '?' || char == ':' then !inFlow && !atGap rest
  else !(isFlowMark char || "#&*!|>\x27\"%@`".toList.contains char || isBlank char || char == '\n')

/-- Reads the token that begins with a character. -/
def token? (scanner : Scanner) (char : Char) (rest : List Char) : Option Scanner :=
  let scanner := scanner.closeTo scanner.mark.column
  if scanner.mark.column == 0 && char == '%' then scanner.directive?
  else if scanner.mark.column == 0 && startsWithMarker '-' scanner.rest then do
    return (← scanner.betweenDocuments?).skip 3 |>.push .documentStart
  else if scanner.mark.column == 0 && startsWithMarker '.' scanner.rest then do
    return (← scanner.betweenDocuments?).skip 3 |>.push .documentEnd
  else if char == '[' then scanner.openFlow? .flowSequenceStart
  else if char == '\x7b' then scanner.openFlow? .flowMappingStart
  else if char == ']' then scanner.closeFlow? .flowSequenceEnd
  else if char == '\x7d' then scanner.closeFlow? .flowMappingEnd
  else if char == ',' then scanner.flowEntry?
  else if char == '-' && atGap rest then scanner.blockEntry?
  else if char == '?' && (scanner.inFlow || atGap rest) then scanner.key?
  else if char == ':' && (scanner.inFlow || atGap rest) then scanner.value?
  else if char == '*' then scanner.name? .alias
  else if char == '&' then scanner.name? .anchor
  else if char == '!' then scanner.tag?
  else if char == '|' && !scanner.inFlow then scanner.block? .literal
  else if char == '>' && !scanner.inFlow then scanner.block? .folded
  else if char == '\x27' then scanner.quoted? .singleQuoted singleQuotedFrom
  else if char == '"' then scanner.quoted? .doubleQuoted doubleQuotedFrom
  else if beginsPlain scanner.inFlow char rest then scanner.plain?
  else none

/-- Ends the text: all blocks are closed, and no candidate may be required. -/
def finish? (scanner : Scanner) : Option Scanner := (scanner.closeTo (-1)).dropCandidate?

/-- Reads tokens to the end of the text.  Every round reads at least one character. -/
def scan? : (rounds : Nat) → Scanner → Option Scanner
  | 0, _ => none
  | rounds + 1, scanner =>
      let (rest, mark, keyAllowed) :=
        passGap scanner.inFlow scanner.rest scanner.mark scanner.keyAllowed false
      let scanner := { scanner with rest, mark, keyAllowed }
      match rest with
      | [] => scanner.finish?
      | char :: following => do scan? rounds (← scanner.token? char following)

end Scanner

/-- The tokens of a text, or nothing if it is not YAML. -/
def tokens? (text : String) : Option (List Token) := do
  let chars := text.toList
  guard (chars.all isPermitted)
  let unified := unifyBreaks chars
  let scanner ← Scanner.scan? (unified.length + 1) { rest := unified }
  return scanner.tokens.reverse

end Assay.Yaml
