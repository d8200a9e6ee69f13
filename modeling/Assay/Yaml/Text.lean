/-!
# Characters and places of YAML text

The classes of characters that YAML distinguishes, and the place of a character in a text.  All
spellings of a line break are unified before a text is read.
-/

namespace Assay.Yaml

/-- The place of a character: its line, its column, and the number of octets in front of it.
Columns count characters, whatever number of octets they take. -/
structure Mark where
  line : Nat := 0
  column : Nat := 0
  offset : Nat := 0

/-- The place after a character. -/
def Mark.after (mark : Mark) (char : Char) : Mark :=
  if char = '\n' then { line := mark.line + 1, column := 0, offset := mark.offset + 1 }
  else { mark with column := mark.column + 1, offset := mark.offset + char.utf8Size }

/-- The place after some characters of one line, each of a single octet. -/
def Mark.skip (mark : Mark) (count : Nat) : Mark :=
  { mark with column := mark.column + count, offset := mark.offset + count }

/-- The mark of byte order, which may stand at the start of a line and counts as a character of
it. -/
def byteOrderMark : Char := '\ufeff'

/-- A space or a tab. -/
def isBlank (char : Char) : Bool := char == ' ' || char == '\t'

/-- Whether a text is at its end, or goes on with a blank or a line break. -/
def atGap : List Char → Bool
  | [] => true
  | char :: _ => isBlank char || char == '\n'

/-- Whether nothing but blanks and a comment follows on a line. -/
def endsLine (line : List Char) : Bool :=
  match line.dropWhile isBlank with
  | [] => true
  | char :: _ => char == '#'

/-- The characters of names, as anchors and the handles of tags have them. -/
def isNameChar (char : Char) : Bool := char.isAlphanum || char == '_' || char == '-'

/-- The marks that structure flow collections. -/
def isFlowMark (char : Char) : Bool :=
  char == ',' || char == '[' || char == ']' || char == '\x7b' || char == '\x7d'

/-- Whether a text begins with three equal characters that stand alone, as `---` and `...` do between
documents. -/
def startsWithMarker (marker : Char) : List Char → Bool
  | first :: second :: third :: rest =>
      first == marker && second == marker && third == marker && atGap rest
  | _ => false

/-- Whether a document ends at a place because of what follows there. -/
def atDocumentMarker (chars : List Char) (mark : Mark) : Bool :=
  mark.column == 0 && (startsWithMarker '-' chars || startsWithMarker '.' chars)

/-- Unifies line breaks to line feeds. -/
def unifyBreaks : List Char → List Char
  | '\r' :: '\n' :: rest => '\n' :: unifyBreaks rest
  | char :: rest =>
      (if char == '\r' || char == '\u0085' || char == '\u2028' || char == '\u2029' then '\n'
        else char) :: unifyBreaks rest
  | [] => []

/-- Whether a character may occur in YAML text at all. -/
def isPermitted (char : Char) : Bool :=
  let code := char.toNat
  char == '\t' || char == '\n' || char == '\r' || code == 0x85 ||
    (decide (0x20 ≤ code) && decide (code ≤ 0x7E)) ||
    (decide (0xA0 ≤ code) && decide (code ≤ 0xFFFD)) ||
    decide (0x10000 ≤ code)

/-- The first line of a text and what follows its line break. -/
def splitLine (chars : List Char) : List Char × List Char :=
  (chars.takeWhile (· != '\n'), (chars.dropWhile (· != '\n')).drop 1)

/-- The lines of a text up to the first one that `ends` them, and what follows that line from its
line break on.  The last of the lines has no break behind it.  The part of a line that has been read
already is reversed. -/
def linesUntil (ends : List Char → Bool) :
    List Char → (read : List Char) → List (List Char) × List Char
  | [], read => ([read.reverse], [])
  | char :: rest, read =>
      if char = '\n' then
        if ends read.reverse then ([read.reverse], char :: rest)
        else
          let (lines, following) := linesUntil ends rest []
          (read.reverse :: lines, following)
      else linesUntil ends rest (char :: read)

/-- The text that has some lines. -/
def joinLines (lines : List (List Char)) : List Char := (lines.intersperse ['\n']).flatten

/-- The blanks and line breaks between two parts of a scalar.  Blanks next to a line break do not
count.  An escaped line break joins the lines without a space. -/
structure Gap where
  blanks : List Char := []
  breaks : Nat := 0
  escaped : Bool := false

namespace Gap

/-- Whether nothing is between the parts. -/
def isEmpty (gap : Gap) : Bool := gap.blanks.isEmpty && gap.breaks == 0 && !gap.escaped

/-- Whether the parts are on different lines. -/
def isBroken (gap : Gap) : Bool := gap.breaks != 0 || gap.escaped

/-- The gap with one more blank. -/
def addBlank (gap : Gap) (blank : Char) : Gap :=
  if gap.isBroken then gap else { gap with blanks := blank :: gap.blanks }

/-- The gap with one more line break. -/
def addBreak (gap : Gap) : Gap := { gap with blanks := [], breaks := gap.breaks + 1 }

/-- What a gap contributes to the scalar, in reverse order: a single line break is a space, and of
several all but the first remain. -/
def folded (gap : Gap) : List Char :=
  if gap.escaped then List.replicate gap.breaks '\n'
  else match gap.breaks with
    | 0 => gap.blanks
    | 1 => [' ']
    | breaks + 2 => List.replicate (breaks + 1) '\n'

end Gap

end Assay.Yaml
