/-!
# A place in a YAML text

A cursor holds the characters still to be read and counts lines, columns and characters from zero. Lines end with a line feed, a
carriage return, both together, or one of the three Unicode line ends.
-/

namespace TelemetryRouter.Yaml

/-- Whether a character ends a line. -/
def isBreak (c : Char) : Bool :=
  c = '\n' || c = '\r' || c.toNat = 0x85 || c.toNat = 0x2028 || c.toNat = 0x2029

/-- Whether a character is a space or a tab. -/
def isSpaceOrTab (c : Char) : Bool := c = ' ' || c = '\t'

/-- Whether nothing follows but white space, a line end or the end of the text. -/
def endsWord : List Char → Bool
  | [] => true
  | c :: _ => isSpaceOrTab c || isBreak c

/-- Whether a character may stand in the name of an anchor, a directive or a tag handle. -/
def isNameChar (c : Char) : Bool := c.isAlphanum || c = '_' || c = '-'

/-- Whether a character may occur in a text at all. -/
def isAllowed (c : Char) : Bool :=
  let n := c.toNat
  n = 0x09 || n = 0x0a || n = 0x0d || (0x20 ≤ n && n ≤ 0x7e) || n = 0x85 || (0xa0 ≤ n && n ≤ 0xd7ff) ||
    (0xe000 ≤ n && n ≤ 0xfffd) || 0x10000 ≤ n

/-- A place in a text. -/
structure Cursor where
  rest : List Char
  line : Nat
  column : Nat
  index : Nat

namespace Cursor

/-- The place before the first character. -/
def start (cs : List Char) : Cursor := ⟨cs, 0, 0, 0⟩

/-- Passes over so many characters of one line. -/
def skip (c : Cursor) (n : Nat) : Cursor := { c with rest := c.rest.drop n, column := c.column + n, index := c.index + n }

/-- The longest run of characters of a kind, none of them a line end, and the place behind it. -/
def takeWhile (c : Cursor) (p : Char → Bool) : List Char × Cursor :=
  let run := c.rest.takeWhile p
  (run, c.skip run.length)

/-- Passes over the longest run of characters of a kind. -/
def skipWhile (c : Cursor) (p : Char → Bool) : Cursor := (c.takeWhile p).2

/-- Passes over a line end, and tells how a scalar holds it: a line feed, or one of the two separators of the standard. -/
def takeBreak (c : Cursor) : List Char × Cursor :=
  match c.rest with
  | '\r' :: '\n' :: rest => (['\n'], ⟨rest, c.line + 1, 0, c.index + 2⟩)
  | x :: rest =>
    if isBreak x then
      (if x.toNat = 0x2028 || x.toNat = 0x2029 then [x] else ['\n'], ⟨rest, c.line + 1, 0, c.index + 1⟩)
    else ([], c)
  | [] => ([], c)

/-- Passes over a line end. -/
def skipBreak (c : Cursor) : Cursor := c.takeBreak.2

/-- Whether the text has come to its end. -/
def atEnd (c : Cursor) : Bool := c.rest.isEmpty

/-- Whether a line end follows. -/
def atBreak (c : Cursor) : Bool := match c.rest with | x :: _ => isBreak x | [] => false

/-- Whether a line end or the end of the text follows. -/
def atLineEnd (c : Cursor) : Bool := c.atEnd || c.atBreak

/-- Whether a space or a tab follows. -/
def atSpaceOrTab (c : Cursor) : Bool := match c.rest with | x :: _ => isSpaceOrTab x | [] => false

/-- Whether a marker of the start or the end of a document stands here. -/
def atDocumentMark (c : Cursor) : Bool :=
  c.column = 0 && match c.rest with
    | '-' :: '-' :: '-' :: more => endsWord more
    | '.' :: '.' :: '.' :: more => endsWord more
    | _ => false

/-- Passes over the rest of a line that may hold white space and a comment, but nothing else. -/
def endOfLine? (c : Cursor) : Option Cursor :=
  let c := c.skipWhile isSpaceOrTab
  let c := if c.rest.head? = some '#' then c.skipWhile (fun x => !isBreak x) else c
  if c.atLineEnd then some c.skipBreak else none

end Cursor

end TelemetryRouter.Yaml
