import TelemetryRouter.Yaml.Scalar

/-!
# Tokens of a YAML text

The text is cut into tokens from left to right. In block context the columns of the tokens open and close collections. A key that
no question mark announces is recognised only at the colon behind it: every token that could start such a key is remembered, and
at the colon the key token, and the start of the mapping if its column is new, are put in before it. Such a key stays on one
line and is at most 1024 characters long.
-/

namespace TelemetryRouter.Yaml

/-- A token. -/
inductive Token where
  | version (major minor : Nat)
  | tagDirective (handle start : List Char)
  | documentStart
  | documentEnd
  | blockSequenceStart
  | blockMappingStart
  | blockEnd
  | flowSequenceStart
  | flowSequenceEnd
  | flowMappingStart
  | flowMappingEnd
  | blockEntry
  | flowEntry
  | key
  | value
  | alias (name : List Char)
  | anchor (name : List Char)
  | tag (handle suffix : List Char)
  | scalar (style : ScalarStyle) (text : List Char)
  deriving DecidableEq, Repr

/-- A token that may turn out to start a key: its number, its place, and whether it must be one. -/
structure PossibleKey where
  number : Nat
  required : Bool
  line : Nat
  column : Nat
  index : Nat

/-- How far a text has been cut: the tokens found, the place reached, the columns of the open block collections with the innermost
first, the possible key of each open flow collection with the innermost first, and whether a key may start here. -/
structure Lexer where
  tokens : Array Token
  cursor : Cursor
  indent : Int
  outerIndents : List Int
  keys : List (Option PossibleKey)
  keyAllowed : Bool

namespace Lexer

/-- The state before the first character. -/
def start (cs : List Char) : Lexer := ⟨#[], Cursor.start cs, -1, [], [none], true⟩

/-- Whether the place reached lies inside a flow collection. -/
def inFlow (l : Lexer) : Bool := l.keys.length > 1

/-- Appends a token. -/
def push (l : Lexer) (t : Token) : Lexer := { l with tokens := l.tokens.push t }

/-- Puts a token before the token of a number. -/
def insertAt (l : Lexer) (number : Nat) (t : Token) : Lexer :=
  { l with tokens := (l.tokens.toList.take number ++ t :: l.tokens.toList.drop number).toArray }

/-- The possible key of the innermost collection. -/
def currentKey (l : Lexer) : Option PossibleKey := l.keys.head?.join

/-- Replaces the possible key of the innermost collection. -/
def setKey (l : Lexer) (k : Option PossibleKey) : Lexer := { l with keys := k :: l.keys.tail }

/-- Forgets the possible key; a required one must not be forgotten. -/
def dropKey (l : Lexer) : Option Lexer :=
  match l.currentKey with
  | some k => if k.required then none else some (l.setKey none)
  | none => some l

/-- Remembers that the next token may start a key. -/
def saveKey (l : Lexer) : Option Lexer :=
  if l.keyAllowed then do
    let l ← l.dropKey
    let c := l.cursor
    pure (l.setKey (some ⟨l.tokens.size, !l.inFlow && l.indent == (c.column : Int), c.line, c.column, c.index⟩))
  else some l

/-- Forgets the possible keys that are no longer on this line or too far away. -/
def dropStaleKeys (l : Lexer) : Option Lexer := do
  let c := l.cursor
  let keys ← l.keys.mapM (fun k =>
    match k with
    | some p => if p.line < c.line || p.index + 1024 < c.index then (if p.required then none else some none) else some (some p)
    | none => some none)
  pure { l with keys := keys }

/-- Opens a block collection at a column if it lies deeper than the innermost one. Its token goes to the end, or before the token
of a number. -/
def roll (l : Lexer) (column : Nat) (number : Option Nat) (t : Token) : Lexer :=
  if !l.inFlow && l.indent < (column : Int) then
    let l := { l with indent := (column : Int), outerIndents := l.indent :: l.outerIndents }
    match number with
    | some n => l.insertAt n t
    | none => l.push t
  else l

/-- Closes the block collections deeper than a column. -/
def unrollFrom (column : Int) (l : Lexer) : List Int → Lexer
  | [] => l
  | outer :: rest =>
    if l.indent > column then
      unrollFrom column { l with tokens := l.tokens.push .blockEnd, indent := outer, outerIndents := rest } rest
    else l

/-- Closes the block collections deeper than a column; inside a flow collection columns do not matter. -/
def unroll (l : Lexer) (column : Int) : Lexer := if l.inFlow then l else unrollFrom column l l.outerIndents

/-- Passes over white space, comments and line ends. A mark of the byte order may stand before everything else,
and takes a column. A tab counts as white space only where no key may start, or in a flow collection. -/
def skipToToken : Nat → Lexer → Lexer
  | 0, l => l
  | fuel + 1, l =>
    let c := if l.cursor.index = 0 && l.cursor.rest.head? = some (Char.ofNat 0xfeff) then l.cursor.skip 1 else l.cursor
    let tabs := l.inFlow || !l.keyAllowed
    let c := c.skipWhile (fun x => x = ' ' || (tabs && x = '\t'))
    let c := if c.rest.head? = some '#' then c.skipWhile (fun x => !isBreak x) else c
    if c.atBreak then skipToToken fuel { l with cursor := c.skipBreak, keyAllowed := l.keyAllowed || !l.inFlow }
    else { l with cursor := c }

/-- The characters of a tag that need no escape. -/
def isTagChar (uri : Bool) (c : Char) : Bool :=
  isNameChar c || [';', '/', '?', ':', '@', '&', '=', '+', '$', '.', '!', '~', '*', '\'', '(', ')'].contains c ||
    (uri && [',', '[', ']'].contains c)

/-- The bytes written by percent escapes. -/
def readPercents : Nat → List Char → Option (List UInt8 × Nat)
  | 0, _ => some ([], 0)
  | fuel + 1, '%' :: rest => do
    let (n, _) ← readHex 2 0 rest
    let (more, width) ← readPercents fuel (rest.drop 2)
    pure (UInt8.ofNat n :: more, width + 3)
  | _ + 1, _ => some ([], 0)

/-- The rest of a tag. Percent escapes must write whole characters. -/
def readTagText (uri : Bool) : Nat → List Char → Cursor → Option (List Char × Cursor)
  | 0, _, _ => none
  | fuel + 1, acc, c =>
    match c.rest with
    | '%' :: _ => do
      let (bytes, width) ← readPercents c.rest.length c.rest
      let text ← String.fromUTF8? ⟨bytes.toArray⟩
      if width = 0 then none else readTagText uri fuel (acc ++ text.toList) (c.skip width)
    | x :: _ => if isTagChar uri x then readTagText uri fuel (acc ++ [x]) (c.skip 1) else some (acc, c)
    | [] => some (acc, c)

/-- A tag handle: an exclamation mark, a name, and a second mark if there is one. -/
def readHandle (c : Cursor) : Option (List Char × Cursor) :=
  match c.rest with
  | '!' :: _ =>
    let (name, c) := (c.skip 1).takeWhile isNameChar
    match c.rest with
    | '!' :: _ => some ('!' :: name ++ ['!'], c.skip 1)
    | _ => some ('!' :: name, c)
  | _ => none

/-- A tag: its handle and its suffix. -/
def readTag (flow : Bool) (c : Cursor) : Option (Token × Cursor) := do
  let (handle, suffix, c) ← (match c.rest with
    | '!' :: '<' :: _ => do
      let (suffix, c) ← readTagText true (c.rest.length + 1) [] (c.skip 2)
      if suffix.isEmpty then none
      else match c.rest with
        | '>' :: _ => some ([], suffix, c.skip 1)
        | _ => none
    | _ => do
      let (handle, c) ← readHandle c
      if handle.length > 1 && handle.getLast? = some '!' then do
        let (suffix, c) ← readTagText false (c.rest.length + 1) [] c
        if suffix.isEmpty then none else some (handle, suffix, c)
      else do
        let (suffix, c) ← readTagText false (c.rest.length + 1) (handle.drop 1) c
        if suffix.isEmpty then some ([], ['!'], c) else some (['!'], suffix, c))
  if endsWord c.rest || (flow && c.rest.head? = some ',') then some (.tag handle suffix, c) else none

/-- The name of an anchor or an alias, behind its mark. -/
def readName (c : Cursor) : Option (List Char × Cursor) :=
  let (name, c) := (c.skip 1).takeWhile isNameChar
  let ends := match c.rest with
    | [] => true
    | x :: _ => endsWord c.rest || ['?', ':', ',', ']', '\x7d', '%', '@', Char.ofNat 0x60].contains x
  if name.isEmpty || !ends then none else some (name, c)

/-- A number of at most nine digits. -/
def readVersionNumber (c : Cursor) : Option (Nat × Cursor) :=
  let (digits, c) := c.takeWhile (fun x => '0' ≤ x && x ≤ '9')
  if digits.isEmpty || digits.length > 9 then none else some (digits.foldl (fun n d => 10 * n + (d.toNat - 48)) 0, c)

/-- A directive: the version of the language, or the meaning of a tag handle. -/
def readDirective (c : Cursor) : Option (Token × Cursor) := do
  let (name, c) := (c.skip 1).takeWhile isNameChar
  if name.isEmpty || !endsWord c.rest then none
  else
    let (t, c) ← (
      if name = "YAML".toList then do
        let (major, c) ← readVersionNumber (c.skipWhile isSpaceOrTab)
        match c.rest with
        | '.' :: _ =>
          let (minor, c) ← readVersionNumber (c.skip 1)
          some (Token.version major minor, c)
        | _ => none
      else if name = "TAG".toList then do
        let (handle, c) ← readHandle (c.skipWhile isSpaceOrTab)
        if handle.getLast? != some '!' || !c.atSpaceOrTab then none
        else
          let (start, c) ← readTagText true (c.rest.length + 1) [] (c.skipWhile isSpaceOrTab)
          if start.isEmpty || !endsWord c.rest then none else some (Token.tagDirective handle start, c)
      else none)
    let c ← c.endOfLine?
    pure (t, c)

/-- Appends a token of so many characters. -/
def take (l : Lexer) (t : Token) (width : Nat) : Lexer := { l.push t with cursor := l.cursor.skip width }

/-- Leaves all block collections and forgets the possible key, as before a marker of a document. -/
def leaveBlocks (l : Lexer) : Option Lexer := do
  let l ← (l.unroll (-1)).dropKey
  pure { l with keyAllowed := false }

/-- Opens a flow collection. -/
def openFlow (l : Lexer) (t : Token) : Option Lexer := do
  let l ← l.saveKey
  pure ({ l with keys := none :: l.keys, keyAllowed := true }.take t 1)

/-- Closes a flow collection. -/
def closeFlow (l : Lexer) (t : Token) : Option Lexer := do
  let l ← l.dropKey
  let keys := if l.inFlow then l.keys.tail else l.keys
  pure ({ l with keys := keys, keyAllowed := false }.take t 1)

/-- The comma of a flow collection. -/
def flowEntry (l : Lexer) : Option Lexer := do
  let l ← l.dropKey
  pure ({ l with keyAllowed := true }.take .flowEntry 1)

/-- The dash of a block sequence. -/
def blockEntry (l : Lexer) : Option Lexer := do
  if !l.inFlow && !l.keyAllowed then none
  else
    let l ← (l.roll l.cursor.column none .blockSequenceStart).dropKey
    pure ({ l with keyAllowed := true }.take .blockEntry 1)

/-- The question mark of a key. -/
def explicitKey (l : Lexer) : Option Lexer := do
  if !l.inFlow && !l.keyAllowed then none
  else
    let l ← (l.roll l.cursor.column none .blockMappingStart).dropKey
    pure ({ l with keyAllowed := !l.inFlow }.take .key 1)

/-- The colon of a value. -/
def valueMark (l : Lexer) : Option Lexer :=
  match l.currentKey with
  | some k =>
    let l := (l.insertAt k.number .key).roll k.column (some k.number) .blockMappingStart
    some ({ l.setKey none with keyAllowed := false }.take .value 1)
  | none =>
    if !l.inFlow && !l.keyAllowed then none
    else
      let l := l.roll l.cursor.column none .blockMappingStart
      some ({ l with keyAllowed := !l.inFlow }.take .value 1)

/-- A token that may start a key and reaches up to the place given. -/
def keyed (l : Lexer) (read : Cursor → Option (Token × Cursor)) : Option Lexer := do
  let l ← l.saveKey
  let (t, c) ← read l.cursor
  pure { l.push t with cursor := c, keyAllowed := false }

/-- A block scalar. -/
def blockScalar (l : Lexer) (keepLines : Bool) : Option Lexer := do
  let l ← l.dropKey
  let (text, c) ← readBlock keepLines l.indent l.cursor
  pure { l.push (.scalar (if keepLines then .literal else .folded) text) with cursor := c, keyAllowed := true }

/-- A plain scalar. -/
def plainScalar (l : Lexer) : Option Lexer := do
  let l ← l.saveKey
  let (text, c, broken) ← readPlain l.inFlow (l.indent + 1) l.cursor
  pure { l.push (.scalar .plain text) with cursor := c, keyAllowed := broken }

/-- Whether a plain scalar may start with these characters. -/
def startsPlain (flow : Bool) : List Char → Bool
  | [] => false
  | c :: rest =>
    let indicators := ['-', '?', ':', ',', '[', ']', '\x7b', '\x7d', '#', '&', '*', '!', '|', '>', '\'', '"', '%', '@',
      Char.ofNat 0x60]
    (!isSpaceOrTab c && !isBreak c && !indicators.contains c) ||
      (c = '-' && !(match rest with | x :: _ => isSpaceOrTab x | [] => false)) ||
      (!flow && (c = '?' || c = ':') && !endsWord rest)

/-- Cuts one token, or the tokens up to the end of the text. The flag tells that the end is reached. -/
def step (l : Lexer) : Option (Lexer × Bool) := do
  let l ← (skipToToken (l.cursor.rest.length + 1) l).dropStaleKeys
  let l := l.unroll l.cursor.column
  let c := l.cursor
  let flow := l.inFlow
  let go (r : Option Lexer) : Option (Lexer × Bool) := r.map (fun l => (l, false))
  match c.rest with
  | [] => (l.leaveBlocks).map (fun l => (l, true))
  | x :: rest =>
    if c.column = 0 && x = '%' then do
      let l ← l.leaveBlocks
      let (t, c) ← readDirective l.cursor
      pure ({ l.push t with cursor := c }, false)
    else if c.atDocumentMark then go (do
      let l ← l.leaveBlocks
      pure (l.take (if x = '-' then .documentStart else .documentEnd) 3))
    else if x = '[' then go (l.openFlow .flowSequenceStart)
    else if x = '\x7b' then go (l.openFlow .flowMappingStart)
    else if x = ']' then go (l.closeFlow .flowSequenceEnd)
    else if x = '\x7d' then go (l.closeFlow .flowMappingEnd)
    else if x = ',' then go l.flowEntry
    else if x = '-' && endsWord rest then go l.blockEntry
    else if x = '?' && (flow || endsWord rest) then go l.explicitKey
    else if x = ':' && (flow || endsWord rest) then go l.valueMark
    else if x = '*' then go (l.keyed (fun c => (readName c).map (fun r => (.alias r.1, r.2))))
    else if x = '&' then go (l.keyed (fun c => (readName c).map (fun r => (.anchor r.1, r.2))))
    else if x = '!' then go (l.keyed (readTag flow))
    else if x = '|' && !flow then go (l.blockScalar true)
    else if x = '>' && !flow then go (l.blockScalar false)
    else if x = '\'' then go (l.keyed (fun c => (readQuoted true c).map (fun r => (.scalar .singleQuoted r.1, r.2))))
    else if x = '"' then go (l.keyed (fun c => (readQuoted false c).map (fun r => (.scalar .doubleQuoted r.1, r.2))))
    else if startsPlain flow c.rest then go l.plainScalar
    else none

/-- Cuts tokens up to the end. -/
def run : Nat → Lexer → Option (List Token)
  | 0, _ => none
  | fuel + 1, l =>
    match l.step with
    | none => none
    | some (l, true) => some l.tokens.toList
    | some (l, false) => run fuel l

end Lexer

/-- The tokens of a text; nothing if the text is malformed. -/
def tokens? (text : String) : Option (List Token) :=
  let cs := text.toList
  if cs.all isAllowed then Lexer.run (cs.length + 2) (Lexer.start cs) else none

end TelemetryRouter.Yaml
