import TelemetryRouter.Yaml.Cursor

/-!
# Scalars of a YAML text

A scalar is written plain, between single or double quotes, or as a block of indented lines that are kept or folded. Each
function reads the scalar at a cursor and gives its text and the place behind it, or nothing if it is malformed.
-/

namespace TelemetryRouter.Yaml

/-- How a scalar is written. -/
inductive ScalarStyle where
  | plain
  | singleQuoted
  | doubleQuoted
  | literal
  | folded
  deriving DecidableEq, Repr

/-- The white space between two words of a scalar: the blanks of one line, or a first line end and those after it. -/
structure Gap where
  blanks : List Char
  broken : Bool
  firstBreak : List Char
  moreBreaks : List Char

namespace Gap

/-- No white space. -/
def none : Gap := ⟨[], false, [], []⟩

/-- What stands in the scalar for a gap: a single line end is folded to a space, and of several the first is dropped. -/
def folded (g : Gap) : List Char :=
  if g.broken then
    if g.firstBreak = ['\n'] then (if g.moreBreaks.isEmpty then [' '] else g.moreBreaks) else g.firstBreak ++ g.moreBreaks
  else g.blanks

/-- Reads a gap. On the lines after the first a tab before column `tabLimit` is refused. -/
def read (tabLimit : Int) : Nat → Gap → Cursor → Option (Gap × Cursor)
  | 0, _, _ => .none
  | fuel + 1, g, c =>
    match c.rest with
    | [] => some (g, c)
    | x :: _ =>
      if isSpaceOrTab x then
        if g.broken then
          if x = '\t' && (c.column : Int) < tabLimit then .none else read tabLimit fuel g (c.skip 1)
        else read tabLimit fuel { g with blanks := g.blanks ++ [x] } (c.skip 1)
      else if isBreak x then
        let (b, c) := c.takeBreak
        if g.broken then read tabLimit fuel { g with moreBreaks := g.moreBreaks ++ b } c
        else read tabLimit fuel { g with blanks := [], broken := true, firstBreak := b } c
      else some (g, c)

end Gap

/-- The characters of a plain scalar up to white space or an indicator that ends it; nothing if a colon stands before an indicator
of a flow collection. -/
def plainRun (flow : Bool) : List Char → Option (List Char)
  | [] => some []
  | c :: rest =>
    if isSpaceOrTab c || isBreak c then some []
    else if flow && c = ':' &&
        (match rest with | x :: _ => [',', '?', '[', ']', '\x7b', '\x7d'].contains x | [] => false) then none
    else if (c = ':' && endsWord rest) || (flow && [',', '[', ']', '\x7b', '\x7d'].contains c) then some []
    else (plainRun flow rest).map (c :: ·)

/-- Reads a plain scalar from the start of a word. The last result tells whether it ended behind a line end. -/
def readPlainFrom (flow : Bool) (indent : Int) : Nat → List Char → Gap → Cursor → Option (List Char × Cursor × Bool)
  | 0, _, _, _ => none
  | fuel + 1, acc, gap, c =>
    if c.atDocumentMark || c.rest.head? = some '#' then some (acc, c, gap.broken)
    else do
      let run ← plainRun flow c.rest
      if run.isEmpty then some (acc, c, gap.broken)
      else
        let acc := acc ++ gap.folded ++ run
        let c := c.skip run.length
        if c.atSpaceOrTab || c.atBreak then
          let (gap, c) ← Gap.read indent (c.rest.length + 1) Gap.none c
          if !flow && (c.column : Int) < indent then some (acc, c, gap.broken) else readPlainFrom flow indent fuel acc gap c
        else some (acc, c, false)

/-- Reads a plain scalar. -/
def readPlain (flow : Bool) (indent : Int) (c : Cursor) : Option (List Char × Cursor × Bool) :=
  readPlainFrom flow indent (c.rest.length + 1) [] Gap.none c

/-- The number that so many hexadecimal digits write, and what follows them. -/
def readHex : Nat → Nat → List Char → Option (Nat × List Char)
  | 0, acc, rest => some (acc, rest)
  | n + 1, acc, c :: rest =>
    if '0' ≤ c ∧ c ≤ '9' then readHex n (16 * acc + (c.toNat - 48)) rest
    else if 'a' ≤ c ∧ c ≤ 'f' then readHex n (16 * acc + (c.toNat - 87)) rest
    else if 'A' ≤ c ∧ c ≤ 'F' then readHex n (16 * acc + (c.toNat - 55)) rest
    else none
  | _ + 1, _, [] => none

/-- The character that an escape of so many digits stands for, and the number of characters the escape takes. -/
def readCode (digits : Nat) (rest : List Char) : Option (Char × Nat) :=
  match readHex digits 0 rest with
  | some (n, _) => if (0xd800 ≤ n ∧ n ≤ 0xdfff) ∨ n > 0x10ffff then none else some (Char.ofNat n, 2 + digits)
  | none => none

/-- The character that the escape after a backslash stands for, and the number of characters the escape takes. -/
def readEscape : List Char → Option (Char × Nat)
  | [] => none
  | c :: rest =>
    match c with
    | '0' => some (Char.ofNat 0, 2)
    | 'a' => some (Char.ofNat 7, 2)
    | 'b' => some (Char.ofNat 8, 2)
    | 't' => some ('\t', 2)
    | '\t' => some ('\t', 2)
    | 'n' => some ('\n', 2)
    | 'v' => some (Char.ofNat 11, 2)
    | 'f' => some (Char.ofNat 12, 2)
    | 'r' => some ('\r', 2)
    | 'e' => some (Char.ofNat 27, 2)
    | ' ' => some (' ', 2)
    | '"' => some ('"', 2)
    | '/' => some ('/', 2)
    | '\\' => some ('\\', 2)
    | 'N' => some (Char.ofNat 0x85, 2)
    | '_' => some (Char.ofNat 0xa0, 2)
    | 'L' => some (Char.ofNat 0x2028, 2)
    | 'P' => some (Char.ofNat 0x2029, 2)
    | 'x' => readCode 2 rest
    | 'u' => readCode 4 rest
    | 'U' => readCode 8 rest
    | _ => none

/-- Reads a quoted scalar behind its opening quote, standing at the start of a word or inside one. -/
def readQuotedFrom (single : Bool) : Nat → Bool → List Char → Cursor → Option (List Char × Cursor)
  | 0, _, _, _ => none
  | fuel + 1, wordStart, acc, c =>
    if wordStart && c.atDocumentMark then none
    else
      let quote := if single then '\'' else '"'
      match c.rest with
      | [] => none
      | x :: rest =>
        if single && x = '\'' && rest.head? = some '\'' then readQuotedFrom single fuel false (acc ++ ['\'']) (c.skip 2)
        else if x = quote then some (acc, c.skip 1)
        else if !single && x = '\\' then
          if (c.skip 1).atBreak then do
            let c := (c.skip 1).skipBreak
            let (gap, c) ← Gap.read (-1) (c.rest.length + 1) { Gap.none with broken := true } c
            readQuotedFrom single fuel true (acc ++ gap.folded) c
          else do
            let (y, n) ← readEscape rest
            readQuotedFrom single fuel false (acc ++ [y]) (c.skip n)
        else if isSpaceOrTab x || isBreak x then do
          let (gap, c) ← Gap.read (-1) (c.rest.length + 1) Gap.none c
          readQuotedFrom single fuel true (acc ++ gap.folded) c
        else readQuotedFrom single fuel false (acc ++ [x]) (c.skip 1)

/-- Reads a quoted scalar. -/
def readQuoted (single : Bool) (c : Cursor) : Option (List Char × Cursor) :=
  readQuotedFrom single (c.rest.length + 1) true [] (c.skip 1)

/-- What becomes of the line ends behind a block. -/
inductive Chomping where
  | strip
  | clip
  | keep
  deriving DecidableEq

/-- The empty lines before a line of a block: their line ends, the widest indentation met, and the place behind them. A tab in the
indentation is refused. -/
def blankLines (indent : Nat) : Nat → Nat → List Char → Cursor → Option (List Char × Nat × Cursor)
  | 0, _, _, _ => none
  | fuel + 1, widest, breaks, c =>
    let room := if indent = 0 then c.rest.length else indent - c.column
    let spaces := min room (c.rest.takeWhile (· = ' ')).length
    let c := c.skip spaces
    let widest := max widest c.column
    if (indent = 0 || c.column < indent) && c.rest.head? = some '\t' then none
    else if c.atBreak then
      let (b, c) := c.takeBreak
      blankLines indent fuel widest (breaks ++ b) c
    else some (breaks, widest, c)

/-- Reads the lines of a block. The first arguments tell whether lines are kept as they are and the indentation of the block. -/
def readLines (keepLines : Bool) (indent : Nat) :
    Nat → List Char → Bool → List Char → List Char → Cursor → Option (List Char × List Char × List Char × Cursor)
  | 0, _, _, _, _, _ => none
  | fuel + 1, acc, leadingBlank, firstBreak, moreBreaks, c =>
    if c.column = indent && !c.atEnd then do
      let blank := c.atSpaceOrTab
      let joint :=
        if !keepLines && firstBreak = ['\n'] && !leadingBlank && !blank then
          (if moreBreaks.isEmpty then [' '] else [])
        else firstBreak
      let (line, c) := c.takeWhile (fun x => !isBreak x)
      let (first, c) := c.takeBreak
      let (more, _, c) ← blankLines indent (c.rest.length + 1) 0 [] c
      readLines keepLines indent fuel (acc ++ joint ++ moreBreaks ++ line) blank first more c
    else some (acc, firstBreak, moreBreaks, c)

/-- The indicators behind the bar or the angle of a block, in either order: the chomping, and the indentation or zero. -/
def blockHeader : List Char → Option (Chomping × Nat × Nat)
  | rest =>
    let digit? (c : Char) : Option Nat := if '0' ≤ c ∧ c ≤ '9' then some (c.toNat - 48) else none
    let chomp? (c : Char) : Option Chomping := if c = '+' then some .keep else if c = '-' then some .strip else none
    match rest with
    | [] => some (.clip, 0, 0)
    | a :: more =>
      match chomp? a with
      | some k =>
        match more.head?.bind digit? with
        | some 0 => none
        | some n => some (k, n, 2)
        | none => some (k, 0, 1)
      | none =>
        match digit? a with
        | some 0 => none
        | some n =>
          match more.head?.bind chomp? with
          | some k => some (k, n, 2)
          | none => some (.clip, n, 1)
        | none => some (.clip, 0, 0)

/-- Reads a block scalar inside a collection indented to column `parent`, or to no column when that is negative. -/
def readBlock (keepLines : Bool) (parent : Int) (c : Cursor) : Option (List Char × Cursor) := do
  let c := c.skip 1
  let (chomping, increment, width) ← blockHeader c.rest
  let c ← (c.skip width).endOfLine?
  let given := if increment = 0 then 0 else if parent ≥ 0 then parent.toNat + increment else increment
  let (breaks, widest, c) ← blankLines given (c.rest.length + 1) 0 [] c
  let indent := if given = 0 then max (max widest (parent + 1).toNat) 1 else given
  let (text, firstBreak, moreBreaks, c) ← readLines keepLines indent (c.rest.length + 2) [] false [] breaks c
  let tail := match chomping with
    | .strip => []
    | .clip => firstBreak
    | .keep => firstBreak ++ moreBreaks
  pure (text ++ tail, c)

end TelemetryRouter.Yaml
