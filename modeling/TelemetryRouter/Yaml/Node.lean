import TelemetryRouter.Yaml.Token

/-!
# Nodes of a YAML document

The tokens of a text describe at most one document here: a scalar, a sequence or a mapping, with tags, and with aliases for nodes
that an anchor names. An anchor's number is the count of the names used before it, also when its own name is used again; an alias
takes the number of the latest anchor of its name before it, and means the last node of the document with that number.
-/

namespace TelemetryRouter.Yaml

/-- A node. An alias refers to an anchor by the anchor's number in the document. -/
inductive Node where
  | scalar (tag : Option String) (style : ScalarStyle) (text : String)
  | sequence (tag : Option String) (items : List Node)
  | mapping (tag : Option String) (entries : List (Node × Node))
  | alias (anchor : Nat)
  deriving Repr, Inhabited

/-- A node with an anchor: the anchor's number, its place among the anchors of the document, and the node. -/
structure Anchored where
  number : Nat
  place : Nat
  node : Node

/-- A document: its node, which is missing when the text has no content, and the nodes with an anchor. -/
structure Document where
  root : Option Node
  anchored : List Anchored

/-- What the reader of nodes knows besides the tokens left: the meaning of the tag handles, the number that each name of an anchor
has now, the number of anchors so far, and the nodes with an anchor. -/
structure Context where
  handles : List (List Char × List Char)
  names : List (List Char × Nat)
  anchors : Nat
  anchored : List Anchored

namespace Context

/-- The handles that every document knows. -/
def standardHandles : List (List Char × List Char) := [(['!'], ['!']), (['!', '!'], "tag:yaml.org,2002:".toList)]

/-- The number of the next anchor. -/
def nextAnchor (x : Context) : Nat := x.names.length

/-- Gives a name to the next anchor. -/
def withAnchor (x : Context) (name : List Char) : Context :=
  { x with names := (name, x.nextAnchor) :: x.names.filter (fun n => n.1 != name), anchors := x.anchors + 1 }

/-- The tag that a handle and a suffix stand for. -/
def tag? (x : Context) (handle suffix : List Char) : Option String :=
  if handle.isEmpty then some (String.ofList suffix)
  else (x.handles.lookup handle).map (fun start => String.ofList (start ++ suffix))

end Context

/-- The node for a value that is left out. -/
def emptyNode : Node := .scalar none .plain ""

/-- The tag of a scalar that is written out; a lone exclamation mark before one is no tag. -/
def specificTag (tag : Option String) : Option String := if tag = some "!" then none else tag

/-- A place among the tokens, with what is known there. -/
abbrev Reading : Type := List Token × Context

/-- The properties before a node: a tag and an anchor in either order. -/
def readProperties : List Token → Option ((Option (List Char × List Char)) × Option (List Char) × List Token)
  | .anchor a :: .tag h s :: rest => some (some (h, s), some a, rest)
  | .tag h s :: .anchor a :: rest => some (some (h, s), some a, rest)
  | .anchor a :: rest => some (none, some a, rest)
  | .tag h s :: rest => some (some (h, s), none, rest)
  | rest => some (none, none, rest)

mutual

/-- Reads a node. The flags tell whether block collections may stand here, and sequences that are not indented. -/
def readNode : Nat → Bool → Bool → Reading → Option (Node × Reading)
  | 0, _, _, _ => none
  | fuel + 1, block, indentless, (ts, x) =>
    match ts with
    | .alias name :: rest => (x.names.lookup name).map (fun n => (.alias n, (rest, x)))
    | _ => do
      let (tagText, anchor, rest) ← readProperties ts
      let tag ← (match tagText with
        | some (h, s) => (x.tag? h s).map some
        | none => some none)
      let number := x.nextAnchor
      let place := x.anchors
      let named : Context := match anchor with
        | some a => x.withAnchor a
        | none => x
      let (node, ts, x) ← (match rest with
        | .blockEntry :: _ =>
          if indentless then do
            let (items, r) ← readIndentless fuel (rest, named)
            some (Node.sequence tag items, r)
          else if anchor.isSome || tag.isSome then some (.scalar tag .plain "", rest, named)
          else none
        | .scalar style text :: rest => some (.scalar (specificTag tag) style (String.ofList text), rest, named)
        | .flowSequenceStart :: rest => do
          let (items, r) ← readFlowItems fuel true (rest, named)
          some (.sequence tag items, r)
        | .flowMappingStart :: rest => do
          let (entries, r) ← readFlowEntries fuel true (rest, named)
          some (.mapping tag entries, r)
        | .blockSequenceStart :: more =>
          if block then do
            let (items, r) ← readBlockItems fuel (more, named)
            some (.sequence tag items, r)
          else if anchor.isSome || tag.isSome then some (.scalar tag .plain "", rest, named)
          else none
        | .blockMappingStart :: more =>
          if block then do
            let (entries, r) ← readBlockEntries fuel (more, named)
            some (.mapping tag entries, r)
          else if anchor.isSome || tag.isSome then some (.scalar tag .plain "", rest, named)
          else none
        | _ => if anchor.isSome || tag.isSome then some (.scalar tag .plain "", rest, named) else none)
      match anchor with
      | some _ => pure (node, ts, { x with anchored := ⟨number, place, node⟩ :: x.anchored })
      | none => pure (node, ts, x)

/-- Reads the items of a block sequence. -/
def readBlockItems : Nat → Reading → Option (List Node × Reading)
  | 0, _ => none
  | fuel + 1, (ts, x) =>
    match ts with
    | .blockEntry :: rest =>
      match rest with
      | .blockEntry :: _ | .blockEnd :: _ => do
        let (more, r) ← readBlockItems fuel (rest, x)
        pure (emptyNode :: more, r)
      | _ => do
        let (node, r) ← readNode fuel true false (rest, x)
        let (more, r) ← readBlockItems fuel r
        pure (node :: more, r)
    | .blockEnd :: rest => some ([], rest, x)
    | _ => none

/-- Reads the items of a sequence that stands at the column of its key. -/
def readIndentless : Nat → Reading → Option (List Node × Reading)
  | 0, _ => none
  | fuel + 1, (ts, x) =>
    match ts with
    | .blockEntry :: rest =>
      match rest with
      | .blockEntry :: _ | .key :: _ | .value :: _ | .blockEnd :: _ => do
        let (more, r) ← readIndentless fuel (rest, x)
        pure (emptyNode :: more, r)
      | _ => do
        let (node, r) ← readNode fuel true false (rest, x)
        let (more, r) ← readIndentless fuel r
        pure (node :: more, r)
    | _ => some ([], ts, x)

/-- Reads the entries of a block mapping. A value may be left out, and a key too. -/
def readBlockEntries : Nat → Reading → Option (List (Node × Node) × Reading)
  | 0, _ => none
  | fuel + 1, (ts, x) =>
    match ts with
    | .key :: rest => do
      let (k, r) ← readBlockPart fuel (rest, x)
      let (v, r) ← (match r with
        | (.value :: rest, x) => readBlockPart fuel (rest, x)
        | r => some (emptyNode, r))
      let (more, r) ← readBlockEntries fuel r
      pure ((k, v) :: more, r)
    | .blockEnd :: rest => some ([], rest, x)
    | _ => none

/-- Reads the key or the value of an entry of a block mapping. -/
def readBlockPart : Nat → Reading → Option (Node × Reading)
  | 0, _ => none
  | fuel + 1, (ts, x) =>
    match ts with
    | .key :: _ | .value :: _ | .blockEnd :: _ => some (emptyNode, ts, x)
    | _ => readNode fuel true true (ts, x)

/-- Reads the items of a flow sequence. An item may be a single entry of a mapping. -/
def readFlowItems : Nat → Bool → Reading → Option (List Node × Reading)
  | 0, _, _ => none
  | fuel + 1, first, (ts, x) =>
    match ts with
    | .flowSequenceEnd :: rest => some ([], rest, x)
    | _ => do
      let ts ← (if first then some ts else match ts with
        | .flowEntry :: rest => some rest
        | _ => none)
      match ts with
      | .flowSequenceEnd :: rest => pure ([], rest, x)
      | .key :: rest =>
        let (k, r) ← (match rest with
          | .value :: more | .flowEntry :: more | .flowSequenceEnd :: more => some (emptyNode, more, x)
          | _ => readNode fuel false false (rest, x))
        let (v, r) ← (match r with
          | (.value :: rest, x) =>
            match rest with
            | .flowEntry :: _ | .flowSequenceEnd :: _ => some (emptyNode, rest, x)
            | _ => readNode fuel false false (rest, x)
          | r => some (emptyNode, r))
        let (more, r) ← readFlowItems fuel false r
        pure (.mapping none [(k, v)] :: more, r)
      | _ =>
        let (node, r) ← readNode fuel false false (ts, x)
        let (more, r) ← readFlowItems fuel false r
        pure (node :: more, r)

/-- Reads the entries of a flow mapping. -/
def readFlowEntries : Nat → Bool → Reading → Option (List (Node × Node) × Reading)
  | 0, _, _ => none
  | fuel + 1, first, (ts, x) =>
    match ts with
    | .flowMappingEnd :: rest => some ([], rest, x)
    | _ => do
      let ts ← (if first then some ts else match ts with
        | .flowEntry :: rest => some rest
        | _ => none)
      match ts with
      | .flowMappingEnd :: rest => pure ([], rest, x)
      | .key :: rest =>
        let (k, r) ← (match rest with
          | .value :: _ | .flowEntry :: _ | .flowMappingEnd :: _ => some (emptyNode, rest, x)
          | _ => readNode fuel false false (rest, x))
        let (v, r) ← (match r with
          | (.value :: rest, x) =>
            match rest with
            | .flowEntry :: _ | .flowMappingEnd :: _ => some (emptyNode, rest, x)
            | _ => readNode fuel false false (rest, x)
          | r => some (emptyNode, r))
        let (more, r) ← readFlowEntries fuel false r
        pure ((k, v) :: more, r)
      | _ =>
        let (k, r) ← readNode fuel false false (ts, x)
        let (more, r) ← readFlowEntries fuel false r
        pure ((k, emptyNode) :: more, r)

end

/-- Reads the directives before a document: at most one version, 1.1 or 1.2, and the meaning of each tag handle once. -/
def readDirectives : Bool → List (List Char × List Char) → List Token → Option (List (List Char × List Char) × List Token)
  | seen, handles, .version major minor :: rest =>
    if seen || major != 1 || (minor != 1 && minor != 2) then none else readDirectives true handles rest
  | seen, handles, .tagDirective handle start :: rest =>
    if (handles.lookup handle).isSome then none else readDirectives seen ((handle, start) :: handles) rest
  | _, handles, rest => some (handles, rest)

/-- Whether nothing but markers of the document's end is left. -/
def onlyDocumentEnds (ts : List Token) : Bool := ts.all (fun t => t == .documentEnd)

/-- The document that tokens describe; nothing if they describe none or more than one. -/
def Document.ofTokens? (ts : List Token) : Option Document := do
  let (handles, rest) ← readDirectives false [] ts
  let explicit := handles.length > 0 || rest.length < ts.length
  let x : Context := ⟨handles ++ Context.standardHandles, [], 0, []⟩
  let content (ts : List Token) : Option Document := do
    let (node, ts, x) ← readNode (2 * ts.length + 2) true false (ts, x)
    if onlyDocumentEnds ts then pure ⟨some node, x.anchored⟩ else none
  match rest with
  | [] => if explicit then none else pure ⟨none, []⟩
  | .documentStart :: rest =>
    match rest with
    | [] => pure ⟨some emptyNode, []⟩
    | .documentEnd :: _ => if onlyDocumentEnds rest then pure ⟨some emptyNode, []⟩ else none
    | _ => content rest
  | _ => if explicit then none else content rest

/-- The document that a text holds; nothing if the text is malformed. -/
def Document.read (text : String) : Option Document := (tokens? text).bind Document.ofTokens?

/-- The later of two nodes with an anchor. -/
def Anchored.later (a b : Anchored) : Anchored := if a.place < b.place then b else a

/-- The node that an alias refers to, or the node itself. -/
def Document.resolve (d : Document) : Node → Option Node
  | .alias n =>
    match d.anchored.filter (fun a => a.number == n) with
    | [] => none
    | a :: rest => some (rest.foldl Anchored.later a).node
  | node => some node

end TelemetryRouter.Yaml
