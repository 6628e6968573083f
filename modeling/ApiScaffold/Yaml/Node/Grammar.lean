import ApiScaffold.Yaml.Node
import ApiScaffold.Yaml.Token.Lexer

/-!
From tokens to the nodes of a document. A stream holds one document; anchors name nodes, and an
alias stands for the node last named, which may be a collection that is still being read.
-/

namespace ApiScaffold.Yaml

/-- What is left of a token stream, with the tag handles and anchors in force and the nodes so far. -/
structure Supply where
  stream : TokenStream
  handles : List (String × String) := []
  anchors : List (String × NodeId) := []
  graph : Graph := {}

/-- Steps that take tokens from a supply. -/
abbrev Reading := StateT Supply (Except Fault)

namespace Reading

/-- The next token. Where the stream ends in a fault, that fault is met. -/
def peek : Reading Token := do
  let supply ← get
  match supply.stream.tokens, supply.stream.fault with
  | token :: _, _ => return token
  | [], some fault => throw fault
  | [], none => throw (.structuralAt .unexpectedEnd default)

def next : Reading Token := do
  let token ← peek
  modify fun s => { s with stream := ⟨s.stream.tokens.drop 1, s.stream.fault⟩ }
  return token

/-- The handles that need no directive. -/
def defaultHandles : List (String × String) := [("!", "!"), ("!!", Tag.common)]

/-! ### Properties and scalars -/

/-- The properties in front of a node: its start, anchor, tag and the place of the tag. -/
structure Properties where
  start : Option Mark := none
  anchor : Option String := none
  tag : Option TagSpelling := none
  tagMark : Mark := default

/-- Reads an anchor and a tag, in either order. -/
def properties : Reading Properties := do
  let first ← peek
  match first.kind with
  | .anchor name =>
    let _ ← next
    let second ← peek
    match second.kind with
    | .tag spelling =>
      let _ ← next
      return ⟨some first.start, some name, some spelling, second.start⟩
    | _ => return ⟨some first.start, some name, none, default⟩
  | .tag spelling =>
    let _ ← next
    let second ← peek
    match second.kind with
    | .anchor name =>
      let _ ← next
      return ⟨some first.start, some name, some spelling, first.start⟩
    | _ => return ⟨some first.start, none, some spelling, first.start⟩
  | _ => return {}

/-- The address a tag spelling stands for. -/
def resolveTag (properties : Properties) : Reading (Option String) := do
  match properties.tag with
  | none => return none
  | some ⟨none, suffix⟩ => return some suffix
  | some ⟨some handle, suffix⟩ =>
    match (← get).handles.lookup handle with
    | some address => return some (address ++ suffix)
    | none =>
      throw (.structural .node (properties.start.getD default) (.undefinedHandle handle)
        properties.tagMark)

/-- The tag of a scalar: as given, or implied where none is given and the scalar is plain, or where
the non-specific tag is given. -/
def scalarTag (given : Option String) (plain : Bool) (content : ScalarText) : Tag :=
  match given with
  | none => if plain then impliedTag content.chars else .str
  | some "!" => impliedTag content.chars
  | some uri => .ofUri uri

/-- The tag of a collection: as given, or the usual one. -/
def collectionTag (given : Option String) (usual : Tag) : Tag :=
  match given with
  | none | some "!" => usual
  | some uri => .ofUri uri

/-- Adds a node, and names it if it has an anchor. -/
def addNode (anchor : Option String) (node : Node) : Reading NodeId := do
  let supply ← get
  let (id, graph) := supply.graph.add node
  let anchors :=
    match anchor with
    | none => supply.anchors
    | some name => (name, id) :: supply.anchors
  set { supply with graph := graph, anchors := anchors }
  return id

/-- Adds a collection, whose content is read once it has its name. -/
def addCollection (anchor : Option String) (tag : Tag) (start : Mark) (empty : NodeContent)
    (content : Reading NodeContent) : Reading NodeId := do
  let id ← addNode anchor ⟨tag, empty, start⟩
  let content ← content
  modify fun s => { s with graph := s.graph.withContent id content }
  return id

/-- The scalar that stands where nothing is written. -/
def emptyScalar (mark : Mark) : Reading NodeId :=
  addNode none ⟨impliedTag [], .scalar ⟨[]⟩, mark⟩

/-- Refuses an anchor that is already in use. -/
def checkAnchor (anchor : Option String) (start : Mark) : Reading Unit := do
  match anchor with
  | none => return
  | some name =>
    let supply ← get
    match supply.anchors.lookup name with
    | none => return
    | some id =>
      throw (.marked ⟨.reference, some (.firstAnchor name, some (supply.graph.node id).start),
        .secondAnchor, start⟩)

/-- Where a node may stand: in a flow collection, in a block, or in a block where a sequence needs
no indentation of its own. -/
inductive Position where
  | flow
  | block
  | blockValue
  deriving DecidableEq

/-! ### Nodes -/

mutual

def node (position : Position) : Nat → Reading NodeId
  | 0 => throw (.structuralAt .unexpectedEnd default)
  | fuel + 1 => do
    let first ← peek
    match first.kind with
    | .alias name =>
      let _ ← next
      match (← get).anchors.lookup name with
      | some id => return id
      | none => throw (.marked ⟨.reference, none, .undefinedAlias name, first.start⟩)
    | _ =>
      let properties ← properties
      let tag ← resolveTag properties
      let token ← peek
      let start := properties.start.getD token.start
      let scalar (plain : Bool) (content : ScalarText) : Reading NodeId := do
        checkAnchor properties.anchor start
        addNode properties.anchor ⟨scalarTag tag plain content, .scalar content, start⟩
      let sequence (items : Reading (List NodeId)) : Reading NodeId := do
        checkAnchor properties.anchor start
        addCollection properties.anchor (collectionTag tag .seq) start (.sequence [])
          (.sequence <$> items)
      let mapping (entries : Reading (List (NodeId × NodeId))) : Reading NodeId := do
        checkAnchor properties.anchor start
        addCollection properties.anchor (collectionTag tag .map) start (.mapping [])
          (.mapping <$> entries)
      match token.kind, position with
      | .blockEntry, .blockValue => sequence (plainItems fuel)
      | .scalar content plain, _ =>
        let _ ← next
        scalar plain content
      | .flowSequenceStart, _ =>
        sequence (do let _ ← next; flowItems token.start true fuel)
      | .flowMappingStart, _ =>
        mapping (do let _ ← next; flowEntries token.start true fuel)
      | .blockSequenceStart, .block | .blockSequenceStart, .blockValue =>
        sequence (do let _ ← next; blockItems token.start fuel)
      | .blockMappingStart, .block | .blockMappingStart, .blockValue =>
        mapping (do let _ ← next; blockEntries token.start fuel)
      | kind, _ =>
        if properties.anchor.isSome || tag.isSome then scalar true ⟨[]⟩
        else
          let activity := if position = .flow then Activity.flowNode else .blockNode
          throw (.structural activity start (.expectedToken "the node content" kind.label) token.start)

/-- Reads the items of a block sequence up to the end of the block. -/
def blockItems (start : Mark) : Nat → Reading (List NodeId)
  | 0 => throw (.structuralAt .unexpectedEnd default)
  | fuel + 1 => do
    let token ← next
    match token.kind with
    | .blockEntry =>
      let item ←
        match (← peek).kind with
        | .blockEntry | .blockEnd => emptyScalar token.stop
        | _ => node .block fuel
      return item :: (← blockItems start fuel)
    | .blockEnd => return []
    | kind =>
      throw (.structural .blockSequence start (.expectedToken "<block end>" kind.label) token.start)

/-- Reads the items of a sequence that has the indentation of the mapping around it. -/
def plainItems : Nat → Reading (List NodeId)
  | 0 => throw (.structuralAt .unexpectedEnd default)
  | fuel + 1 => do
    let token ← peek
    match token.kind with
    | .blockEntry =>
      let _ ← next
      let item ←
        match (← peek).kind with
        | .blockEntry | .key | .value | .blockEnd => emptyScalar token.stop
        | _ => node .block fuel
      return item :: (← plainItems fuel)
    | _ => return []

def blockPart (mark : Token) : Nat → Reading NodeId
  | 0 => throw (.structuralAt .unexpectedEnd default)
  | fuel + 1 => do
    match (← peek).kind with
    | .key | .value | .blockEnd => emptyScalar mark.stop
    | _ => node .blockValue fuel

/-- Reads the entries of a block mapping up to the end of the block. -/
def blockEntries (start : Mark) : Nat → Reading (List (NodeId × NodeId))
  | 0 => throw (.structuralAt .unexpectedEnd default)
  | fuel + 1 => do
    let token ← next
    match token.kind with
    | .key =>
      let key ← blockPart token fuel
      let mark ← peek
      let value ←
        match mark.kind with
        | .value => do let _ ← next; blockPart mark fuel
        | _ => emptyScalar mark.start
      return (key, value) :: (← blockEntries start fuel)
    | .blockEnd => return []
    | kind =>
      throw (.structural .blockMapping start (.expectedToken "<block end>" kind.label) token.start)

def flowPart (closing : TokenKind) (mark : Token) (afterKey : Bool) : Nat → Reading NodeId
  | 0 => throw (.structuralAt .unexpectedEnd default)
  | fuel + 1 => do
    let kind := (← peek).kind
    if kind = .flowEntry || kind = closing || (afterKey && kind = .value) then
      emptyScalar mark.stop
    else node .flow fuel

/-- Reads the value of a flow entry, if there is one. -/
def flowValue (closing : TokenKind) : Nat → Reading NodeId
  | 0 => throw (.structuralAt .unexpectedEnd default)
  | fuel + 1 => do
    let mark ← peek
    match mark.kind with
    | .value => do let _ ← next; flowPart closing mark false fuel
    | _ => emptyScalar mark.start

/-- Reads the items of a flow sequence up to its closing sign; a key mark begins a mapping of one
entry. -/
def flowItems (start : Mark) (first : Bool) : Nat → Reading (List NodeId)
  | 0 => throw (.structuralAt .unexpectedEnd default)
  | fuel + 1 => do
    let token ← peek
    if token.kind = .flowSequenceEnd then
      let _ ← next
      return []
    if !first then
      if token.kind = .flowEntry then
        let _ ← next
      else
        throw (.structural .flowSequence start (.expectedFlow "]" token.kind.label) token.start)
    let token ← peek
    match token.kind with
    | .flowSequenceEnd =>
      let _ ← next
      return []
    | .key =>
      let _ ← next
      let key ← flowPart .flowSequenceEnd token true fuel
      let value ← flowValue .flowSequenceEnd fuel
      let pair ← addNode none ⟨.map, .mapping [(key, value)], token.start⟩
      return pair :: (← flowItems start false fuel)
    | _ =>
      let item ← node .flow fuel
      return item :: (← flowItems start false fuel)

/-- Reads the entries of a flow mapping up to its closing sign. -/
def flowEntries (start : Mark) (first : Bool) : Nat → Reading (List (NodeId × NodeId))
  | 0 => throw (.structuralAt .unexpectedEnd default)
  | fuel + 1 => do
    let token ← peek
    if token.kind = .flowMappingEnd then
      let _ ← next
      return []
    if !first then
      if token.kind = .flowEntry then
        let _ ← next
      else
        throw (.structural .flowMapping start (.expectedFlow "\x7d" token.kind.label) token.start)
    let token ← peek
    match token.kind with
    | .flowMappingEnd =>
      let _ ← next
      return []
    | .key =>
      let _ ← next
      let key ← flowPart .flowMappingEnd token true fuel
      let value ← flowValue .flowMappingEnd fuel
      return (key, value) :: (← flowEntries start false fuel)
    | _ =>
      let key ← node .flow fuel
      let value ← emptyScalar (← peek).start
      return (key, value) :: (← flowEntries start false fuel)

end

/-! ### Documents -/

/-- Reads directives; a version and each handle may be declared once. -/
def directives (version : Bool) (handles : List (String × String)) : Nat → Reading (List (String × String))
  | 0 => return handles
  | fuel + 1 => do
    let token ← peek
    match token.kind with
    | .directive content =>
      let _ ← next
      match content with
      | .version major _ =>
        if version then throw (.structuralAt .duplicateVersion token.start)
        if major != 1 then throw (.structuralAt .incompatibleVersion token.start)
        directives true handles fuel
      | .handle handle uri =>
        if (handles.lookup handle).isSome then
          throw (.structuralAt (.duplicateHandle handle) token.start)
        directives version ((handle, uri) :: handles) fuel
      | .other _ => directives version handles fuel
    | _ => return handles

def skipDocumentEnds : Nat → Reading Unit
  | 0 => return
  | fuel + 1 => do
    if (← peek).kind = .documentEnd then
      let _ ← next
      skipDocumentEnds fuel

/-- Reads directives and the sign that starts a document; gives the place where they start, or
nothing at the end of the stream. -/
def documentStart (fuel : Nat) : Reading (Option Mark) := do
  skipDocumentEnds fuel
  let token ← peek
  if token.kind = .streamEnd then return none
  let handles ← directives false [] fuel
  modify fun s => { s with handles := handles ++ defaultHandles }
  let sign ← peek
  if sign.kind = .documentStart then
    let _ ← next
    return some token.start
  else
    throw (.structuralAt (.expectedToken "'<document start>'" sign.kind.label) sign.start)

/-- Reads the root of a document after its start sign. -/
def documentContent (fuel : Nat) : Reading NodeId := do
  let token ← peek
  match token.kind with
  | .directive _ | .documentStart | .documentEnd | .streamEnd => emptyScalar token.start
  | _ => node .block fuel

/-- Reads the only document of a stream; an empty stream has none. -/
def document (fuel : Nat) : Reading (Option NodeId) := do
  let _ ← next
  let first ← peek
  let root ←
    match first.kind with
    | .directive _ | .documentStart | .streamEnd =>
      match ← documentStart fuel with
      | none => pure none
      | some _ => some <$> documentContent fuel
    | _ =>
      modify fun s => { s with handles := defaultHandles }
      some <$> node .block fuel
  match root with
  | none => return none
  | some root =>
    match ← documentStart fuel with
    | none => return some root
    | some mark =>
      let start := ((← get).graph.node root).start
      throw (.marked ⟨.reference, some (.singleDocument, some start), .anotherDocument, mark⟩)

end Reading

/-- The nodes of the only document of a token stream, with its root. -/
def TokenStream.toGraph? (stream : TokenStream) : Except Fault (Option (NodeId × Graph)) := do
  let (root, supply) ← (Reading.document (8 * stream.tokens.length + 16)).run { stream := stream }
  return root.map (·, supply.graph)

end ApiScaffold.Yaml
