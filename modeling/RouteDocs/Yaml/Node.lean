import RouteDocs.Json.Value
import RouteDocs.Yaml.Scalar
import RouteDocs.Yaml.Token

/-!
# Nodes of YAML Documents

The nodes that a document consists of, with the tags that say what they stand for.

## Main Definitions

* `Yaml.Tag`: what a node stands for
* `Yaml.Node`: a scalar, a sequence or a mapping
* `Yaml.Graph`: the nodes of a document, each with a number
* `Yaml.Graph.ofText`: the document that a text consists of

## Design Notes

An alias is another reference to a node, perhaps to one around it, so nodes refer to one another by
their numbers. A collection has its number before its parts have theirs. Every turn of a loop
consumes a token, so the number of tokens bounds them.
-/

namespace RouteDocs

namespace Yaml

/-- What a node stands for. -/
inductive Tag where
  | null | truth | integer | float | binary | timestamp | text
  | sequence | pairs | mapping | set | merge | value | unknown
  deriving Repr, DecidableEq

namespace Tag

/-- What the tags of YAML itself begin with. -/
def ownStart : Text := "tag:yaml.org,2002:"

/-- The tags of YAML itself, by the rest of their names. -/
def own : List (String × Tag) := [("null", null), ("bool", truth), ("int", integer),
  ("float", float), ("binary", binary), ("timestamp", timestamp), ("str", text), ("seq", sequence),
  ("omap", pairs), ("pairs", pairs), ("map", mapping), ("set", set), ("merge", merge),
  ("value", value)]

/-- The tag with a name. -/
def ofName (name : Text) : Tag :=
  match own.find? fun e => name == ownStart ++ e.1 with
  | some e => e.2
  | none => unknown

/-- The tag of a plain scalar of a kind. -/
def ofKind : ScalarKind → Tag
  | .null => null
  | .truth => truth
  | .integer => integer
  | .float => float
  | .timestamp => timestamp
  | .merge => merge
  | .value => value
  | .indicator => unknown
  | .text => text

end Tag

/-- What a node consists of. -/
inductive Content where
  /-- A text. -/
  | scalar (text : Text)
  /-- The numbers of the items. -/
  | sequence (items : List Nat)
  /-- The numbers of the keys and values. -/
  | mapping (entries : List (Nat × Nat))
  deriving Repr, DecidableEq, Inhabited

/-- A node of a document. -/
structure Node where
  /-- What it stands for. -/
  tag : Tag
  /-- What it consists of. -/
  content : Content
  deriving Repr, DecidableEq

/-- The nodes of a document. -/
structure Graph where
  /-- The nodes in the order of their numbers. -/
  nodes : List Node
  /-- The number of the outermost node, unless the document is empty. -/
  root : Option Nat
  deriving Repr

/-- What is known when nodes are made from tokens. -/
structure Composition where
  /-- The tokens that are left. -/
  tokens : List Token
  /-- The nodes so far. -/
  nodes : List Node
  /-- The numbers of the named nodes. -/
  names : Assoc Nat
  /-- What the handles of tags stand for. -/
  handles : Assoc Text

/-- A step in which nodes are made from tokens. -/
abbrev Composing (α : Type) := StateT Composition (Except Fault) α

namespace Composing

/-- A token that may not stand where it does. -/
def fail {α : Type} : Composing α := fun _ => .error .malformed

/-- The next token. -/
def peek? : Composing (Option Token) := fun s => .ok (s.tokens.head?, s)

/-- Goes on to the token after the next one. -/
def advance : Composing Unit := fun s => .ok ((), { s with tokens := s.tokens.tail })

/-- Goes on over a token that must be there. -/
def expect (token : Token) : Composing Unit := do
  if (← peek?) == some token then advance else fail

/-- Whether the next token is one of some tokens. -/
def sees (tokens : List Token) : Composing Bool := do
  pure ((← peek?).any tokens.contains)

/-- A new node, which may have a name that no other one has. -/
def add (name : Option Text) (node : Node) : Composing Nat := fun s =>
  let number := s.nodes.length
  let nodes := s.nodes ++ [node]
  match name with
  | none => .ok (number, { s with nodes })
  | some name =>
    if s.names.has name then .error .malformed
    else .ok (number, { s with nodes, names := s.names ++ [(name, number)] })

/-- An empty scalar. -/
def empty : Composing Nat := add none ⟨.null, .scalar []⟩

/-- A new collection, whose parts are made by a step. -/
def collection (name : Option Text) (tag : Tag) (parts : Composing Content) : Composing Nat := do
  let number ← add name ⟨tag, .sequence []⟩
  let content ← parts
  fun s => .ok (number, { s with nodes := s.nodes.set number ⟨tag, content⟩ })

/-- The full name of a tag. -/
def tagName (spelling : TagSpelling) : Composing Text := fun s =>
  match spelling.handle with
  | none => .ok (spelling.rest, s)
  | some handle =>
    match s.handles.get? handle with
    | some meaning => .ok (meaning ++ spelling.rest, s)
    | none => .error .malformed

/-- The name before a node, if there is one. -/
def anchor : Composing (Option Text) := do
  match ← peek? with
  | some (.anchor name) => advance; pure (some name)
  | _ => pure none

/-- The tag before a node, if there is one. -/
def tag : Composing (Option TagSpelling) := do
  match ← peek? with
  | some (.tag spelling) => advance; pure (some spelling)
  | _ => pure none

/-- The name and the full tag before a node, in either order. -/
def properties : Composing (Option Text × Option Text) := do
  let early ← anchor
  let spelling ← tag
  let name ← if early.isNone && spelling.isSome then anchor else pure early
  match spelling with
  | none => pure (name, none)
  | some spelling => pure (name, some (← tagName spelling))

/-- The tag of a scalar: one that is plain, or tagged with an exclamation mark alone, is judged by
its text. -/
def scalarTag (isPlain : Bool) (tag : Option Text) (text : Text) : Tag :=
  match tag with
  | none => if isPlain then .ofKind (scalarKind text) else .text
  | some name => if name == "!" then .ofKind (scalarKind text) else .ofName name

/-- The tag of a collection. -/
def collectionTag (default : Tag) (tag : Option Text) : Tag :=
  match tag with
  | none => default
  | some name => if name == "!" then default else .ofName name

mutual

/-- A node. An item with a hyphen may begin it only where a sequence need not be indented. The
number bounds the turns. -/
def node : Nat → Bool → Composing Nat
  | 0, _ => fail
  | turns + 1, isFreeStanding => do
    match ← peek? with
    | some (.alias name) => do
      advance
      fun s => match s.names.get? name with
        | some number => .ok (number, s)
        | none => .error .malformed
    | _ => do
      let (name, tag) ← properties
      let sequenceTag := collectionTag .sequence tag
      let mappingTag := collectionTag .mapping tag
      match ← peek? with
      | some (.scalar isPlain text) => do
        advance
        add name ⟨scalarTag isPlain tag text, .scalar text⟩
      | some .flowSequenceStart => do
        advance
        collection name sequenceTag (Content.sequence <$> flowItems turns true)
      | some .flowMappingStart => do
        advance
        collection name mappingTag (Content.mapping <$> flowEntries turns true)
      | some .blockSequenceStart => do
        advance
        collection name sequenceTag (Content.sequence <$> (blockItems turns <* expect .blockEnd))
      | some .blockMappingStart => do
        advance
        collection name mappingTag (Content.mapping <$> (blockEntries turns <* expect .blockEnd))
      | token =>
        if token == some .blockEntry && isFreeStanding then
          collection name sequenceTag (Content.sequence <$> blockItems turns)
        else if name.isSome || tag.isSome then add name ⟨scalarTag true tag [], .scalar []⟩
        else fail

/-- The items with hyphens. -/
def blockItems : Nat → Composing (List Nat)
  | 0 => fail
  | turns + 1 => do
    if ← sees [.blockEntry] then
      advance
      let item ← if ← sees [.blockEntry, .key, .value, .blockEnd] then empty else node turns false
      List.cons item <$> blockItems turns
    else pure []

/-- The keys and values of a mapping that is shown by indentation. -/
def blockEntries : Nat → Composing (List (Nat × Nat))
  | 0 => fail
  | turns + 1 => do
    if ← sees [.key] then
      advance
      let key ← if ← sees [.key, .value, .blockEnd] then empty else node turns true
      let value ←
        if ← sees [.value] then do
          advance
          if ← sees [.key, .value, .blockEnd] then empty else node turns true
        else empty
      List.cons (key, value) <$> blockEntries turns
    else pure []

/-- The value after a key between brackets, which one of some tokens follows. -/
def flowValue : Nat → List Token → Composing Nat
  | 0, _ => fail
  | turns + 1, followers => do
    if ← sees [.value] then
      advance
      if ← sees followers then empty else node turns false
    else empty

/-- The items of a sequence in brackets and its end; a key among them begins a mapping of one
entry. -/
def flowItems : Nat → Bool → Composing (List Nat)
  | 0, _ => fail
  | turns + 1, isFirst => do
    if ← sees [.flowSequenceEnd] then advance; pure []
    else
      if !isFirst then expect .flowEntry
      if ← sees [.flowSequenceEnd] then advance; pure []
      else
        let item ←
          if ← sees [.key] then
            collection none .mapping do
              advance
              let key ←
                if ← sees [.value, .flowEntry, .flowSequenceEnd] then empty else node turns false
              let value ← flowValue turns [.flowEntry, .flowSequenceEnd]
              pure (.mapping [(key, value)])
          else node turns false
        List.cons item <$> flowItems turns false

/-- The entries of a mapping in braces and its end; a node without a colon is a key alone. -/
def flowEntries : Nat → Bool → Composing (List (Nat × Nat))
  | 0, _ => fail
  | turns + 1, isFirst => do
    if ← sees [.flowMappingEnd] then advance; pure []
    else
      if !isFirst then expect .flowEntry
      if ← sees [.flowMappingEnd] then advance; pure []
      else
        let entry ←
          if ← sees [.key] then do
            advance
            let key ←
              if ← sees [.value, .flowEntry, .flowMappingEnd] then empty else node turns false
            let value ← flowValue turns [.flowEntry, .flowMappingEnd]
            pure (key, value)
          else do
            let key ← node turns false
            pure (key, ← empty)
        List.cons entry <$> flowEntries turns false

end

/-- What the handles of tags stand for if no directive says so. -/
def defaultHandles : Assoc Text := [("!", "!"), ("!!", Tag.ownStart)]

/-- The directives at the start of a document; each may stand there once. The number bounds the
turns. -/
def directives : Nat → Bool → Composing Unit
  | 0, _ => fail
  | turns + 1, hasVersion => do
    match ← peek? with
    | some (.directive (.version major)) =>
      if hasVersion || major != 1 then fail
      else do
        advance
        directives turns true
    | some (.directive (.handle name meaning)) => do
      if (← get).handles.has name then fail
      else
        advance
        modify fun s => { s with handles := s.handles ++ [(name, meaning)] }
        directives turns hasVersion
    | some (.directive .other) => do
      advance
      directives turns hasVersion
    | _ => pure ()

/-- The handles without a directive have their usual meanings. -/
def completeHandles : Composing Unit :=
  modify fun s => { s with
    handles := defaultHandles.foldl (fun hs (name, meaning) => hs.putNew name meaning) s.handles }

/-- Whether the next token begins a document or its directives. -/
def seesDocument : Composing Bool := do
  match ← peek? with
  | some (.directive _) | some .documentStart => pure true
  | _ => pure false

/-- Goes on over the marks of a document's end. The number bounds the turns. -/
def documentEnds : Nat → Composing Unit
  | 0 => fail
  | turns + 1 => do
    if ← sees [.documentEnd] then
      advance
      documentEnds turns

/-- The outermost node of the only document, unless there is no document at all. -/
def document (turns : Nat) : Composing (Option Nat) := do
  if (← peek?).isNone then pure none
  else
    let root ←
      if ← seesDocument then do
        directives turns false
        completeHandles
        expect .documentStart
        if (← seesDocument) || (← sees [.documentEnd]) || (← peek?).isNone then empty
        else node turns false
      else do
        completeHandles
        node turns false
    documentEnds turns
    if (← peek?).isNone then pure (some root) else fail

end Composing

/-- The document that tokens form. -/
def Graph.ofTokens (tokens : List Token) : Except Fault Graph := do
  let (root, s) ← Composing.document (2 * tokens.length + 4) ⟨tokens, [], [], []⟩
  pure ⟨s.nodes, root⟩

/-- The document that a text consists of. -/
def Graph.ofText (t : Text) : Except Fault Graph :=
  Token.ofText t >>= Graph.ofTokens

end Yaml

end RouteDocs
