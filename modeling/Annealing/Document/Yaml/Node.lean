import Annealing.Document.Yaml.Schema
import Annealing.Document.Yaml.Token

/-!
# Document — YAML nodes

The tokens of a text form at most one document, and that is a graph of nodes: scalars, sequences and
mappings, each with its tag.  A node without a tag takes the one that its form shows.  Nodes are
numbered in the order in which they start, and a collection lists its parts by their numbers, since
an alias stands for a node that has started before it and may still be open.

`Graph.ofTokens` gives the graph and the number of its root, none for a text without a document.
Collections have two styles, by layout and by brackets; an item or an entry that is left out is an
empty scalar.
-/

namespace Annealing.Yaml

/-- What a node holds. -/
inductive Content where
  | scalar (text : Text)
  | sequence (items : List Nat)
  | mapping (entries : List (Nat × Nat))
deriving Inhabited

/-- A node of a document. -/
structure Node where
  tag : String
  content : Content
deriving Inhabited

/-- The nodes of a document, each under its number. -/
abbrev Graph := Array Node

namespace Graph

/-- What is left of the tokens, and what is known from those before. -/
structure Parsing where
  tokens : List Token
  /-- What comes when no token is left, if not the end. -/
  fault : Option Fault
  nodes : Graph
  /-- The nodes of the anchors. -/
  anchors : List (String × Nat)
  /-- The stems that tag handles stand for. -/
  handles : List (String × String)

/-- A step of reading tokens. -/
abbrev Parse (α : Type) := StateT Parsing (Except Fault) α

/-- The next token. -/
def peek : Parse (Option Token) := do
  let p ← get
  match p.tokens.head?, p.fault with
  | none, some f => throw f
  | next, _ => return next

/-- Drops the next token. -/
def drop : Parse Unit :=
  modify fun p => { p with tokens := p.tokens.tail }

/-- Whether the next token is one of several; the end of the tokens is not. -/
def atAny (tokens : List Token) : Parse Bool := do
  return (← peek).any tokens.contains

/-- The next token must be the given one. -/
def expect (t : Token) : Parse Unit := do
  if (← peek) = some t then drop else throw .yaml

/-- Starts a node with a tag under the next number. -/
def start (tag : String) (content : Content) : Parse Nat := do
  let number := (← get).nodes.size
  modify fun p => { p with nodes := p.nodes.push ⟨tag, content⟩ }
  return number

/-- A scalar left out. -/
def empty : Parse Nat := start (Schema.tag "null") (.scalar [])

/-- How many collections may lie inside each other. -/
def depthLimit : Nat := 485

/-! ### Properties -/

/-- The whole tag for a handle and a suffix. -/
def wholeTag (handle : Option String) (suffix : String) : Parse String := do
  match handle with
  | none => return suffix
  | some h =>
      match (← get).handles.lookup h with
      | some stem => return stem ++ suffix
      | none => throw .yaml

/-- Anchor and tag before a node, in either order. -/
def properties : Parse (Option String × Option String) := do
  match ← peek with
  | some (.anchor name) => do
      drop
      match ← peek with
      | some (.tag handle suffix) => do
          drop
          return (some name, some (← wholeTag handle suffix))
      | _ => return (some name, none)
  | some (.tag handle suffix) => do
      drop
      match ← peek with
      | some (.anchor name) => do
          drop
          return (some name, some (← wholeTag handle suffix))
      | _ => return (none, some (← wholeTag handle suffix))
  | _ => return (none, none)

/-- Starts a node behind an anchor, which must be new. -/
def startAt (anchor : Option String) (tag : String) (content : Content) : Parse Nat := do
  match anchor with
  | none => start tag content
  | some name => do
      if ((← get).anchors.lookup name).isSome then throw .yaml
      let number ← start tag content
      modify fun p => { p with anchors := (name, number) :: p.anchors }
      return number

/-- Gives a node what it holds. -/
def fill (number : Nat) (content : Content) : Parse Unit :=
  modify fun p => { p with nodes := p.nodes.modify number fun n => { n with content } }

/-- The tag of a collection. -/
def collectionTag (tag : Option String) (name : String) : String :=
  match tag with
  | none | some "!" => Schema.tag name
  | some t => t

/-- The tag of a scalar: a plain one without a tag has the one of its form, and so has any with the
tag `!`. -/
def scalarTag (tag : Option String) (isPlain : Bool) (text : Text) : String :=
  match tag with
  | some "!" => Schema.tag (Schema.nameOf text)
  | some t => t
  | none => Schema.tag (if isPlain then Schema.nameOf text else "str")

/-! ### Collections -/

section

variable (item : (isBlock indentless : Bool) → Parse Nat)

/-- Items behind hyphens, the given one left out if one of `ends` follows its hyphen. -/
def hyphenItems (ends : List Token) : Nat → List Nat → Parse (List Nat)
  | 0, _ => throw .yaml
  | fuel + 1, before => do
      if (← peek) = some .blockEntry then
        drop
        let next ← if ← atAny (.blockEntry :: ends) then empty else item true false
        hyphenItems ends fuel (next :: before)
      else return before.reverse

/-- A key or a value of a mapping in block style, left out if another entry or the end follows. -/
def blockPart : Parse Nat := do
  if ← atAny [.key, .value, .blockEnd] then empty else item true true

/-- The entries of a mapping in block style. -/
def blockEntries : Nat → List (Nat × Nat) → Parse (List (Nat × Nat))
  | 0, _ => throw .yaml
  | fuel + 1, before => do
      if (← peek) = some .key then
        drop
        let key ← blockPart item
        let value ← if (← peek) = some .value then do drop; blockPart item else empty
        blockEntries fuel ((key, value) :: before)
      else return before.reverse

/-- A key or a value inside brackets, left out if one of `ends` follows. -/
def flowPart (ends : List Token) : Parse Nat := do
  if ← atAny (.flowEntry :: ends) then empty else item false false

/-- The value of an entry inside brackets, which may be missing. -/
def flowValue (close : Token) : Parse Nat := do
  if (← peek) = some .value then do drop; flowPart item [close] else empty

/-- The items of a sequence in brackets.  An entry among them is a mapping of its own, and `part`
reads its key and its value. -/
def flowItems (part : (isBlock indentless : Bool) → Parse Nat) : Nat → List Nat → Parse (List Nat)
  | 0, _ => throw .yaml
  | fuel + 1, before => do
      if (← peek) = some .flowSequenceEnd then return before.reverse
      if !before.isEmpty then expect .flowEntry
      match ← peek with
      | some .key => do
          drop
          let number ← start (Schema.tag "map") (.mapping [])
          let key ← flowPart part [.value, .flowSequenceEnd]
          let value ← flowValue part .flowSequenceEnd
          fill number (.mapping [(key, value)])
          flowItems part fuel (number :: before)
      | some .flowSequenceEnd => return before.reverse
      | _ => do flowItems part fuel ((← item false false) :: before)

/-- The entries of a mapping in brackets. -/
def flowEntries : Nat → List (Nat × Nat) → Parse (List (Nat × Nat))
  | 0, _ => throw .yaml
  | fuel + 1, before => do
      if (← peek) = some .flowMappingEnd then return before.reverse
      if !before.isEmpty then expect .flowEntry
      match ← peek with
      | some .key => do
          drop
          let key ← flowPart item [.value, .flowMappingEnd]
          let value ← flowValue item .flowMappingEnd
          flowEntries fuel ((key, value) :: before)
      | some .flowMappingEnd => return before.reverse
      | _ => do
          let key ← item false false
          flowEntries fuel ((key, ← empty) :: before)

end

/-- A node, whose number it gives.  One in block style may be a collection by layout, and one that
is part of an entry may be a sequence that is not indented. -/
def node : (fuel depth : Nat) → (isBlock indentless : Bool) → Parse Nat
  | 0, _, _, _ => throw .yaml
  | fuel + 1, depth, isBlock, indentless => do
      match ← peek with
      | some (.alias name) => do
          drop
          match (← get).anchors.lookup name with
          | some number => return number
          | none => throw .yaml
      | _ => do
          let (anchor, tag) ← properties
          let inner := node fuel (depth - 1)
          let sequence := fun (items : Parse (List Nat)) => do
            let number ← startAt anchor (collectionTag tag "seq") (.sequence [])
            if depth = 0 then throw .tooDeep
            fill number (.sequence (← items))
            return number
          let mapping := fun (entries : Parse (List (Nat × Nat))) => do
            let number ← startAt anchor (collectionTag tag "map") (.mapping [])
            if depth = 0 then throw .tooDeep
            fill number (.mapping (← entries))
            return number
          let next ← peek
          if indentless && next = some .blockEntry then
            sequence (hyphenItems inner [.key, .value, .blockEnd] fuel [])
          else
            match next with
            | some (.scalar text isPlain) => do
                drop
                startAt anchor (scalarTag tag isPlain text) (.scalar text)
            | some .flowSequence => sequence do
                drop
                let items ← flowItems inner (node fuel (depth - 2)) fuel []
                expect .flowSequenceEnd
                return items
            | some .flowMapping => mapping do
                drop
                let entries ← flowEntries inner fuel []
                expect .flowMappingEnd
                return entries
            | some .blockSequence =>
                if isBlock then sequence do
                  drop
                  let items ← hyphenItems inner [.blockEnd] fuel []
                  expect .blockEnd
                  return items
                else emptyNode anchor tag
            | some .blockMapping =>
                if isBlock then mapping do
                  drop
                  let entries ← blockEntries inner fuel []
                  expect .blockEnd
                  return entries
                else emptyNode anchor tag
            | _ => emptyNode anchor tag
where
  /-- A scalar left out behind an anchor or a tag. -/
  emptyNode (anchor tag : Option String) : Parse Nat := do
    if anchor.isNone && tag.isNone then throw .yaml
    startAt anchor (scalarTag tag true []) (.scalar [])

/-! ### Documents -/

/-- The handles that need no directive. -/
def commonHandles : List (String × String) := [("!", "!"), ("!!", Schema.stem)]

/-- The directives before a document, as tag handles. -/
def directives :
    Nat → (versionSeen : Bool) → List (String × String) → Parse (List (String × String))
  | 0, _, _ => throw .yaml
  | fuel + 1, versionSeen, handles => do
      match ← peek with
      | some (.directive d) => do
          drop
          match d with
          | .version major =>
              if versionSeen || major ≠ 1 then throw .yaml else directives fuel true handles
          | .tagHandle handle stem =>
              if (handles.lookup handle).isSome then throw .yaml
              else directives fuel versionSeen ((handle, stem) :: handles)
          | .other => directives fuel versionSeen handles
      | _ => return handles

/-- Whether a token marks a document. -/
def isMark : Token → Bool
  | .directive _ | .documentStart | .documentEnd => true
  | _ => false

/-- The root of the one document of the tokens, none if there is none. -/
def document (fuel : Nat) : Parse (Option Nat) := do
  match ← peek with
  | none => return none
  | some (.directive _) | some .documentStart => do
      let handles ← directives fuel false []
      modify fun p => { p with handles := handles ++ commonHandles }
      expect .documentStart
      if (← peek).all isMark then return some (← empty)
      else return some (← node fuel depthLimit true false)
  | some _ => return some (← node fuel depthLimit true false)

/-- The marks that end a document, and then nothing. -/
def endOfTokens : Nat → Parse Unit
  | 0 => throw .yaml
  | fuel + 1 => do
      match ← peek with
      | none => return ()
      | some .documentEnd => do drop; endOfTokens fuel
      | some _ => do
          let _ ← directives (fuel + 1) false []
          expect .documentStart
          throw .yaml

/-- The graph of the one document that tokens form, and the number of its root. -/
def ofTokens (tokens : Tokens) : Except Fault (Option (Graph × Nat)) := do
  let fuel := tokens.list.length + 2
  let parse : Parse (Option Nat) := do
    let root ← document fuel
    endOfTokens fuel
    return root
  let (root, p) ← parse.run
    { tokens := tokens.list, fault := tokens.fault, nodes := #[], anchors := [],
      handles := commonHandles }
  return root.map fun number => (p.nodes, number)

end Graph

end Annealing.Yaml
