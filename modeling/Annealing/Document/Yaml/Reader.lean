import Annealing.Document.Yaml.Node
import Annealing.Document.Yaml.Number
import Annealing.Value.Entries
import Annealing.Value.SetOrder

/-!
# Document — reading YAML

`Yaml.read` reads the value that a YAML text holds.  It divides the text into tokens, makes them a
graph of nodes and converts every node to the type that its tag names.

A scalar is converted as soon as something needs it.  A collection is begun empty and filled in its
turn, in the order in which the collections were begun, so that of several things that are wrong the
one in the outermost collection counts.  When a mapping is filled, the entries of merged mappings
are put before its own; this changes the mapping for whoever merges it later, and so does the sign
`=` that becomes a text where it is a key.

* `Building.make` begins a node, and `Building.complete` fills what was begun.
* `Made.value` is the value of a node, in which a collection that contains itself is a knot.
-/

namespace Annealing.Yaml

/-! ### Values of scalars -/

/-- A value that may be a key.  A number that is none is the same key as another only if both have
one origin. -/
structure Key where
  value : Value
  origin : Option Nat
deriving Inhabited

/-- Whether two keys are the same. -/
def Key.same (a b : Key) : Bool :=
  a.value.same b.value || (a.origin.isSome && a.origin == b.origin)

/-- The origin that a number that is none has by its own name. -/
def namedOrigin : Nat := 0

/-- The key of a double in the node of a number. -/
def Key.ofDouble (number : Nat) (text : Text) (x : Float) : Key :=
  ⟨.float x, if !x.isNaN then none else some (if namesNaN text then namedOrigin else number + 1)⟩

/-- The truth value that a text names in letters of any size. -/
def truthValue (text : Text) : Except Fault Value :=
  let word := Text.small text
  if ["yes", "true", "on"].any fun w => word = Text.ofString w then .ok (.bool true)
  else if ["no", "false", "off"].any fun w => word = Text.ofString w then .ok (.bool false)
  else .error (.unknownWord word)

/-- The type that a tag names. -/
inductive Core where
  | null | bool | int | float | text | binary | timestamp | sequence | pairs | set | mapping
deriving DecidableEq

/-- The types and the names of their tags. -/
def Core.names : List (String × Core) :=
  [("null", .null), ("bool", .bool), ("int", .int), ("float", .float), ("str", .text),
    ("binary", .binary),
   ("timestamp", .timestamp), ("seq", .sequence), ("omap", .pairs), ("pairs", .pairs),
   ("set", .set), ("map", .mapping)]

/-- The type that a tag names. -/
def Core.ofTag (tag : String) : Except Fault Core :=
  match names.find? fun n => Schema.tag n.1 == tag with
  | some (_, core) => .ok core
  | none => .error .yaml

/-! ### Building -/

/-- What has been made of a node: a scalar at once, a collection first without its parts, which are
given by the numbers of their nodes. -/
inductive Made where
  | scalar (key : Key)
  | sequence (items : List Nat)
  | pairs (items : List (Nat × Nat))
  | set (members : List Value)
  | mapping (entries : List (Key × Nat))
deriving Inhabited

/-- The kind of value that a node becomes. -/
def Made.kind : Made → Kind
  | .scalar key => key.value.kind
  | .sequence _ | .pairs _ => .list
  | .set _ => .set
  | .mapping _ => .dict

/-- The nodes, what has been made of them, and the collections that wait for their parts, the last
begun first. -/
structure Building where
  graph : Graph
  made : Array (Option Made)
  waiting : List Nat
  /-- The number of entries of all mappings at first. -/
  entries : Nat

/-- A step of building. -/
abbrev Build (α : Type) := StateT Building (Except Fault) α

namespace Building

/-- The node of a number. -/
def node (number : Nat) : Build Node := do
  return (← get).graph.getD number default

/-- The text that stands for a node where a scalar is asked for: its own, or that of the value under
the sign `=`. -/
def scalarText (graph : Graph) : (fuel number : Nat) → Except Fault Text
  | 0, _ => .error .tooDeep
  | fuel + 1, number =>
      match (graph.getD number default).content with
      | .scalar text => .ok text
      | .sequence _ => .error .yaml
      | .mapping entries =>
          match entries.find? fun e => (graph.getD e.1 default).tag == Schema.tag "value" with
          | some (_, value) => scalarText graph fuel value
          | none => .error .yaml

/-- The key that a node of a scalar type becomes. -/
def scalarKey (graph : Graph) (number : Nat) (core : Core) : Except Fault Key := do
  let text ← scalarText graph (graph.size + 1) number
  match core with
  | .null => return ⟨.null, none⟩
  | .bool => return ⟨← truthValue text, none⟩
  | .int => return ⟨.int (← integer text), none⟩
  | .float => return Key.ofDouble number text (← double text)
  | .binary => return ⟨.bytes (← octets text), none⟩
  | .timestamp =>
      match (graph.getD number default).content with
      | .scalar text => return ⟨← moment text, none⟩
      | _ => throw (.notText .list)
  | _ => return ⟨.text text, none⟩

/-- A collection of a type, without its parts; none for a type of scalars. -/
def emptyOf? : Core → Option Made
  | .sequence => some (.sequence [])
  | .pairs => some (.pairs [])
  | .set => some (.set [])
  | .mapping => some (.mapping [])
  | _ => none

/-- What is made of a node.  A node is made once. -/
def make (number : Nat) : Build Made := do
  let b ← get
  match b.made.getD number none with
  | some made => return made
  | none =>
      let core ← Core.ofTag (b.graph.getD number default).tag
      match emptyOf? core with
      | some empty =>
          set { b with
            made := b.made.setIfInBounds number (some empty), waiting := number :: b.waiting }
          return empty
      | none =>
          let key ← scalarKey b.graph number core
          set { b with made := b.made.setIfInBounds number (some (.scalar key)) }
          return .scalar key

/-! ### Merging -/

/-- The entries of a mapping. -/
def entriesOf (number : Nat) : Build (List (Nat × Nat)) := do
  match (← node number).content with
  | .mapping entries => return entries
  | _ => throw .yaml

/-- Gives a mapping other entries. -/
def setEntries (number : Nat) (entries : List (Nat × Nat)) : Build Unit :=
  modify fun b =>
    { b with graph := b.graph.modify number fun n => { n with content := .mapping entries } }

/-- Gives a node another tag. -/
def setTag (number : Nat) (tag : String) : Build Unit :=
  modify fun b => { b with graph := b.graph.modify number fun n => { n with tag } }

/-- The entries that the value of a merge key brings in, each mapping flattened before: those of a
mapping, or of the mappings of a sequence from the last to the first. -/
def mergedIn (flatten : Nat → Build Unit) (value : Nat) : Build (List (Nat × Nat)) := do
  match (← node value).content with
  | .scalar _ => throw .yaml
  | .mapping _ => do
      flatten value
      entriesOf value
  | .sequence items => do
      let all ← items.mapM fun item => do
        let _ ← entriesOf item
        flatten item
        entriesOf item
      return all.reverse.flatten

/-- Goes through the entries of a mapping from a place on: takes merge keys away, collects what they
bring in, and makes the sign `=` a text. -/
def flattenFrom (flatten : Nat → Build Unit) (number : Nat) :
    (fuel place : Nat) → (merged : List (Nat × Nat)) → Build (List (Nat × Nat))
  | 0, _, merged => return merged
  | fuel + 1, place, merged => do
      let entries ← entriesOf number
      match entries[place]? with
      | none => return merged
      | some (key, value) => do
          let tag := (← node key).tag
          if tag = Schema.tag "merge" then
            setEntries number (entries.eraseIdx place)
            let more ← mergedIn flatten value
            flattenFrom flatten number fuel place (merged ++ more)
          else
            if tag = Schema.tag "value" then setTag key (Schema.tag "str")
            flattenFrom flatten number fuel (place + 1) merged

/-- Puts the entries of merged mappings before the own ones of a mapping.  Every step inward takes a
merge key away, of which there are not more than `fuel`. -/
def flatten : (fuel number : Nat) → Build Unit
  | 0, _ => throw .tooDeep
  | fuel + 1, number => do
      let count := (← entriesOf number).length
      let merged ← flattenFrom (flatten fuel) number (count + 1) 0 []
      if !merged.isEmpty then setEntries number (merged ++ (← entriesOf number))

/-! ### Filling -/

/-- Puts a value under a key: in the key's place if it has one, at the end otherwise. -/
def insert : List (Key × Nat) → Key → Nat → List (Key × Nat)
  | [], key, value => [(key, value)]
  | (k, v) :: rest, key, value =>
      if k.same key then (k, value) :: rest else (k, v) :: insert rest key value

/-- Makes the keys and the values of entries in turn.  No collection is a key. -/
def makeEntries : List (Nat × Nat) → (before : List (Key × Nat)) → Build (List (Key × Nat))
  | [], before => return before
  | (key, value) :: rest, before => do
      match ← make key with
      | .scalar k => do
          let _ ← make value
          makeEntries rest (insert before k value)
      | _ => throw .yaml

/-- The entries of a mapping, with those of merged mappings. -/
def filledEntries (number : Nat) : Build (List (Key × Nat)) := do
  let _ ← entriesOf number
  flatten ((← get).entries + 1) number
  makeEntries (← entriesOf number) []

/-- A key and a value from a mapping of one entry. -/
def makePair (item : Nat) : Build (Nat × Nat) := do
  match ← entriesOf item with
  | [(key, value)] => do
      let _ ← make key
      let _ ← make value
      return (key, value)
  | _ => throw .yaml

/-- The items of a sequence. -/
def itemsOf (number : Nat) : Build (List Nat) := do
  match (← node number).content with
  | .sequence items => return items
  | _ => throw .yaml

/-- A collection with its parts. -/
def filled (number : Nat) : Made → Build Made
  | .scalar key => return .scalar key
  | .sequence _ => do
      let items ← itemsOf number
      for item in items do
        let _ ← make item
      return .sequence items
  | .pairs _ => do return .pairs (← (← itemsOf number).mapM makePair)
  | .set _ => do return .set (Value.setOrder ((← filledEntries number).map fun e => e.1.value))
  | .mapping _ => do return .mapping (← filledEntries number)

/-- Fills collections in turn. -/
def fillAll : List Nat → Build Unit
  | [] => return ()
  | number :: rest => do
      let parts ← filled number (((← get).made.getD number none).getD default)
      modify fun b => { b with made := b.made.setIfInBounds number (some parts) }
      fillAll rest

/-- Fills what was begun until nothing waits.  Every node is begun once, so as many rounds as nodes
suffice. -/
def complete : (rounds : Nat) → Build Unit
  | 0 => return ()
  | rounds + 1 => do
      let begun := (← get).waiting.reverse
      if begun.isEmpty then return ()
      modify fun b => { b with waiting := [] }
      fillAll begun
      complete rounds

end Building

/-! ### Values -/

namespace Made

/-- The value of what was made, none if a part has none yet. -/
def value? (values : Array (Option Value)) : Made → Option Value
  | .scalar key => some key.value
  | .sequence items => (items.mapM fun n => values.getD n none).map Value.list
  | .pairs items => (items.mapM pair?).map Value.list
  | .set members => some (.set members)
  | .mapping entries => (entries.mapM get?).map Value.dict
where
  /-- The value of a pair. -/
  pair? (e : Nat × Nat) : Option Value := do
    return .tuple [← values.getD e.1 none, ← values.getD e.2 none]
  /-- An entry with its value. -/
  get? (e : Key × Nat) : Option (Value × Value) := do
    return (e.1.value, ← values.getD e.2 none)

/-- The values of nodes after a look at those of the given numbers in turn. -/
def look (made : Array (Option Made)) (numbers : List Nat) (values : Array (Option Value)) :
    Array (Option Value) :=
  numbers.foldl (fun values n =>
    if (values.getD n none).isSome then values
    else values.setIfInBounds n ((made.getD n none).bind (value? values))) values

/-- How many nodes have a value. -/
def known (values : Array (Option Value)) : Nat :=
  values.foldl (fun n v => if v.isSome then n + 1 else n) 0

/-- Looks at all nodes, from the last to the first and back, until no further one gets a value: then
no part of those without one lies outside all cycles. -/
def finite (made : Array (Option Made)) :
    (rounds : Nat) → Array (Option Value) → Array (Option Value)
  | 0, values => values
  | rounds + 1, values =>
      let numbers := List.range made.size
      let next := look made numbers (look made numbers.reverse values)
      if known next = known values then next else finite made rounds next

/-- The value of a node, and the collections of knots.  A node that leads to itself, or to such a
node, is a knot of its own number. -/
def value (made : Array (Option Made)) (root : Nat) : Value × Knots :=
  let values := finite made (made.size + 1) (Array.replicate made.size none)
  match values.getD root none with
  | some v => (v, #[])
  | none =>
      let tied := values.mapIdx fun n v => v <|> (made.getD n none).map fun m => Value.knot m.kind n
      ((tied.getD root none).getD .null, made.map fun m => (m.bind (value? tied)).getD .null)

end Made

/-- The value that a graph holds at a node, and the collections that its knots stand for. -/
def Graph.toValue (graph : Graph) (root : Nat) : Except Fault (Value × Knots) := do
  let build : Build Unit := do
    let _ ← Building.make root
    Building.complete (graph.size + 1)
  let entries :=
    graph.foldl (fun n node => n + match node.content with | .mapping es => es.length | _ => 0) 0
  let (_, b) ← build.run { graph, made := Array.replicate graph.size none, waiting := [], entries }
  return Made.value b.made root

/-- The value that a YAML text holds; a text without a document holds null. -/
def read (text : List Char) : Except Fault (Value × Knots) := do
  match ← Graph.ofTokens (Tokens.ofText text) with
  | none => return (.null, #[])
  | some (graph, root) => graph.toValue root

end Annealing.Yaml
