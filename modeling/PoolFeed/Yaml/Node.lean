import PoolFeed.Yaml.Kind
import PoolFeed.Yaml.Token

/-!
# Nodes

| here | there |
| --- | --- |
| `Node.ofTokens?` | the parser and the composer of `safe_load` |
| `merged` | the merge key of a mapping |

The tree that the tokens of a text describe, with the kind of each node settled and with the merged
members of a mapping put in front of its own. An alias is the node that it names; inside that node it
is a cycle.
-/

namespace PoolFeed.Yaml

inductive Node where
  | scalar (kind : Kind) (text : String)
  | seq (kind : Kind) (items : List Node)
  | map (kind : Kind) (entries : List (Node × Node))
  /-- An alias inside the node that it names. -/
  | cycle (name : String)

namespace Node

/-- The scalar that stands where nothing is written. -/
def absent : Node := .scalar .null ""

def isMerge : Node → Bool
  | .scalar .merge _ => true
  | _ => false

/-- As a key of a mapping, the whole is an ordinary text. -/
def plainKey : Node → Node
  | .scalar .whole text => .scalar .text text
  | n => n

/-- The members that a node brings into a mapping, which brings none into itself. -/
def members (anchor : Option String) : Node → Result (List (Node × Node))
  | .map _ entries => .ok entries
  | .cycle name => if anchor = some name then .ok [] else .error .endless
  | .seq _ _ | .scalar _ _ => .error .malformed

/-- The members that a merge brings in: of several mappings the first one comes last, so that it
wins. -/
def merged (anchor : Option String) : Node → Result (List (Node × Node))
  | .seq _ items => return (← items.mapM (members anchor)).reverse.flatten
  | n => n.members anchor

/-- A mapping with its merges carried out; one that stands for a scalar is left as it is. -/
def ofEntries (anchor : Option String) (kind : Kind) (entries : List (Node × Node)) : Result Node := do
  if kind.isScalar then return .map kind entries
  let parts ← (entries.filter (·.1.isMerge)).mapM (·.2.merged anchor)
  let own := entries.filter (!·.1.isMerge)
  return .map kind (parts.flatten ++ own.map fun (k, v) => (k.plainKey, v))

end Node

/-! ## The grammar -/

/-- What is still to be read, and the nodes that aliases can name. -/
structure Reading where
  tokens : List Token
  anchors : List (String × Node) := []
  /-- Anchors of the nodes that are being read. -/
  opened : List String := []
  handles : List (String × String) := []

namespace Reading

def drop (r : Reading) : Reading := { r with tokens := r.tokens.drop 1 }

def head (r : Reading) : Token := r.tokens.headD .streamEnd

/-- An anchor and a tag in front of a node, in either order. -/
def properties (r : Reading) : Option String × Option (Option String × String) × Reading :=
  match r.tokens with
  | .anchor a :: .tag h s :: _ => (some a, some (h, s), r.drop.drop)
  | .anchor a :: _ => (some a, none, r.drop)
  | .tag h s :: .anchor a :: _ => (some a, some (h, s), r.drop.drop)
  | .tag h s :: _ => (none, some (h, s), r.drop)
  | _ => (none, none, r)

/-- The full text of a tag. -/
def fullTag (r : Reading) : Option (Option String × String) → Result (Option String)
  | none => .ok none
  | some (none, suffix) => .ok (some suffix)
  | some (some handle, suffix) => match r.handles.lookup handle with
    | some lead => .ok (some (lead ++ suffix))
    | none => .error .malformed

/-- Opens the anchor of a node, which no other node may have. -/
def openAnchor (r : Reading) : Option String → Result Reading
  | none => .ok r
  | some a =>
    if (r.anchors.lookup a).isSome || r.opened.contains a then .error .malformed
    else .ok { r with opened := a :: r.opened }

/-- Closes the anchor of a node that has been read. -/
def closeAnchor (r : Reading) (n : Node) : Option String → Reading
  | none => r
  | some a => { r with opened := r.opened.filter (· != a), anchors := (a, n) :: r.anchors }

def scalarKind (tag : Option String) (text : String) (plain : Bool) : Kind :=
  match tag with
  | none => if plain then .ofPlain text else .text
  | some "!" => .ofPlain text
  | some t => .ofTag t

def collectionKind (tag : Option String) (default : Kind) : Kind :=
  match tag with
  | none | some "!" => default
  | some t => .ofTag t

mutual
/-- One node; a block sequence that is not indented may stand only where `loose` says so. -/
def node : Nat → Bool → Bool → Reading → Result (Node × Reading)
  | 0, _, _, _ => .error .malformed
  | fuel + 1, block, loose, r => do
    match r.head with
    | .alias name =>
      match r.anchors.lookup name with
      | some n => return (n, r.drop)
      | none => if r.opened.contains name then return (.cycle name, r.drop) else .error .malformed
    | _ =>
      let (anchor, written, r) := r.properties
      let tag ← r.fullTag written
      let r ← r.openAnchor anchor
      let close (n : Node) (r : Reading) : Node × Reading := (n, r.closeAnchor n anchor)
      let seq (items : List Node) : Node := .seq (collectionKind tag .seq) items
      match r.head, block with
      | .blockEntry, _ =>
        if loose then
          let (items, r) ← looseItems fuel r []
          return close (seq items) r
        else if anchor.isSome || tag.isSome then return close (.scalar (scalarKind tag "" true) "") r
        else .error .malformed
      | .scalar text plain, _ => return close (.scalar (scalarKind tag text plain) text) r.drop
      | .flowSequenceStart, _ =>
        let (items, r) ← flowItems fuel true r.drop []
        return close (seq items) r
      | .flowMappingStart, _ =>
        let (entries, r) ← flowEntries fuel true r.drop []
        return close (← Node.ofEntries anchor (collectionKind tag .map) entries) r
      | .blockSequenceStart, true =>
        let (items, r) ← blockItems fuel r.drop []
        return close (seq items) r
      | .blockMappingStart, true =>
        let (entries, r) ← blockEntries fuel r.drop []
        return close (← Node.ofEntries anchor (collectionKind tag .map) entries) r
      | _, _ =>
        if anchor.isSome || tag.isSome then return close (.scalar (scalarKind tag "" true) "") r
        else .error .malformed

/-- The items of an indented block sequence. -/
def blockItems : Nat → Reading → List Node → Result (List Node × Reading)
  | 0, _, _ => .error .malformed
  | fuel + 1, r, items => match r.head with
    | .blockEntry =>
      let r := r.drop
      match r.head with
      | .blockEntry | .blockEnd => blockItems fuel r (items ++ [.absent])
      | _ => do
        let (n, r) ← node fuel true false r
        blockItems fuel r (items ++ [n])
    | .blockEnd => .ok (items, r.drop)
    | _ => .error .malformed

/-- The items of a block sequence at the indentation of its mapping. -/
def looseItems : Nat → Reading → List Node → Result (List Node × Reading)
  | 0, _, _ => .error .malformed
  | fuel + 1, r, items => match r.head with
    | .blockEntry =>
      let r := r.drop
      match r.head with
      | .blockEntry | .key | .value | .blockEnd => looseItems fuel r (items ++ [.absent])
      | _ => do
        let (n, r) ← node fuel true false r
        looseItems fuel r (items ++ [n])
    | _ => .ok (items, r)

/-- The members of a block mapping. -/
def blockEntries : Nat → Reading → List (Node × Node) → Result (List (Node × Node) × Reading)
  | 0, _, _ => .error .malformed
  | fuel + 1, r, entries => match r.head with
    | .key => do
      let (k, r) ← blockPart fuel r.drop
      match r.head with
      | .value =>
        let (v, r) ← blockPart fuel r.drop
        blockEntries fuel r (entries ++ [(k, v)])
      | _ => blockEntries fuel r (entries ++ [(k, .absent)])
    | .blockEnd => .ok (entries, r.drop)
    | _ => .error .malformed

/-- A key or a value of a block mapping, which may be left out. -/
def blockPart : Nat → Reading → Result (Node × Reading)
  | 0, _ => .error .malformed
  | fuel + 1, r => match r.head with
    | .key | .value | .blockEnd => .ok (.absent, r)
    | _ => node fuel true true r

/-- The items of a flow sequence; a key among them begins a mapping of one member. -/
def flowItems : Nat → Bool → Reading → List Node → Result (List Node × Reading)
  | 0, _, _, _ => .error .malformed
  | fuel + 1, first, r, items => do
    if r.head = .flowSequenceEnd then return (items, r.drop)
    let r ← if first then pure r else if r.head = .flowEntry then pure r.drop else .error .malformed
    match r.head with
    | .flowSequenceEnd => return (items, r.drop)
    | .key =>
      let (entry, r) ← flowEntry fuel .flowSequenceEnd r.drop
      let n ← Node.ofEntries none .map [entry]
      flowItems fuel false r (items ++ [n])
    | _ =>
      let (n, r) ← node fuel false false r
      flowItems fuel false r (items ++ [n])

/-- The members of a flow mapping; one without a colon has no value. -/
def flowEntries : Nat → Bool → Reading → List (Node × Node) → Result (List (Node × Node) × Reading)
  | 0, _, _, _ => .error .malformed
  | fuel + 1, first, r, entries => do
    if r.head = .flowMappingEnd then return (entries, r.drop)
    let r ← if first then pure r else if r.head = .flowEntry then pure r.drop else .error .malformed
    match r.head with
    | .flowMappingEnd => return (entries, r.drop)
    | .key =>
      let (entry, r) ← flowEntry fuel .flowMappingEnd r.drop
      flowEntries fuel false r (entries ++ [entry])
    | _ =>
      let (k, r) ← node fuel false false r
      flowEntries fuel false r (entries ++ [(k, .absent)])

/-- A key and its value up to a comma or the given end; either may be left out. -/
def flowEntry : Nat → Token → Reading → Result ((Node × Node) × Reading)
  | 0, _, _ => .error .malformed
  | fuel + 1, last, r => do
    let (k, r) ← flowPart fuel last r
    match r.head with
    | .value =>
      let r := r.drop
      if r.head = .flowEntry ∨ r.head = last then return ((k, .absent), r)
      let (v, r) ← node fuel false false r
      return ((k, v), r)
    | _ => return ((k, .absent), r)

/-- A key of a flow mapping, which may be left out. -/
def flowPart : Nat → Token → Reading → Result (Node × Reading)
  | 0, _, _ => .error .malformed
  | fuel + 1, last, r =>
    if r.head = .value ∨ r.head = .flowEntry ∨ r.head = last then .ok (.absent, r)
    else node fuel false false r
end

/-- The directives in front of a document: at most one version, of the first major, and each handle
once. -/
def directives : Nat → Bool → List (String × String) → Reading → Result (List (String × String) × Reading)
  | 0, _, _, _ => .error .malformed
  | fuel + 1, versioned, handles, r => match r.head with
    | .version major =>
      if versioned || major != 1 then .error .malformed else directives fuel true handles r.drop
    | .shorthand handle lead =>
      if (handles.lookup handle).isSome then .error .malformed
      else directives fuel versioned (handles ++ [(handle, lead)]) r.drop
    | .otherDirective => directives fuel versioned handles r.drop
    | _ => .ok (handles, r)

end Reading

/-- The handles that every document has. -/
def commonHandles : List (String × String) := [("!", "!"), ("!!", coreLead)]

/-- Whether a document begins with directives or with its mark. -/
def beginsDocument : Token → Bool
  | .version _ | .shorthand _ _ | .otherDirective | .documentStart => true
  | _ => false

/-- The only document of the tokens; there may be none. -/
def Node.ofTokens? (tokens : List Token) : Result (Option Node) := do
  let fuel := 3 * tokens.length + 3
  let r : Reading := { tokens := tokens, handles := commonHandles }
  let finish (n : Node) (r : Reading) : Result (Option Node) :=
    match r.tokens.dropWhile (· == .documentEnd) with
    | .streamEnd :: _ => .ok (some n)
    | _ => .error .malformed
  if r.head = .streamEnd then return none
  if beginsDocument r.head then
    let (handles, r) ← r.directives fuel false []
    if r.head ≠ .documentStart then .error .malformed
    let r := { r.drop with handles := handles ++ commonHandles }
    if beginsDocument r.head || r.head = .documentEnd || r.head = .streamEnd then finish .absent r
    else
      let (n, r) ← r.node fuel true false
      finish n r
  else
    let (n, r) ← r.node fuel true false
    finish n r

end PoolFeed.Yaml
