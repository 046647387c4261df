import ChangePairs.Yaml.Node
import ChangePairs.Yaml.Token

/-!
Which tokens make up a node, and which nodes make up a document.  Every node may have a tag and an
anchor, under which an alias finds it from then on.  Where a node may be left out, an empty scalar
stands for it.
-/

namespace ChangePairs
namespace Yaml

structure Properties where
  anchor : Option Text
  /-- The tag in full. -/
  tag : Option Text
deriving DecidableEq, Repr

def Properties.isNone (p : Properties) : Bool := p.anchor.isNone && p.tag.isNone

structure Progress where
  tokens : List Token
  /-- The nodes that have an anchor, the latest first.  A collection that is not complete is known
  as one around what is read. -/
  anchors : List (Text × Node)

namespace Grammar

abbrev Handles := List (Text × Text)

def standardHandles : Handles :=
  [(['!'], ['!']), (['!', '!'], "tag:yaml.org,2002:".toList)]

abbrev Reading := StateT Progress (Except Fault)

/-! ## Tokens -/

/-- The token that comes next, or `none` at the end. -/
def next : Reading (Option Token) := do
  match (← get).tokens with
  | [] => return none
  | .fault f :: _ => throw f
  | t :: _ => return some t

def skip : Reading Unit := modify fun p => { p with tokens := p.tokens.drop 1 }

def takes (t : Token) : Reading Bool := do
  if (← next) = some t then
    skip
    return true
  else return false

def expect (t : Token) : Reading Unit := do
  if !(← takes t) then throw .malformed

def isNext (tokens : List Token) : Reading Bool := do
  return (← next).any tokens.contains

/-! ## Anchors and tags -/

def named (name : Text) : Reading Node := do
  match (← get).anchors.find? fun a => a.1 = name with
  | some (_, node) => return node
  | none => throw .malformed

/-- Makes sure that an anchor is not in use. -/
def reserve (anchor : Option Text) : Reading Unit := do
  if (← get).anchors.any fun a => some a.1 = anchor then throw .malformed

def settle (anchor : Option Text) (node : Node) : Reading Node := do
  match anchor with
  | none => return node
  | some name =>
    modify fun p => { p with anchors := (name, node) :: p.anchors }
    return node

/-- A node without parts under its anchor. -/
def single (anchor : Option Text) (node : Node) : Reading Node := do
  reserve anchor
  settle anchor node

/-- A collection under its anchor, which stands for a collection around its parts while they are
read. -/
def around (anchor : Option Text) (isList : Bool) (read : Reading Node) : Reading Node := do
  reserve anchor
  let _ ← settle anchor (.enclosing isList)
  settle anchor (← read)

def fullTag (handles : Handles) : TagName → Reading Text
  | .verbatim t => return t
  | .shorthand handle suffix =>
    match handles.find? fun h => h.1 = handle with
    | some (_, uri) => return uri ++ suffix
    | none => throw .malformed

def takeAnchor : Reading (Option Text) := do
  match ← next with
  | some (.anchor name) =>
    skip
    return some name
  | _ => return none

def takeTag : Reading (Option TagName) := do
  match ← next with
  | some (.tag t) =>
    skip
    return some t
  | _ => return none

def takeProperties (handles : Handles) : Reading Properties := do
  let first ← takeAnchor
  let tag ← takeTag
  let anchor ← if first.isNone && tag.isSome then takeAnchor else pure first
  match tag with
  | some t => return ⟨anchor, some (← fullTag handles t)⟩
  | none => return ⟨anchor, none⟩

/-! ## Nodes -/

def scalar (p : Properties) (t : Text) (plain : Bool) : Reading Node :=
  single p.anchor (.scalar (Kind.ofScalar p.tag t plain) t)

def list (p : Properties) (items : Reading (List Node)) : Reading Node :=
  around p.anchor true do return .ofItems (Kind.ofCollection .list p.tag) (← items)

def mapping (p : Properties) (entries : Reading (List (Node × Node))) : Reading Node :=
  around p.anchor false do return .ofEntries (Kind.ofCollection .mapping p.tag) (← entries)

mutual

/-- The node that begins here.  `block` tells whether a collection in block style may, and `flush`
whether a block list may do without an indentation of its own. -/
def node (handles : Handles) : Nat → Bool → Bool → Reading Node
  | 0, _, _ => throw .malformed
  | fuel + 1, block, flush => do
    match ← next with
    | some (.alias name) =>
      skip
      named name
    | _ =>
      let p ← takeProperties handles
      match ← next, block, flush with
      | some .blockItem, _, true => list p (flushItems handles fuel)
      | some (.scalar t plain), _, _ =>
        skip
        scalar p t plain
      | some .flowListStart, _, _ =>
        skip
        list p (flowItems handles fuel true)
      | some .flowMappingStart, _, _ =>
        skip
        mapping p (flowEntries handles fuel true)
      | some .blockListStart, true, _ =>
        skip
        list p (items handles fuel)
      | some .blockMappingStart, true, _ =>
        skip
        mapping p (entries handles fuel)
      | _, _, _ => if p.isNone then throw .malformed else scalar p [] true

/-- The node that begins here, unless one of the tokens does. -/
def nodeUnless (handles : Handles) : Nat → List Token → Bool → Bool → Reading Node
  | 0, _, _, _ => throw .malformed
  | fuel + 1, tokens, block, flush => do
    if ← isNext tokens then return .absent else node handles fuel block flush

/-- The value of an entry, which may be left out with its colon. -/
def value (handles : Handles) : Nat → List Token → Bool → Bool → Reading Node
  | 0, _, _, _ => throw .malformed
  | fuel + 1, tokens, block, flush => do
    if ← takes .value then nodeUnless handles fuel tokens block flush else return .absent

def items (handles : Handles) : Nat → Reading (List Node)
  | 0 => throw .malformed
  | fuel + 1 => do
    if ← takes .blockItem then
      let item ← nodeUnless handles fuel [.blockItem, .blockEnd] true false
      return item :: (← items handles fuel)
    else
      expect .blockEnd
      return []

def flushItems (handles : Handles) : Nat → Reading (List Node)
  | 0 => throw .malformed
  | fuel + 1 => do
    if ← takes .blockItem then
      let item ← nodeUnless handles fuel [.blockItem, .key, .value, .blockEnd] true false
      return item :: (← flushItems handles fuel)
    else return []

def entries (handles : Handles) : Nat → Reading (List (Node × Node))
  | 0 => throw .malformed
  | fuel + 1 => do
    if ← takes .key then
      let ends := [.key, .value, .blockEnd]
      let k ← nodeUnless handles fuel ends true true
      let v ← value handles fuel ends true true
      return (k, v) :: (← entries handles fuel)
    else
      expect .blockEnd
      return []

/-- The items of a list in brackets.  An item with a colon is a mapping of one entry. -/
def flowItems (handles : Handles) : Nat → Bool → Reading (List Node)
  | 0, _ => throw .malformed
  | fuel + 1, first => do
    if ← takes .flowListEnd then return []
    else
      if !first then expect .flowItem
      if ← takes .flowListEnd then return []
      else if ← takes .key then
        let k ← nodeUnless handles fuel [.value, .flowItem, .flowListEnd] false false
        let v ← value handles fuel [.flowItem, .flowListEnd] false false
        return .ofEntries .mapping [(k, v)] :: (← flowItems handles fuel false)
      else
        let item ← node handles fuel false false
        return item :: (← flowItems handles fuel false)

/-- The entries of a mapping in braces.  A node without a colon is a key without a value. -/
def flowEntries (handles : Handles) : Nat → Bool → Reading (List (Node × Node))
  | 0, _ => throw .malformed
  | fuel + 1, first => do
    if ← takes .flowMappingEnd then return []
    else
      if !first then expect .flowItem
      if ← takes .flowMappingEnd then return []
      else if ← takes .key then
        let k ← nodeUnless handles fuel [.value, .flowItem, .flowMappingEnd] false false
        let v ← value handles fuel [.flowItem, .flowMappingEnd] false false
        return (k, v) :: (← flowEntries handles fuel false)
      else
        let k ← node handles fuel false false
        return (k, .absent) :: (← flowEntries handles fuel false)

end

/-! ## Documents -/

/-- The directives in front of a document: whether the version is given, and the handles. -/
def directives : Nat → Bool → Handles → Reading Handles
  | 0, _, _ => throw .malformed
  | fuel + 1, versioned, handles => do
    match ← next with
    | some (.directive (.version major)) =>
      if versioned || major ≠ 1 then throw .malformed
      skip
      directives fuel true handles
    | some (.directive (.tagPrefix handle uri)) =>
      if handles.any fun h => h.1 = handle then throw .malformed
      skip
      directives fuel versioned ((handle, uri) :: handles)
    | some (.directive .unknown) =>
      skip
      directives fuel versioned handles
    | _ => return handles ++ standardHandles

def isBoundary : Token → Bool
  | .directive _ | .documentStart | .documentEnd => true
  | _ => false

/-- The root node of a document, or `none` if there is no document. -/
def document (fuel : Nat) : Reading (Option Node) := do
  match ← next with
  | none => return none
  | some t =>
    if isBoundary t then
      let handles ← directives fuel false []
      expect .documentStart
      match ← next with
      | none => return some .absent
      | some t =>
        if isBoundary t then return some .absent
        else return some (← node handles fuel true false)
    else return some (← node standardHandles fuel true false)

/-- The root node of the only document, or `none` if there is none. -/
def onlyDocument (fuel : Nat) : Reading (Option Node) := do
  let root ← document fuel
  modify fun p => { p with tokens := p.tokens.dropWhile (· = .documentEnd) }
  if (← next).isSome then throw .malformed
  return root

end Grammar

/-- The root node of the only document that tokens make up, or `none` if there is none. -/
def Node.ofTokens (tokens : List Token) : Except Fault (Option Node) :=
  (Grammar.onlyDocument (4 * tokens.length + 4)).run' ⟨tokens, []⟩

end Yaml
end ChangePairs
