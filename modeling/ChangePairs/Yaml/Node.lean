import ChangePairs.Settings.Value
import ChangePairs.Yaml.Kind.Value

/-!
The nodes of a YAML document and what they stand for.  An alias is the node that it names, and so
parts of a document may be shared; what a collection stands for is found when its node is made, and
kept with it.

A document is taken level by level, the parts of a collection after all that stands on its own
level: of several faults the one that comes first in that order counts.  A key comes before its
value, and one that is a collection is refused before anything is known of its parts.
-/

namespace ChangePairs
namespace Yaml

structure Content where
  /-- The value, if there are no faults. -/
  value : Value
  /-- The first fault on the level of the node and on each level below it. -/
  faults : List (Option Fault)
  /-- Whether it is the one NaN that has a name of its own.  Any other is a key like no other. -/
  isNamedNaN : Bool := false

inductive Node where
  | scalar (kind : Kind) (t : Text)
  | list (kind : Kind) (items : List Node) (content : Content)
  /-- A mapping with its entries as they are written and with those that are merged into it, if
  they can be. -/
  | mapping (kind : Kind) (entries : List (Node × Node)) (merged : Option (List (Node × Node)))
      (content : Content)
  /-- A list or a mapping inside of itself. -/
  | enclosing (isList : Bool)

namespace Content

def failed (f : Fault) : Content := { value := .scalar .null, faults := [some f] }

/-- The content of a node that is no collection of its kind, which is found out on the level of
its parts. -/
def broken : Content := { value := .scalar .null, faults := [none, some .malformed] }

def ofScalar : Except Fault Scalar → Content
  | .ok s => { value := .scalar s, faults := [] }
  | .error f => failed f

def besides : List (Option Fault) → List (Option Fault) → List (Option Fault)
  | [], b => b
  | a, [] => a
  | x :: a, y :: b => x.or y :: besides a b

def above (parts : List (List (Option Fault))) : List (Option Fault) :=
  none :: parts.foldr besides []

def scalar? (c : Content) : Option Scalar :=
  match c.value with
  | .scalar s => some s
  | _ => none

/-- The first fault of a key, which has to be a scalar. -/
def keyFault (c : Content) : Option Fault :=
  if c.scalar?.isSome then c.faults.findSome? id else some .malformed

def ofItems (items : List Content) : Content where
  value := .list (items.map Content.value)
  faults := above (items.map Content.faults)

def ofPairs (pairs : List (Option (Content × Content))) : Content where
  value := .list (pairs.filterMap fun p => p.map fun (a, b) => .pair a.value b.value)
  faults := above (pairs.map fun
    | some (a, b) => besides a.faults b.faults
    | none => [some .malformed])

/-- The entries whose keys are scalars.  The first one under the named NaN has the value that the
last one gives it, and the others under it are left out. -/
def keyed (nan? : Option Value) : List (Content × Content) → List (Scalar × Value)
  | [] => []
  | (key, c) :: rest =>
    match key.scalar?, key.isNamedNaN with
    | none, _ => keyed nan? rest
    | some s, false => (s, c.value) :: keyed nan? rest
    | some s, true => (nan?.map fun v => (s, v)).toList ++ keyed none rest

def ofEntries (entries : List (Content × Content)) (make : Mapping → Value) : Content where
  value :=
    let nan? := (entries.filter fun e => e.1.isNamedNaN).getLast?
    make (Mapping.ofEntries (keyed (nan?.map fun e => e.2.value) entries))
  faults := above (entries.map fun (key, c) => besides [key.keyFault] c.faults)

def result (c : Content) : Except Fault Value :=
  match c.faults.findSome? id with
  | some f => .error f
  | none => .ok c.value

end Content

namespace Node

def kind : Node → Kind
  | scalar kind _ | list kind .. | mapping kind .. => kind
  | enclosing true => .list
  | enclosing false => .mapping

def scalarContent (kind : Kind) (t : Text) : Content :=
  if kind.isCollection then .broken
  else { Content.ofScalar (kind.read t) with isNamedNaN := kind = .double && isNaNName t }

def content : Node → Content
  | scalar kind t => scalarContent kind t
  | list _ _ c | mapping _ _ _ c => c
  | enclosing isList => { value := .enclosing isList, faults := [] }

def absent : Node := .scalar .null []

def ofItems (kind : Kind) (items : List Node) : Node :=
  .list kind items <|
    match kind with
    | .list => .ofItems (items.map content)
    | .pairs => .ofPairs <| items.map fun
      | .mapping _ [(key, node)] _ _ => some (key.content, node.content)
      | _ => none
    | .set | .mapping => .broken
    | _ => .failed .malformed

/-! ## Mappings -/

/-- A key as the other entries of its mapping see it.  That of a default value is a text. -/
def asKey : Node → Node
  | .scalar .default t => .scalar .text t
  | node => node

/-- The entries of a mapping and those that are merged into it.  A mapping adds nothing to one of
its own parts. -/
def merged? : Node → Option (List (Node × Node))
  | .mapping _ _ merged _ => merged
  | .enclosing _ => some []
  | _ => none

/-- The entries that a merged value adds: those of a mapping, or of a list of mappings, of which
the last one comes first. -/
def added? : Node → Option (List (Node × Node))
  | .list _ items _ => (items.mapM merged?).map fun found => found.reverse.flatten
  | node => node.merged?

/-- The entries of a mapping after those that are merged into it. -/
def withMerged? (entries : List (Node × Node)) : Option (List (Node × Node)) := do
  let (merges, own) := entries.partition fun e => e.1.kind = .merge
  let added ← merges.mapM fun e => e.2.added?
  return added.flatten ++ own.map fun (key, node) => (key.asKey, node)

mutual

/-- The text of a node where a scalar is wanted: that of a mapping is its default value. -/
def default? : Node → Option Text
  | .scalar _ t => some t
  | .mapping _ entries _ _ => defaultAmong? entries
  | _ => none

def defaultAmong? : List (Node × Node) → Option Text
  | [] => none
  | (key, node) :: rest => if key.kind = .default then node.default? else defaultAmong? rest

end

def ofEntries (kind : Kind) (entries : List (Node × Node)) : Node :=
  let merged := withMerged? entries
  let collect (make : Mapping → Value) : Content :=
    match merged with
    | some found => .ofEntries (found.map fun (key, node) => (key.content, node.content)) make
    | none => .broken
  .mapping kind entries merged <|
    match kind with
    | .mapping => collect .mapping
    | .set => collect fun m => .set (m.map Prod.fst)
    | .list | .pairs => .broken
    | kind =>
      match defaultAmong? entries with
      | some t => scalarContent kind t
      | none => .failed .malformed

end Node
end Yaml
end ChangePairs
