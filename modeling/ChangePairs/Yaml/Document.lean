import ChangePairs.Yaml.Grammar
import ChangePairs.Yaml.Layout

/-!
The value of a YAML document.  A text holds one document or none, which has no value.
-/

namespace ChangePairs
namespace Yaml

/-- The value of the document in a text.  A byte order mark in front is no part of it. -/
def read (t : Text) : Except Fault Value := do
  let t := match t with
    | '\ufeff' :: rest => rest
    | _ => t
  if !t.all isAllowed then throw .malformed
  match ← Node.ofTokens (tokens (Stream.ofText t)) with
  | none => return .scalar .null
  | some root => root.content.result

/-- The reader that looks at the characters of a text as they come, and at everything else when
the text is complete. -/
def reader : Reader BadValue where
  pieceLength := 4096
  early? t := if t.all isAllowed then none else some (.error .malformed)
  whole := read

end Yaml
end ChangePairs
