import ChangePairs.Settings.Value
import ChangePairs.TextFile

/-!
What is asked of a reader of YAML.  It takes a file some characters at a time and may find it
malformed before it has seen the end, and so before it comes to octets that are no text.
-/

namespace ChangePairs
namespace Yaml

/-- Why a text has no value: it is malformed, or the reader fails for a reason of its own. -/
inductive Refusal (ε : Type) where
  | malformed
  | failed (e : ε)
deriving DecidableEq, Repr

structure Reader (ε : Type) where
  /-- The number of characters that it asks for at a time. -/
  pieceLength : Nat
  /-- How it ends after the start of a text, or `none` if it reads on. -/
  early? : Text → Option (Except (Refusal ε) Value)
  /-- How it ends at the end of a text. -/
  whole : Text → Except (Refusal ε) Value

/-- How a reader ends on a file, unless it comes to the broken character in it. -/
def Reader.read {ε : Type} (yaml : Reader ε) (file : TextFile) :
    Except Octets.Fault (Except (Refusal ε) Value) :=
  match (file.fronts yaml.pieceLength).findSome? yaml.early? with
  | some ending => .ok ending
  | none =>
    match file.fault? with
    | some fault => .error fault
    | none => .ok (yaml.whole file.text)

end Yaml
end ChangePairs
