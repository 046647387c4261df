import ChangePairs.Path
import ChangePairs.Settings.Conversion
import ChangePairs.Text.LowerCase

/-!
The file extensions that are learned from.  They may be given as a list or as one text, in which
commas and blanks separate them; either way an extension is compared in lower case and with its
dot, which the setting may leave out.
-/

namespace ChangePairs
namespace Extension

def standard : List Text := [".js".toList, ".jsx".toList, ".ts".toList, ".tsx".toList]

/-- One extension as it is compared, or `none` if nothing is left of it. -/
def normal? (t : Text) : Option Text :=
  match Text.lower (Text.trim t) with
  | [] => none
  | '.' :: rest => some ('.' :: rest)
  | e => some ('.' :: e)

def split (t : Text) : List Text := Text.words (t.map fun c => if c = ',' then ' ' else c)

/-- The extensions of a setting.  Anything but a text and a list leaves the standard ones. -/
def ofSetting : Option Value → Except ConversionError (List Text)
  | some (.scalar (.text t)) => .ok ((split t).filterMap normal?)
  | some (.list items) => do return (← items.mapM Value.toText).filterMap normal?
  | _ => .ok standard

end Extension
end ChangePairs
