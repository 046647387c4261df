import ChangePairs.Text.Newline
import ChangePairs.Text.Utf8

/-!
Files that are read as texts.  The octets come in parts, and a part that breaks a character gives
none of its characters, so that what is read before it is the text of the parts in front of it.
Whoever reads the file asks for so many characters at a time, and only a call that goes beyond that
text meets the broken character.
-/

namespace ChangePairs

/-- A text as it is read from a file, up to its end or up to a part with a broken character. -/
structure TextFile where
  text : Text
  fault? : Option Octets.Fault

namespace TextFile

/-- The text without a carriage return at its end, to which a line feed may still come. -/
def withoutReturn (t : Text) : Text := if t.getLast? = some '\r' then t.dropLast else t

/-- The file whose octets come in the given parts. -/
def ofParts (parts : List Octets) : TextFile :=
  match Octets.Decoder.start.parts parts with
  | (t, none) => ⟨Text.unifyNewlines t, none⟩
  | (t, some fault) => ⟨Text.unifyNewlines (withoutReturn t), some fault⟩

/-- What has been read at each call for the next `n` characters.  At the end of the file there is
one call more, which tells that nothing is left. -/
def fronts (n : Nat) (file : TextFile) : List Text :=
  let full := (List.range (file.text.length / n + 1)).map fun k => file.text.take (k * n)
  match file.fault? with
  | none => full ++ [file.text]
  | some _ => full

end TextFile
end ChangePairs
