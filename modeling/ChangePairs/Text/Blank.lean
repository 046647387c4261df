import ChangePairs.Text.RangeTable

/-!
White space.  A character is blank when it separates words or paragraphs in any script: the
Unicode white space property together with the four information separators U+001C to U+001F.
The zero width space, the word joiner and the byte order mark are not blank.
-/

namespace ChangePairs
namespace Text

/-- The blank code points: 29 characters in 11 ranges. -/
def blankTable : RangeTable :=
  [(0x9, 0xD), (0x1C, 0x20), (0x85, 0x85), (0xA0, 0xA0), (0x1680, 0x1680), (0x2000, 0x200A),
   (0x2028, 0x2029), (0x202F, 0x202F), (0x205F, 0x205F), (0x3000, 0x3000)]

def isBlank (c : Char) : Bool := blankTable.covers c.toNat

/-- Whether the text has no character but blanks. -/
def allBlank (t : Text) : Bool := t.all isBlank

def trimStart (t : Text) : Text := t.dropWhile isBlank

def trimEnd (t : Text) : Text := dropEnd isBlank t

def trim (t : Text) : Text := trimEnd (trimStart t)

def words : Text → List Text
  | [] => []
  | c :: rest =>
    if isBlank c then words rest
    else match rest with
      | [] => [[c]]
      | d :: _ =>
        if isBlank d then [c] :: words rest
        else match words rest with
          | [] => [[c]]
          | word :: more => (c :: word) :: more

end Text
end ChangePairs
