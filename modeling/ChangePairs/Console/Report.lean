import ChangePairs.Snippet
import ChangePairs.Text.Newline

/-!
What is shown on a terminal: notes, errors, diagnostics and snippet pairs.  Colours are set by
the terminal's own codes and reset at the end of what they colour.
-/

namespace ChangePairs
namespace Console

inductive Style where
  | cyan
  | green
  | red
  | yellow
  | dim
  | bold
deriving DecidableEq, Repr

def Style.parameters : Style → Text
  | .cyan => "38;5;81".toList
  | .green => "38;5;114".toList
  | .red => "38;5;203".toList
  | .yellow => "38;5;221".toList
  | .dim => "38;5;243".toList
  | .bold => "1".toList

def code (parameters : Text) : Text := '\x1b' :: '[' :: parameters ++ ['m']

def styled (s : Style) (t : Text) : Text := code s.parameters ++ t ++ code ['0']

def line (t : Text) : Text := t ++ ['\n']

def info (message : Text) : Text := line (styled .cyan message)

def error (message : Text) : Text :=
  line ("  ".toList ++ styled .red "[ERROR]".toList ++ ' ' :: message)

def skipped (d : Diagnostic) : Text :=
  line ("  ".toList ++ styled .yellow "[SKIPPED]".toList ++ ' ' :: d.text)

/-- The lines of a pair under a rule and, if there is one, the name of its source: first the
lines before the change and then those after it. -/
def pairLines (p : SnippetPair) (source : Text) : List Text :=
  styled .bold (List.replicate 60 '─') ::
    (if source.isEmpty then [] else [styled .dim source]) ++
    (Text.displayLines p.before).map (fun l => styled .red ('-' :: l)) ++
    (Text.displayLines p.after).map (fun l => styled .green ('+' :: l))

def pair (p : SnippetPair) (source : Text) : Text := Text.join ['\n'] (pairLines p source)

end Console
end ChangePairs
