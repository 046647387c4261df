import ChangePairs.Text.Basic

/-!
Paths with slashes between their components.  A path that starts with a slash is absolute.  Two
slashes at the start are a root of their own, and any other number of them is one.
-/

namespace ChangePairs

abbrev Path := Text

namespace Path

/-- The slashes at the start that normal paths distinguish: none, one, or exactly two. -/
def root (p : Path) : Text :=
  match p with
  | '/' :: '/' :: '/' :: _ => ['/']
  | '/' :: '/' :: _ => ['/', '/']
  | '/' :: _ => ['/']
  | _ => []

/-- One more component on a stack of components, the last one first.  A dot leaves the stack as
it is, and two dots take one component away, if there is one that is not itself two dots; below a
root there is nothing to go up to. -/
def push (rooted : Bool) (stack : List Text) (component : Text) : List Text :=
  if component = [] ∨ component = ['.'] then stack
  else if component ≠ ['.', '.'] ∨ (!rooted ∧ stack = []) ∨ stack.head? = some ['.', '.'] then
    component :: stack
  else stack.drop 1

/-- The path without repeated slashes, dots, and steps up that can be taken. -/
def normalize (p : Path) : Path :=
  let rooted := !(root p).isEmpty
  let stack := (Text.fields '/' p).foldl (push rooted) []
  let result := root p ++ Text.join ['/'] stack.reverse
  if result.isEmpty then ['.'] else result

/-- The path `p` as seen from the directory `base`. -/
def join (base p : Path) : Path :=
  if p.head? = some '/' then p
  else if base.isEmpty ∨ base.getLast? = some '/' then base ++ p
  else base ++ '/' :: p

/-- The normal absolute path of `p` as seen from the directory `cwd`. -/
def absolute (cwd p : Path) : Path := normalize (join cwd p)

/-- The last component, which is empty after a slash at the end. -/
def baseName (p : Path) : Text := (p.reverse.takeWhile (· ≠ '/')).reverse

/-- What stands before the last component, without slashes at its end unless it is nothing but
slashes. -/
def directory (p : Path) : Path :=
  let front := (p.reverse.dropWhile (· ≠ '/')).reverse
  let trimmed := Text.dropEnd (· = '/') front
  if trimmed.isEmpty then front else trimmed

/-- The last component from its last dot on.  Dots at its start begin no extension. -/
def extension (p : Path) : Text :=
  let reversed := (baseName p).reverse
  match reversed.dropWhile (· ≠ '.') with
  | [] => []
  | _ :: stem =>
    if stem.all (· = '.') then [] else '.' :: (reversed.takeWhile (· ≠ '.')).reverse

end Path
end ChangePairs
