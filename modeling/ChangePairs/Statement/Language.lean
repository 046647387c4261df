import ChangePairs.Path
import ChangePairs.Text.LowerCase

/-!
The languages whose files can be taken apart into statements.  A file's language is known by its
extension, and the grammar of a language by the package that provides it and the function of
that package that makes it.
-/

namespace ChangePairs

inductive Language where
  | python
  | javascript
  | typescript
  | tsx
  | java
  | c
  | cpp
  | go
  | rust
  | ruby
  | php
  | cSharp
deriving DecidableEq, Repr

namespace Language

def all : List Language :=
  [python, javascript, typescript, tsx, java, c, cpp, go, rust, ruby, php, cSharp]

def name : Language → Text
  | python => "python".toList
  | javascript => "javascript".toList
  | typescript => "typescript".toList
  | tsx => "tsx".toList
  | java => "java".toList
  | c => "c".toList
  | cpp => "cpp".toList
  | go => "go".toList
  | rust => "rust".toList
  | ruby => "ruby".toList
  | php => "php".toList
  | cSharp => "c_sharp".toList

def ofName? (t : Text) : Option Language := all.find? fun l => l.name = t

def extensions : Language → List Text
  | python => [".py".toList]
  | javascript => [".js".toList, ".mjs".toList, ".cjs".toList, ".jsx".toList]
  | typescript => [".ts".toList, ".mts".toList, ".cts".toList]
  | tsx => [".tsx".toList]
  | java => [".java".toList]
  | c => [".c".toList, ".h".toList]
  | cpp => [".cpp".toList, ".cc".toList, ".cxx".toList, ".hpp".toList]
  | go => [".go".toList]
  | rust => [".rs".toList]
  | ruby => [".rb".toList]
  | php => [".php".toList]
  | cSharp => [".cs".toList]

def ofPath? (p : Path) : Option Language :=
  let extension := Text.lower (Path.extension p)
  all.find? fun l => l.extensions.contains extension

/-- The package that provides the grammar.  Two languages share one. -/
def package : Language → Text
  | tsx => "tree_sitter_typescript".toList
  | l => "tree_sitter_".toList ++ l.name

def entry : Language → Text
  | typescript => "language_typescript".toList
  | tsx => "language_tsx".toList
  | php => "language_php".toList
  | _ => "language".toList

end Language
end ChangePairs
