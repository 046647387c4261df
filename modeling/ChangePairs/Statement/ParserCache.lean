import ChangePairs.Statement.Language

/-!
Parsers are dear to make, so one is made per language and kept.  Making one needs the language's
grammar package and the parsing engine, and the engine may still reject the grammar.  A failure
is not kept: the next call tries again.
-/

namespace ChangePairs

structure Installation where
  /-- The packages that cannot be loaded. -/
  missing : List Text
  /-- Whether the engine accepts a grammar. -/
  accepts : Bool

namespace Installation

def engine : Text := "tree_sitter".toList

def canMake (i : Installation) (l : Language) : Bool :=
  !i.missing.contains l.package && !i.missing.contains engine && i.accepts

end Installation

/-- A parser, numbered in the order of creation from 1 on. -/
structure Parser where
  language : Language
  number : Nat
deriving DecidableEq, Repr

structure ParserCache where
  parsers : List Parser
  /-- The number of parsers that have been made. -/
  created : Nat
deriving DecidableEq, Repr

namespace ParserCache

def empty : ParserCache := ⟨[], 0⟩

def find? (cache : ParserCache) (l : Language) : Option Parser :=
  cache.parsers.find? fun p => p.language = l

/-- The parser for a language, made now if none is kept and one can be made. -/
def parser? (cache : ParserCache) (i : Installation) (l : Language) :
    Option Parser × ParserCache :=
  match cache.find? l with
  | some p => (some p, cache)
  | none =>
    if i.canMake l then
      let p : Parser := ⟨l, cache.created + 1⟩
      (some p, ⟨p :: cache.parsers, cache.created + 1⟩)
    else (none, cache)

/-- The parser for the language of a name.  There is none for a name that no language has. -/
def named? (cache : ParserCache) (i : Installation) (name : Text) :
    Option Parser × ParserCache :=
  match Language.ofName? name with
  | some l => cache.parser? i l
  | none => (none, cache)

def run (cache : ParserCache) : List (Installation × Text) → List (Option Parser)
  | [] => []
  | (i, name) :: rest =>
    let (p, cache) := cache.named? i name
    p :: cache.run rest

end ParserCache
end ChangePairs
