import ChangePairs.FileSystem

/-!
Commands as a shell reads them.  A word of safe characters stands for itself, and any other word
is put in single quotes, in which only a single quote needs care: it is written between double
quotes outside them.  So every list of words has a command line that is read back as those words.
-/

namespace ChangePairs
namespace Shell

def isSafe (c : Char) : Bool := c.isAlphanum || "_@%+=:,./-".toList.contains c

def quoteChar (c : Char) : Text := if c = '\'' then ['\'', '"', '\'', '"', '\''] else [c]

def quote (word : Text) : Text :=
  if !word.isEmpty && word.all isSafe then word
  else '\'' :: word.flatMap quoteChar ++ ['\'']

def commandLine (words : List Text) : Text := Text.join [' '] (words.map quote)

end Shell

/-- A command that is to be run, in a directory or in the present one. -/
structure Command where
  line : Text
  directory : Option Path
deriving DecidableEq, Repr

inductive Execution where
  | notStarted (reason : Text)
  | exited (code : Int) (output errors : Octets)

structure Host (m : Type → Type) where
  /-- The present directory. -/
  present : Path
  files : FileSystem m
  run : Command → m Execution

end ChangePairs
