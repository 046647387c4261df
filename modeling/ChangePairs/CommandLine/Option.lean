import ChangePairs.Reduction

/-!
The options of the command line and how an argument is taken for one.  A long option may be cut
short as long as no other begins alike, and may bring its value behind an equals sign; short
options may be written together.  A negative number and an argument with a space in it are words,
unless they spell an option.
-/

namespace ChangePairs
namespace CommandLine

inductive Flag where
  | help
  | strategy
  | matching
  | workers
  | config
  | dryRun
  | noOpen
  | yes
deriving DecidableEq, Repr

namespace Flag

def all : List Flag :=
  [.help, .strategy, .matching, .workers, .config, .dryRun, .noOpen, .yes]

def spellings : Flag → List Text
  | .help => ["-h".toList, "--help".toList]
  | .strategy => ["--strategy".toList]
  | .matching => ["--matching".toList]
  | .workers => ["--workers".toList]
  | .config => ["--config".toList]
  | .dryRun => ["--dry-run".toList]
  | .noOpen => ["--no-open".toList]
  | .yes => ["--yes".toList, "-y".toList]

/-- Whether an option wants a value.  No short one does. -/
def takesValue : Flag → Bool
  | .strategy | .matching | .workers | .config => true
  | .help | .dryRun | .noOpen | .yes => false

def name (f : Flag) : Text := Text.join ['/'] f.spellings

def spelled : List (Text × Flag) := all.flatMap fun f => f.spellings.map fun t => (t, f)

def ofSpelling? (t : Text) : Option Flag := (spelled.find? fun entry => entry.1 = t).map Prod.snd

end Flag

inductive ArgumentError where
  | ambiguous (argument : Text) (spellings : List Text)
  | missingValue (f : Flag)
  | needlessValue (f : Flag) (value : Text)
  | invalidNumber (f : Flag) (value : Text)
  | invalidChoice (f : Flag) (value : Text) (choices : List Text)
  | unrecognized (arguments : List Text)
deriving DecidableEq, Repr

namespace ArgumentError

def about (f : Flag) (message : Text) : Text :=
  "argument ".toList ++ f.name ++ ": ".toList ++ message

def message : ArgumentError → Text
  | .ambiguous argument spellings =>
    "ambiguous option: ".toList ++ argument ++ " could match ".toList ++
      Text.join ", ".toList spellings
  | .missingValue f => about f "expected one argument".toList
  | .needlessValue f value => about f ("ignored explicit argument ".toList ++ Text.quoted value)
  | .invalidNumber f value => about f ("invalid int value: ".toList ++ Text.quoted value)
  | .invalidChoice f value choices =>
    about f ("invalid choice: ".toList ++ Text.quoted value ++ " (choose from ".toList ++
      Text.join ", ".toList (choices.map Text.quoted) ++ [')'])
  | .unrecognized arguments =>
    "unrecognized arguments: ".toList ++ Text.join [' '] arguments

def line (e : ArgumentError) : Text := "codemod-learn: error: ".toList ++ e.message

end ArgumentError

inductive Token where
  /-- The two dashes after which everything is a word. -/
  | separator
  | word (t : Text)
  /-- An option, with the value that is part of the same argument. -/
  | option (f : Flag) (short : Bool) (value : Option Text)
  | unknown (t : Text)
deriving DecidableEq, Repr

namespace Token

def splitValue (t : Text) : Text × Option Text :=
  match t.span (· ≠ '=') with
  | (front, _ :: value) => (front, some value)
  | (front, []) => (front, none)

def isShort (spelling : Text) : Bool := spelling.length = 2

def isNegativeNumber : Text → Bool
  | '-' :: body =>
    let body := Text.chompLine body
    let isDigit (c : Char) : Bool := (Text.digitValue? c).isSome
    match body.dropWhile isDigit with
    | [] => !body.isEmpty
    | '.' :: fraction => !fraction.isEmpty && fraction.all isDigit
    | _ => false
  | _ => false

/-- The spellings that an argument may stand for, each with its option and the value that the
argument brings. -/
def readings (t : Text) : List (Text × Flag × Option Text) :=
  if t.take 2 = ['-', '-'] then
    let (front, value) := splitValue t
    (Flag.spelled.filter fun entry => front.isPrefixOf entry.1).map fun (s, f) => (s, f, value)
  else
    (Flag.spelled.filter fun entry => entry.1 = t.take 2).map fun (s, f) =>
      (s, f, some (t.drop 2))

def ofUnspelled (t : Text) : Except ArgumentError Token :=
  match readings t with
  | [(s, f, value)] => .ok (.option f (isShort s) value)
  | [] => .ok (if isNegativeNumber t || t.contains ' ' then .word t else .unknown t)
  | several => .error (.ambiguous t (several.map fun reading => reading.1))

def ofArgument (t : Text) : Except ArgumentError Token :=
  if t.head? ≠ some '-' || t.length = 1 then .ok (.word t)
  else
    match Flag.ofSpelling? t with
    | some f => .ok (.option f (isShort t) none)
    | none =>
      match splitValue t with
      | (front, some value) =>
        match Flag.ofSpelling? front with
        | some f => .ok (.option f (isShort front) (some value))
        | none => ofUnspelled t
      | (_, none) => ofUnspelled t

def ofArguments : List Text → Except ArgumentError (List Token)
  | [] => .ok []
  | t :: rest =>
    if t = ['-', '-'] then .ok (.separator :: rest.map .word)
    else do return (← ofArgument t) :: (← ofArguments rest)

end Token
end CommandLine
end ChangePairs
