import ChangePairs.CommandLine.Option

/-!
The arguments of the command line.  Words name the files to learn from.  They have to stand
together: those that an option separates from the first ones are not recognized, and neither are
unknown options, but all that is recognized is read before that is reported.  The separator is no
word; where it stands as the value of an option, the option has no value.
-/

namespace ChangePairs
namespace CommandLine

inductive Given (α : Type) where
  | absent
  /-- The option without a value. -/
  | empty
  | value (a : α)
deriving DecidableEq, Repr

def Given.get? {α : Type} : Given α → Option α
  | .value a => some a
  | _ => none

structure Arguments where
  targets : List Path
  strategy : Given Strategy
  matching : Given Matching
  workers : Given Int
  config : Given Path
  dryRun : Bool
  noOpen : Bool
  yes : Bool
deriving DecidableEq, Repr

namespace Arguments

def none : Arguments := ⟨[], .absent, .absent, .absent, .absent, false, false, false⟩

def switch (a : Arguments) : Flag → Arguments
  | .dryRun => { a with dryRun := true }
  | .noOpen => { a with noOpen := true }
  | .yes => { a with yes := true }
  | _ => a

def read {α : Type} (reader : Text → Except ArgumentError α) (t : Text) :
    Except ArgumentError (Given α) :=
  if t = ['-', '-'] then .ok .empty else (reader t).map .value

def readChoice {α : Type} (f : Flag) (ofName? : Text → Option α) (choices : List Text) (t : Text) :
    Except ArgumentError α :=
  match ofName? t with
  | some a => .ok a
  | Option.none => .error (.invalidChoice f t choices)

def readNumber (f : Flag) (t : Text) : Except ArgumentError Int :=
  (readInteger t).mapError fun _ => .invalidNumber f t

def assign (a : Arguments) (f : Flag) (t : Text) : Except ArgumentError Arguments :=
  match f with
  | .strategy => do
    let choices := Strategy.all.map Strategy.name
    return { a with strategy := ← read (readChoice f Strategy.ofName? choices) t }
  | .matching => do
    let choices := Matching.all.map Matching.name
    return { a with matching := ← read (readChoice f Matching.ofName? choices) t }
  | .workers => do return { a with workers := ← read (readNumber f) t }
  | .config => do return { a with config := ← read .ok t }
  | _ => .ok (a.switch f)

end Arguments

inductive WordRun where
  | ahead
  | running
  | over
deriving DecidableEq, Repr

structure Reading where
  arguments : Arguments
  run : WordRun
  /-- What was not recognized. -/
  extras : List Text
deriving DecidableEq, Repr

inductive Request where
  | help
  | learn (a : Arguments)
deriving DecidableEq, Repr

namespace Reading

def start : Reading := ⟨.none, .ahead, []⟩

def addExtra (r : Reading) (t : Text) : Reading := { r with extras := r.extras ++ [t] }

def addWord (r : Reading) (t : Text) : Reading :=
  match r.run with
  | .over => r.addExtra t
  | _ => { r with run := .running, arguments.targets := r.arguments.targets ++ [t] }

def addSeparator (r : Reading) : Reading :=
  match r.run with
  | .over => r.addExtra ['-', '-']
  | _ => { r with run := .running }

def endWords (r : Reading) : Reading := if r.run = .running then { r with run := .over } else r

/-- The options of short ones written together: `f`, and one for each letter after it. -/
def together (f : Flag) : Text → Except ArgumentError (List Flag)
  | [] => .ok [f]
  | c :: rest =>
    match Flag.ofSpelling? ['-', c] with
    | some g => do return f :: (← together g rest)
    | none => .error (.needlessValue f (c :: rest))

def switches (f : Flag) (short : Bool) : Option Text → Except ArgumentError (List Flag)
  | none => .ok [f]
  | some [] => .error (.needlessValue f [])
  | some value => if short then together f value else .error (.needlessValue f value)

def switchAll (r : Reading) (flags : List Flag) : Reading :=
  { r with arguments := flags.foldl Arguments.switch r.arguments }

def finish (r : Reading) : Except ArgumentError Request :=
  if r.extras.isEmpty then .ok (.learn r.arguments) else .error (.unrecognized r.extras)

def tokens (r : Reading) : List Token → Except ArgumentError Request
  | [] => r.finish
  | .separator :: rest => tokens r.addSeparator rest
  | .word t :: rest => tokens (r.addWord t) rest
  | .unknown t :: rest => tokens (r.endWords.addExtra t) rest
  | .option f short value :: rest =>
    let r := r.endWords
    if f.takesValue then
      match value, rest with
      | some t, rest => do tokens { r with arguments := ← r.arguments.assign f t } rest
      | none, .word t :: rest => do tokens { r with arguments := ← r.arguments.assign f t } rest
      | none, _ => .error (.missingValue f)
    else do
      let flags ← switches f short value
      if flags.contains .help then .ok .help else tokens (r.switchAll flags) rest

end Reading

def Request.ofArguments (arguments : List Text) : Except ArgumentError Request := do
  Reading.start.tokens (← Token.ofArguments arguments)

end CommandLine
end ChangePairs
