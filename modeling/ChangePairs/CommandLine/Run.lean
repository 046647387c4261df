import ChangePairs.CommandLine.Arguments
import ChangePairs.Console.Selection
import ChangePairs.Session.Learn
import ChangePairs.Settings.Load

/-!
The command line program: it reads its arguments and settings, chooses the files, learns from
them, and shows the snippets or opens the studio.  It ends with an exit code, or is interrupted by
settings that cannot be read, by a number that is too long, or by the end of its input.
-/

namespace ChangePairs
namespace CommandLine

/-- What the program asks of the terminal it runs in. -/
structure Terminal (m : Type → Type) where
  print : Text → m Unit
  /-- Whether somebody is there to answer. -/
  interactive : m Bool
  /-- Lets the user pick files, which ends without a choice if the input ends. -/
  pick : List Path → m (Option (List Path))
  /-- Opens a link in a browser, and tells whether that worked. -/
  browse : Text → m Bool
  /-- Writes a log in a directory from now on. -/
  log : Path → m Unit

structure Machine (m : Type → Type) (ε : Type) where
  files : FileSystem m
  yaml : Yaml.Reader ε
  directories : Directories
  environment : Environment
  workspace : Workspace m
  service : Service m
  terminal : Terminal m

inductive Stop (ε : Type) where
  | settings (e : SettingsError ε)
  | interruption (e : Interruption)
  | endOfInput
deriving DecidableEq, Repr

def Stop.message {ε : Type} (yamlMessage : ε → Text) : Stop ε → Text
  | .settings e => e.message yamlMessage
  | .interruption e => e.message
  | .endOfInput => "EOF when reading a line".toList

inductive Exit where
  | code (n : Nat)
  /-- The arguments were refused, which has the exit code 2. -/
  | usage (e : ArgumentError)
deriving DecidableEq, Repr

def helpText : Text :=
  ("usage: codemod-learn [-h] [--strategy NAME] [--matching NAME] [--workers N]\n" ++
    "                     [--config PATH] [--dry-run] [--no-open] [--yes]\n" ++
    "                     [targets ...]\n").toList

variable {m : Type → Type} [Monad m] {ε : Type}

def fail (t : Terminal m) (message : Text) : m Exit := do
  t.print (Console.error message)
  return .code 1

/-- Lets the user pick among the files, if there is a choice and somebody to make it. -/
def narrow (t : Terminal m) (a : Arguments) (paths : List Path) : m (Option (List Path)) := do
  if paths.length ≤ 1 || !a.targets.isEmpty || a.yes then return some paths
  else if ← t.interactive then t.pick paths
  else return some paths

def showSnippets (t : Terminal m) (r : LearningRequest) : m Unit := do
  for (path, pair) in r.snippets do
    t.print (Console.line (Console.pair pair path))
  t.print (Console.line ("\n  ".toList ++ Text.ofNat r.snippets.length ++
    " snippet pair(s) ready (dry run).".toList))

/-- Shows the link and, unless that is not wanted, opens it. -/
def openStudio (t : Terminal m) (a : Arguments) (link : Text) : m Exit := do
  t.print (Console.info "Learning went successful! Opening the Codemod Studio...\n".toList)
  t.print (Console.line ("  ".toList ++ link))
  if a.noOpen then return .code 0
  else if ← t.browse link then return .code 0
  else fail t "Unexpected error occurred while opening the Codemod Studio.".toList

def report (t : Terminal m) (a : Arguments) (r : LearnResult) : m Exit := do
  for d in r.diagnostics do
    t.print (Console.skipped d)
  match r.request, a.dryRun with
  | some request, true =>
    showSnippets t request
    return .code 0
  | _, _ =>
    if !r.success then fail t r.error
    else
      match r.link with
      | none => fail t "Unexpected error occurred while creating a URL.".toList
      | some link => openStudio t a link

def Arguments.options (a : Arguments) (paths : List Path) : LearnOptions :=
  { targets := paths
    strategy := a.strategy.get?.map Strategy.name
    matching := a.matching.get?.map Matching.name
    workers := a.workers.get?
    submit := !a.dryRun }

def learn (k : Machine m ε) (a : Arguments) (s : Settings) : m (Except (Stop ε) Exit) := do
  match ← Session.resolve k.workspace s a.targets with
  | .error e => return .ok (← fail k.terminal e.message)
  | .ok paths =>
    match ← narrow k.terminal a paths with
    | none => return .error .endOfInput
    | some paths =>
      k.terminal.print (Console.info "Learning \"git diff\" has begun...\n".toList)
      match ← Session.learn k.workspace k.service s (a.options paths) with
      | .error e => return .error (.interruption e)
      | .ok result => return .ok (← report k.terminal a result)

def run (k : Machine m ε) (arguments : List Text) : m (Except (Stop ε) Exit) := do
  match Request.ofArguments arguments with
  | .error e => return .ok (.usage e)
  | .ok .help =>
    k.terminal.print helpText
    return .ok (.code 0)
  | .ok (.learn a) =>
    match ← Settings.load k.yaml k.files k.directories k.environment a.config.get? with
    | .error e => return .error (.settings e)
    | .ok s =>
      k.terminal.log s.logDirectory
      learn k a s

end CommandLine
end ChangePairs
