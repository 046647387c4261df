import ChangePairs.Session.Target
import ChangePairs.StudioLink
import ChangePairs.Submission

/-!
Learning from the files of a workspace: the files are chosen, reduced to one request, and the
request is submitted if that is wanted.  What goes wrong on the way is part of the result, and so
is the request as soon as there is one.  Only a number with too many digits in a diff, and a
pause too long to be expressed, interrupt the whole.
-/

namespace ChangePairs

/-- What a caller asks for.  A name that is missing or empty, a number of workers that is missing
or zero, and a client that is missing is taken from the settings. -/
structure LearnOptions where
  targets : List Path
  strategy : Option Text
  matching : Option Text
  workers : Option Int
  submit : Bool
  client : Option Client := none

inductive LearnError where
  | target (e : TargetError)
  | plan (e : PlanError)
  | nothing (e : NothingToLearn)
  | submission (e : SubmissionError)
deriving DecidableEq, Repr

def LearnError.message : LearnError → Text
  | .target e => e.message
  | .plan e => e.message
  | .nothing e => e.message
  | .submission e => e.message

inductive Conclusion where
  | failed (e : LearnError)
  /-- The request was only made. -/
  | prepared
  /-- The request was submitted; the link is missing if the address of the studio is not valid. -/
  | submitted (stored : StoredDiff) (link : Option Text)
deriving DecidableEq, Repr

structure LearnResult where
  request : Option LearningRequest
  diagnostics : List Diagnostic
  conclusion : Conclusion
deriving DecidableEq, Repr

namespace LearnResult

def success (r : LearnResult) : Bool :=
  match r.conclusion with
  | .failed _ => false
  | _ => true

def error (r : LearnResult) : Text :=
  match r.conclusion with
  | .failed e => e.message
  | _ => []

/-- Where the request is stored, empty unless it was submitted. -/
def diffId (r : LearnResult) : Text :=
  match r.conclusion with
  | .submitted stored _ => stored.id
  | _ => []

/-- The initialization vector of the stored request, empty unless it was submitted. -/
def iv (r : LearnResult) : Text :=
  match r.conclusion with
  | .submitted stored _ => stored.iv
  | _ => []

def link (r : LearnResult) : Option Text :=
  match r.conclusion with
  | .submitted _ link => link
  | _ => none

def early (e : LearnError) : LearnResult := ⟨none, [], .failed e⟩

end LearnResult

inductive Interruption where
  | digitLimit (e : DigitLimitExceeded)
  | pause (e : PauseOverflow)
deriving DecidableEq, Repr

def Interruption.message : Interruption → Text
  | .digitLimit e => e.message
  | .pause e => e.message

namespace LearnOptions

/-- A name of the options, or else the one of the settings. -/
def nameOr (settings : Text) : Option Text → Text
  | some (c :: name) => c :: name
  | _ => settings

def numberOr (settings : Int) : Option Int → Int
  | some n => if n = 0 then settings else n
  | none => settings

def plan (o : LearnOptions) (s : Settings) : Except PlanError Plan :=
  Plan.ofNames (nameOr s.strategy o.strategy) (nameOr s.matching o.matching)
    (numberOr s.maxWorkers o.workers)

end LearnOptions

namespace Session

variable {m : Type → Type} [Monad m]

def client (s : Settings) : Client :=
  ⟨s.learnApiUrl, .real s.requestTimeout, s.maxRetries, .real s.retryDelay⟩

def clientOr (s : Settings) (o : LearnOptions) : Client := o.client.getD (client s)

def conclusion (s : Settings) : Except SubmissionError StoredDiff → Conclusion
  | .error e => .failed (.submission e)
  | .ok stored => .submitted stored (studioLink? s.studioUrl ⟨s.engine, stored.id, stored.iv⟩)

def deliver (service : Service m) (s : Settings) (o : LearnOptions) (c : Collection) :
    m (Except Interruption LearnResult) := do
  match c.request with
  | .error e => return .ok ⟨none, c.diagnostics, .failed (.nothing e)⟩
  | .ok request =>
    if o.submit then
      return (← (clientOr s o).submit service request).mapError .pause |>.map fun answer =>
        ⟨some request, c.diagnostics, conclusion s answer⟩
    else return .ok ⟨some request, c.diagnostics, .prepared⟩

def learn (w : Workspace m) (service : Service m) (s : Settings) (o : LearnOptions) :
    m (Except Interruption LearnResult) := do
  match ← resolve w s o.targets with
  | .error e => return .ok (.early (.target e))
  | .ok paths =>
    match o.plan s with
    | .error e => return .ok (.early (.plan e))
    | .ok plan =>
      match ← Reduction.run w.source plan paths with
      | .error limit => return .error (.digitLimit limit)
      | .ok collection => deliver service s o collection

end Session
end ChangePairs
