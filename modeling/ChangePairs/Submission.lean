import ChangePairs.Collection
import ChangePairs.Number.Amount
import ChangePairs.Settings.Value

/-!
Submitting a request to the learning service.  An attempt is repeated if the service could not be
reached, was too busy or had a fault of its own, up to a number of attempts and with a pause
between each two of them that doubles every time.  Any other reply is the last.

The service works in any monad, so that replies may be given as a value as well as come over a
network.
-/

namespace ChangePairs

/-- A request as it is sent: the pairs under one key. -/
def LearningRequest.payload (r : LearningRequest) : Value :=
  .mapping [(.text "snippets".toList, .list (r.pairs.map fun p =>
    .mapping [(.text "before".toList, .ofText p.before), (.text "after".toList, .ofText p.after)]))]

structure Post where
  url : Text
  request : LearningRequest
  /-- Seconds that the attempt may take. -/
  timeout : Amount

structure Response where
  status : Int
  text : Text
  /-- The value that the body holds, or why it holds none. -/
  body : Except Text Value

inductive Reply where
  | unreachable (reason : Text)
  | response (r : Response)

structure Service (m : Type → Type) where
  post : Post → m Reply
  /-- Waits for a number of seconds. -/
  pause : Float → m Unit
  /-- A number from 0 up to 1 by which pauses are spread. -/
  spread : m Float

structure Client where
  baseUrl : Text
  timeout : Amount
  maxRetries : Int
  /-- Seconds before the second attempt. -/
  retryDelay : Amount

/-- Where a submitted request is stored, and the initialization vector that decrypts it. -/
structure StoredDiff where
  id : Text
  iv : Text
deriving DecidableEq, Repr

inductive Setback where
  | unreachable (reason : Text)
  | status (code : Int) (url : Text)
deriving DecidableEq, Repr

def Setback.message : Setback → Text
  | .unreachable reason => reason
  | .status code url => "HTTP ".toList ++ Text.ofInt code ++ " from ".toList ++ url

inductive SubmissionError where
  | exhausted (attempts : Nat) (last : Setback)
  | rejected (code : Int) (text : Text)
  | malformedBody (reason : Text)
  | unexpectedBody
  | incompleteBody
deriving DecidableEq, Repr

def SubmissionError.message : SubmissionError → Text
  | .exhausted attempts last =>
    "Learning service failed after ".toList ++ Text.ofNat attempts ++ " attempts: ".toList ++
      last.message
  | .rejected code text =>
    "Learning service rejected the request (HTTP ".toList ++ Text.ofInt code ++ "): ".toList ++
      text.take 200
  | .malformedBody reason => "Invalid JSON from learning service: ".toList ++ reason
  | .unexpectedBody => "Unexpected response from learning service".toList
  | .incompleteBody => "Learning service response lacks id/iv".toList

/-- A pause is too long to be given in seconds as a double. -/
structure PauseOverflow where
deriving DecidableEq, Repr

def PauseOverflow.message (_ : PauseOverflow) : Text := "int too large to convert to float".toList

inductive Verdict where
  /-- Another attempt, after twice the usual pause if the service asked for fewer requests. -/
  | again (setback : Setback) (slower : Bool)
  | final (result : Except SubmissionError StoredDiff)

namespace Response

def tooManyRequests : Int := 429

def isTransient (r : Response) : Bool := r.status = tooManyRequests || 500 ≤ r.status

def stored (r : Response) : Except SubmissionError StoredDiff :=
  match r.body with
  | .error reason => .error (.malformedBody reason)
  | .ok (.mapping m) =>
    match Mapping.get? "id".toList m, Mapping.get? "iv".toList m with
    | some (.scalar (.text (c :: id))), some (.scalar (.text iv)) => .ok ⟨c :: id, iv⟩
    | _, _ => .error .incompleteBody
  | .ok _ => .error .unexpectedBody

end Response

namespace Reply

def verdict (url : Text) : Reply → Verdict
  | .unreachable reason => .again (.unreachable reason) false
  | .response r =>
    if r.isTransient then .again (.status r.status url) (r.status = Response.tooManyRequests)
    else if 400 ≤ r.status then .final (.error (.rejected r.status r.text))
    else .final r.stored

end Reply

namespace Client

def url (c : Client) : Text := Text.dropEnd (· = '/') c.baseUrl ++ "/diffs".toList

def attempts (c : Client) : Nat := (max 1 c.maxRetries).toNat

/-- The seconds between attempt `k` and the next one. -/
def pauseAfter? (c : Client) (k : Nat) (slower : Bool) (spread : Float) : Option Float := do
  let wait ← c.retryDelay.times? (Nat.pow 2 (k - 1) : Nat)
  let wait ← if slower then wait.times? 2 else some wait
  let seconds ← wait.toDouble?
  return seconds + seconds * 0.1 * spread

def post (c : Client) (request : LearningRequest) : Post := ⟨c.url, request, c.timeout⟩

variable {m : Type → Type} [Monad m]

/-- Sends a post as attempt `k`, which `later` more may follow. -/
def attempt (service : Service m) (c : Client) (post : Post) (k later : Nat) :
    m (Except PauseOverflow (Except SubmissionError StoredDiff)) := do
  match (← service.post post).verdict post.url with
  | .final result => return .ok result
  | .again setback slower =>
    match later with
    | 0 => return .ok (.error (.exhausted k setback))
    | later + 1 =>
      match c.pauseAfter? k slower (← service.spread) with
      | none => return .error ⟨⟩
      | some seconds =>
        service.pause seconds
        attempt service c post (k + 1) later
termination_by structural later

def submit (service : Service m) (c : Client) (request : LearningRequest) :
    m (Except PauseOverflow (Except SubmissionError StoredDiff)) :=
  attempt service c (c.post request) 1 (c.attempts - 1)

end Client
end ChangePairs
