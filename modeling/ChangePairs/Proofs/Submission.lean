import ChangePairs.Submission
import ChangePairs.Proofs.Number.Double
import Mathlib.Data.Stream.Defs

/-!
The attempts of a submission.  A service answers from a script, and what it is asked to do is
written down: posts, with pauses between them.

The main statement is `submit_protocol`.  Every submission stops at one attempt, after one post and
one pause for each attempt before, and the replies behind it are not looked at.  It stops there for
one of three reasons: the reply is final, the attempt is the last one, or the pause that would
follow is too long to be given as a double.  The third one is no failure that is foreseen.  It
takes more than a thousand attempts where the pauses are doubles, as
`not_submit_protocol_patient` shows, and a huge first pause where they are whole numbers.
-/

namespace ChangePairs

/-! ## Replies -/

namespace Reply

/-- The service could not be reached, was asked too often, or has a fault of its own. -/
def IsRetryable : Reply → Prop
  | .unreachable _ => True
  | .response r => r.status = 429 ∨ 500 ≤ r.status

def asksForFewer : Reply → Bool
  | .unreachable _ => false
  | .response r => r.status = 429

def failure (url : Text) : Reply → Text
  | .unreachable reason => reason
  | .response r => "HTTP ".toList ++ Text.ofInt r.status ++ " from ".toList ++ url

def Grants (stored : StoredDiff) : Reply → Prop
  | .unreachable _ => False
  | .response r => r.status < 400 ∧ ∃ entries, r.body = .ok (.mapping entries) ∧
      Mapping.get? "id".toList entries = some (.ofText stored.id) ∧ stored.id ≠ [] ∧
      Mapping.get? "iv".toList entries = some (.ofText stored.iv)

theorem stored_eq_ok_iff (r : Response) (stored : StoredDiff) :
    r.stored = .ok stored ↔ ∃ entries, r.body = .ok (.mapping entries) ∧
      Mapping.get? "id".toList entries = some (.ofText stored.id) ∧ stored.id ≠ [] ∧
      Mapping.get? "iv".toList entries = some (.ofText stored.iv) := by
  constructor
  · intro h
    unfold Response.stored at h
    split at h
    · nomatch h
    · rename_i entries hbody
      split at h
      · rename_i c id iv hid hiv
        obtain rfl := Except.ok.inj h
        exact ⟨entries, hbody, hid, List.cons_ne_nil c id, hiv⟩
      · nomatch h
    · nomatch h
  · rintro ⟨entries, hbody, hid, hne, hiv⟩
    obtain ⟨id, iv⟩ := stored
    cases id with
    | nil => exact absurd rfl hne
    | cons c id =>
      unfold Response.stored
      rw [hbody]
      dsimp only
      rw [hid, hiv]
      rfl

/-- A reply is final, or it asks for another attempt. -/
theorem verdict_cases (url : Text) (reply : Reply) :
    (reply.IsRetryable ∧ ∃ setback, reply.verdict url = .again setback reply.asksForFewer ∧
      setback.message = reply.failure url) ∨
    (¬reply.IsRetryable ∧ ∃ result, reply.verdict url = .final result ∧
      ∀ stored, result = .ok stored ↔ reply.Grants stored) := by
  cases reply with
  | unreachable reason => exact .inl ⟨trivial, .unreachable reason, rfl, rfl⟩
  | response r =>
    have htransient : r.isTransient = true ↔ r.status = 429 ∨ 500 ≤ r.status := by
      unfold Response.isTransient Response.tooManyRequests
      simp
    unfold verdict
    dsimp only
    by_cases h : r.isTransient = true
    · rw [if_pos h]
      exact .inl ⟨htransient.1 h, .status r.status url, rfl, rfl⟩
    · rw [if_neg h]
      refine .inr ⟨fun hretry => h (htransient.2 hretry), ?_⟩
      by_cases hrejected : 400 ≤ r.status
      · rw [if_pos hrejected]
        refine ⟨_, rfl, fun stored => iff_of_false nofun ?_⟩
        rintro ⟨hstatus, -⟩
        omega
      · rw [if_neg hrejected]
        refine ⟨_, rfl, fun stored => ?_⟩
        rw [stored_eq_ok_iff]
        exact (and_iff_right (by omega)).symm

end Reply

/-! ## Pauses -/

/-- The pause after attempt `k`, the first one being attempt 1, is too long for a double.  A pause
that starts as a double gets the power of two as a double, whatever the pause is; a whole number of
seconds stays whole until its double is taken. -/
def Client.IsTooLong (c : Client) (k : Nat) (reply : Reply) : Prop :=
  match c.retryDelay with
  | .real _ => 1024 < k
  | .whole n => Double.overflow ≤
      (n * 2 ^ (k - 1) * if reply.asksForFewer then 2 else 1).natAbs

theorem nearestDouble?_two_pow_eq_none_iff (k : Nat) :
    nearestDouble? (Nat.pow 2 (k - 1) : Nat) = none ↔ 1024 < k := by
  rw [nearestDouble?_eq_none_iff, Int.natAbs_natCast]
  show Double.overflow ≤ 2 ^ (k - 1) ↔ _
  rw [Double.overflow_le_two_pow_iff]
  omega

theorem Client.pauseAfter?_eq_none_iff (c : Client) (k : Nat) (reply : Reply) (spread : Float) :
    c.pauseAfter? k reply.asksForFewer spread = none ↔ c.IsTooLong k reply := by
  unfold pauseAfter? IsTooLong
  cases c.retryDelay with
  | real x =>
    obtain ⟨two, htwo⟩ : ∃ two, nearestDouble? 2 = some two := by
      rw [← Option.ne_none_iff_exists', ne_eq, nearestDouble?_eq_none_iff]
      decide +kernel
    dsimp only
    rw [← nearestDouble?_two_pow_eq_none_iff]
    unfold Amount.times?
    cases nearestDouble? (Nat.pow 2 (k - 1) : Nat) with
    | none => exact iff_of_true rfl rfl
    | some factor =>
      refine iff_of_false ?_ (Option.some_ne_none factor)
      cases reply.asksForFewer with
      | false => exact Option.some_ne_none _
      | true =>
        simp [htwo, Amount.toDouble?]
  | whole n =>
    dsimp only
    rw [← nearestDouble?_eq_none_iff]
    have hcast : ((Nat.pow 2 (k - 1) : Nat) : Int) = 2 ^ (k - 1) := Int.natCast_pow 2 (k - 1)
    have hdouble : ∀ i : Int, (do
        let seconds ← nearestDouble? i
        return seconds + seconds * 0.1 * spread : Option Float) = none ↔
          nearestDouble? i = none := by
      intro i
      cases nearestDouble? i with
      | none => exact iff_of_true rfl rfl
      | some seconds => exact iff_of_false (Option.some_ne_none _) (Option.some_ne_none _)
    rw [← hdouble, ← hcast]
    cases reply.asksForFewer with
    | false =>
      rw [if_neg Bool.false_ne_true, Int.mul_one]
      exact Iff.rfl
    | true => exact Iff.rfl

/-! ## A service with a script -/

inductive Act where
  | post (p : Post)
  | pause (seconds : Float)

/-- The replies and spreads that are still to come, and what was done so far. -/
structure Exchange where
  replies : Stream' Reply
  spreads : Stream' Float
  acts : List Act

namespace Exchange

def service : Service (StateM Exchange) where
  post p := fun s => (s.replies.head, ⟨s.replies.tail, s.spreads, s.acts ++ [.post p]⟩)
  pause seconds := fun s => ((), ⟨s.replies, s.spreads, s.acts ++ [.pause seconds]⟩)
  spread := fun s => (s.spreads.head, ⟨s.replies, s.spreads.tail, s.acts⟩)

/-- What is done up to the last post: the same post again and again, with pauses in between. -/
def actsOf (p : Post) (pauses : List Float) : List Act :=
  pauses.flatMap (fun seconds => [.post p, .pause seconds]) ++ [.post p]

end Exchange

/-- Why a submission stops at an attempt, and with what.  `last` is said of the last attempt that
may be made. -/
inductive Client.StopsAt (c : Client) (attempt : Nat) (last : Prop) (reply : Reply) :
    Except PauseOverflow (Except SubmissionError StoredDiff) → Prop where
  | final {result : Except SubmissionError StoredDiff} (hreply : ¬reply.IsRetryable)
      (hresult : ∀ stored, result = .ok stored ↔ reply.Grants stored) :
      StopsAt c attempt last reply (.ok result)
  | exhausted {e : SubmissionError} (hreply : reply.IsRetryable) (hlast : last)
      (hmessage : e.message = "Learning service failed after ".toList ++ Text.ofNat attempt ++
        " attempts: ".toList ++ reply.failure c.url) :
      StopsAt c attempt last reply (.ok (.error e))
  | tooLong (hreply : reply.IsRetryable) (hlast : ¬last) (hpause : c.IsTooLong attempt reply) :
      StopsAt c attempt last reply (.error ⟨⟩)

def Client.GoesOn (c : Client) (attempt : Nat) (reply : Reply) : Prop :=
  reply.IsRetryable ∧ ¬c.IsTooLong attempt reply

section

variable {c : Client} {p : Post}

/-- One attempt: the submission stops, or it pauses and makes the next one. -/
theorem Client.run_attempt (hurl : p.url = c.url) (k later : Nat) (s : Exchange) :
    (∃ result s', (attempt Exchange.service c p k later).run s = pure (result, s') ∧
      c.StopsAt k (0 = later) s.replies.head result ∧
      s'.replies = s.replies.tail ∧ s'.acts = s.acts ++ [.post p]) ∨
    ∃ later' seconds, later = later' + 1 ∧ c.GoesOn k s.replies.head ∧
      (attempt Exchange.service c p k later).run s =
        (attempt Exchange.service c p (k + 1) later').run
          ⟨s.replies.tail, s.spreads.tail, s.acts ++ [.post p] ++ [.pause seconds]⟩ := by
  have hpost : (Exchange.service.post p).run s =
      pure (s.replies.head, ⟨s.replies.tail, s.spreads, s.acts ++ [.post p]⟩) := rfl
  rw [attempt.eq_def, StateT.run_bind, hpost, pure_bind]
  dsimp only
  rcases s.replies.head.verdict_cases p.url with
    ⟨hretry, setback, hverdict, hmessage⟩ | ⟨hfinal, result, hverdict, hresult⟩
  · rw [hverdict]
    dsimp only
    cases later with
    | zero =>
      refine .inl ⟨_, _, rfl, .exhausted hretry rfl ?_, rfl, rfl⟩
      rw [← hurl, ← hmessage]
      rfl
    | succ later =>
      have hspread : ∀ s : Exchange, Exchange.service.spread.run s =
          pure (s.spreads.head, ⟨s.replies, s.spreads.tail, s.acts⟩) := fun _ => rfl
      dsimp only
      rw [StateT.run_bind, hspread, pure_bind]
      dsimp only
      have hpause := c.pauseAfter?_eq_none_iff k s.replies.head s.spreads.head
      cases hseconds : c.pauseAfter? k s.replies.head.asksForFewer s.spreads.head with
      | none =>
        refine .inl ⟨_, _, rfl, .tooLong hretry (Nat.succ_ne_zero later).symm (hpause.1 hseconds),
          rfl, rfl⟩
      | some seconds =>
        have hgoes : ¬c.IsTooLong k s.replies.head := by
          rw [← hpause, hseconds]
          exact Option.some_ne_none seconds
        refine .inr ⟨later, seconds, rfl, ⟨hretry, hgoes⟩, ?_⟩
        have hact : (Exchange.service.pause seconds).run
            ⟨s.replies.tail, s.spreads.tail, s.acts ++ [.post p]⟩ =
              pure ((), ⟨s.replies.tail, s.spreads.tail,
                s.acts ++ [.post p] ++ [.pause seconds]⟩) := rfl
        dsimp only
        rw [StateT.run_bind, hact, pure_bind]
  · rw [hverdict]
    exact .inl ⟨_, _, rfl, .final hfinal hresult, rfl, rfl⟩

/-- All attempts from one on. -/
theorem Client.run_attempts (hurl : p.url = c.url) (k later : Nat) (s : Exchange) :
    ∃ j pauses result s', (attempt Exchange.service c p k later).run s = pure (result, s') ∧
      j ≤ later ∧ (∀ i < j, c.GoesOn (k + i) (s.replies.get i)) ∧
      c.StopsAt (k + j) (j = later) (s.replies.get j) result ∧
      pauses.length = j ∧ s'.acts = s.acts ++ Exchange.actsOf p pauses ∧
      s'.replies = s.replies.drop (j + 1) := by
  induction later generalizing k s with
  | zero =>
    rcases c.run_attempt hurl k 0 s with ⟨result, s', hrun, hstops, hreplies, hacts⟩ | ⟨_, _, h, -⟩
    · exact ⟨0, [], result, s', hrun, Nat.le_refl 0, (fun i hi => nomatch hi), hstops, rfl,
        hacts, hreplies⟩
    · nomatch h
  | succ later ih =>
    rcases c.run_attempt hurl k (later + 1) s with
      ⟨result, s', hrun, hstops, hreplies, hacts⟩ | ⟨later', seconds, hlater, hgoes, hrun⟩
    · exact ⟨0, [], result, s', hrun, Nat.zero_le _, (fun i hi => nomatch hi), hstops, rfl,
        hacts, hreplies⟩
    · obtain rfl : later' = later := by omega
      obtain ⟨j, pauses, result, s', hrun', hj, hon, hstops, hlength, hacts, hreplies⟩ :=
        ih (k + 1) ⟨s.replies.tail, s.spreads.tail, s.acts ++ [.post p] ++ [.pause seconds]⟩
      refine ⟨j + 1, seconds :: pauses, result, s', hrun.trans hrun', by omega, ?_, ?_, ?_, ?_,
        hreplies⟩
      · intro i hi
        cases i with
        | zero => exact hgoes
        | succ i =>
          have hnext := hon i (by omega)
          rw [show k + (i + 1) = k + 1 + i by omega]
          exact hnext
      · rw [show k + (j + 1) = k + 1 + j by omega, Nat.add_right_cancel_iff]
        exact hstops
      · rw [List.length_cons, hlength]
      · rw [hacts]
        simp [Exchange.actsOf]

end

def Exchange.submission (c : Client) (request : LearningRequest) (replies : Stream' Reply)
    (spreads : Stream' Float) :
    Except PauseOverflow (Except SubmissionError StoredDiff) × Exchange :=
  ((c.submit service request).run ⟨replies, spreads, []⟩).run

namespace Client

open Exchange (submission actsOf)

theorem attempts_eq (c : Client) : (c.attempts : Int) = max 1 c.maxRetries := by
  unfold attempts
  omega

/-- The attempts of a submission, the first one being attempt 1. -/
theorem run_submission (c : Client) (request : LearningRequest) (replies : Stream' Reply)
    (spreads : Stream' Float) :
    ∃ k pauses, k < c.attempts ∧ (∀ i < k, c.GoesOn (i + 1) (replies.get i)) ∧
      c.StopsAt (k + 1) (k + 1 = c.attempts) (replies.get k)
        (submission c request replies spreads).1 ∧
      pauses.length = k ∧
      (submission c request replies spreads).2.acts = actsOf (c.post request) pauses ∧
      (submission c request replies spreads).2.replies = replies.drop (k + 1) := by
  have hurl : (c.post request).url = c.url := rfl
  have hpos : 0 < c.attempts := by
    have hmax := c.attempts_eq
    omega
  obtain ⟨k, pauses, result, s', hrun, hk, hon, hstops, hlength, hacts, hreplies⟩ :=
    run_attempts hurl 1 (c.attempts - 1) ⟨replies, spreads, []⟩
  have hsubmission : submission c request replies spreads = (result, s') := hrun
  have hlast : (k = c.attempts - 1) = (k + 1 = c.attempts) := by
    apply propext
    omega
  rw [hlast, Nat.add_comm 1 k] at hstops
  rw [hsubmission]
  refine ⟨k, pauses, by omega, ?_, hstops, hlength, hacts, hreplies⟩
  intro i hi
  rw [Nat.add_comm]
  exact hon i hi

/-- Every submission makes one post, and another one after each pause, as long as the replies ask
for it and the pauses can be made.  It stops at one attempt, and no reply behind that is taken. -/
theorem submit_protocol (c : Client) (request : LearningRequest) (replies : Stream' Reply)
    (spreads : Stream' Float) :
    ∃ (k : Nat) (pauses : List Float), (k : Int) < max 1 c.maxRetries ∧
      (∀ i < k, c.GoesOn (i + 1) (replies.get i)) ∧
      c.StopsAt (k + 1) ((k : Int) + 1 = max 1 c.maxRetries) (replies.get k)
        (submission c request replies spreads).1 ∧
      pauses.length = k ∧
      (submission c request replies spreads).2.acts = actsOf (c.post request) pauses ∧
      (submission c request replies spreads).2.replies = replies.drop (k + 1) := by
  obtain ⟨k, pauses, hk, hon, hstops, hdone⟩ := c.run_submission request replies spreads
  have hlast : (k + 1 = c.attempts) = ((k : Int) + 1 = max 1 c.maxRetries) := by
    rw [← attempts_eq]
    apply propext
    omega
  rw [hlast] at hstops
  rw [← attempts_eq] at hstops ⊢
  exact ⟨k, pauses, by omega, hon, hstops, hdone⟩

/-- A submission whose pauses are doubles never comes to an end of its own if it has more than 1025
attempts, as long as all replies ask for another one. -/
theorem submit_patient {c : Client} {delay : Float} (hdelay : c.retryDelay = .real delay)
    (hmany : 1025 < c.maxRetries) (request : LearningRequest) {replies : Stream' Reply}
    (hreplies : ∀ i, (replies.get i).IsRetryable) (spreads : Stream' Float) :
    (submission c request replies spreads).1 = .error ⟨⟩ ∧
      ∃ pauses, pauses.length = 1024 ∧
        (submission c request replies spreads).2.acts = actsOf (c.post request) pauses := by
  have hpause : ∀ k reply, c.IsTooLong k reply ↔ 1024 < k := by
    intro k reply
    unfold IsTooLong
    rw [hdelay]
  have hattempts := c.attempts_eq
  obtain ⟨k, pauses, hk, hon, hstops, hlength, hacts, -⟩ :=
    c.run_submission request replies spreads
  have hle : k ≤ 1024 := by
    by_cases hlong : k ≤ 1024
    · exact hlong
    · exact absurd ((hpause _ _).2 (by omega)) (hon 1024 (by omega)).2
  generalize (submission c request replies spreads).1 = result at hstops ⊢
  cases hstops with
  | final hfinal => exact absurd (hreplies k) hfinal
  | exhausted hretry hlast => omega
  | tooLong hretry hlast htoo =>
    have hge := (hpause _ _).1 htoo
    exact ⟨rfl, pauses, by omega, hacts⟩

def patient : Client := ⟨"https://learn".toList, .real 30, 1026, .real 0⟩

def neverReached : Stream' Reply := Stream'.const (.unreachable "no more responses".toList)

/-- It is interrupted after the attempt before the last one. -/
theorem not_submit_protocol_patient :
    max 1 patient.maxRetries = 1026 ∧ (∀ i, (neverReached.get i).IsRetryable) ∧
      (submission patient ⟨[]⟩ neverReached (Stream'.const 0)).1 = .error ⟨⟩ ∧
      ∃ pauses, pauses.length = 1024 ∧
        (submission patient ⟨[]⟩ neverReached (Stream'.const 0)).2.acts =
          actsOf (patient.post ⟨[]⟩) pauses := by
  have hreplies : ∀ i, (neverReached.get i).IsRetryable := fun _ => trivial
  exact ⟨rfl, hreplies, submit_patient rfl (by decide) ⟨[]⟩ hreplies (Stream'.const 0)⟩

end Client

end ChangePairs
