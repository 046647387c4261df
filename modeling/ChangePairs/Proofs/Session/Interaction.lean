import ChangePairs.Proofs.Collection
import ChangePairs.Proofs.Reduction.Outcome
import ChangePairs.Session.Learn

/-!
Learning as the service sees it.  A session first gets the outcomes of the files, without the
service (`outcomes`).  Then it is an `Interaction`: it ends by itself, or the service is asked once
and the answer decides on the result, without a further question.  `learn_eq_bind` says that this is
all there is to learning.

The main statement, `learn_disciplined`, adds what is asked and what is reported, and that every
result is consistent: either it is a success and has what a success has, or it says why not and
has nothing of it.
-/

namespace ChangePairs

/-! ## Messages -/

theorem TargetError.message_ne_nil (e : TargetError) : e.message ≠ [] := by
  unfold message
  cases e <;> simp

theorem PlanError.message_ne_nil (e : PlanError) : e.message ≠ [] := by
  unfold message
  cases e <;> simp

theorem NothingToLearn.message_ne_nil (e : NothingToLearn) : e.message ≠ [] := by
  unfold message
  simp

theorem SubmissionError.message_ne_nil (e : SubmissionError) : e.message ≠ [] := by
  unfold message
  cases e <;> simp

theorem LearnError.message_ne_nil (e : LearnError) : e.message ≠ [] := by
  cases e with
  | target e => exact e.message_ne_nil
  | plan e => exact e.message_ne_nil
  | nothing e => exact e.message_ne_nil
  | submission e => exact e.message_ne_nil

/-! ## Submissions -/

section

variable {m : Type → Type} [Monad m] [LawfulMonad m]

def HasId (answer : Except SubmissionError StoredDiff) : Prop :=
  ∀ stored, answer = .ok stored → stored.id ≠ []

theorem Response.hasId_stored (r : Response) : HasId r.stored := by
  intro stored h
  unfold Response.stored at h
  split at h
  · nomatch h
  · split at h
    · obtain rfl := Except.ok.inj h
      exact List.cons_ne_nil _ _
    · nomatch h
  · nomatch h

theorem Reply.hasId_verdict {url : Text} {reply : Reply}
    {result : Except SubmissionError StoredDiff} (h : reply.verdict url = .final result) :
    HasId result := by
  cases reply with
  | unreachable reason => nomatch h
  | response r =>
    unfold verdict at h
    dsimp only at h
    split at h
    · nomatch h
    · split at h
      · obtain rfl := Verdict.final.inj h
        nofun
      · obtain rfl := Verdict.final.inj h
        exact r.hasId_stored

theorem Client.ensures_attempt (service : Service m) (c : Client) (post : Post) (k later : Nat) :
    Ensures HasId (c.attempt service post k later) := by
  -- By the attempts that are left: only the reply that ends them may hold a place.
  induction later generalizing k with
  | zero =>
    unfold attempt
    refine ensures_bind fun reply => ?_
    cases hverdict : reply.verdict post.url with
    | final result => exact ensures_ok (Reply.hasId_verdict hverdict)
    | again setback slower => exact ensures_ok nofun
  | succ later ih =>
    unfold attempt
    refine ensures_bind fun reply => ?_
    cases hverdict : reply.verdict post.url with
    | final result => exact ensures_ok (Reply.hasId_verdict hverdict)
    | again setback slower =>
      refine ensures_bind fun spread => ?_
      split
      · exact ensures_error _ _
      · exact ensures_bind fun _ => ih (k + 1)

end

/-! ## Consistent results -/

structure LearningRequest.IsSound (r : LearningRequest) : Prop where
  pairs_ne_nil : r.pairs ≠ []
  sourced : r.sources.length = r.pairs.length
  nonempty : ∀ pair ∈ r.pairs, pair.before ≠ [] ∨ pair.after ≠ []

/-- What a result says fits together.  `submit` is whether the request was to be submitted. -/
structure LearnResult.IsConsistent (submit : Bool) (r : LearnResult) : Prop where
  success : r.success = true → r.error = [] ∧
    (∃ request, r.request = some request ∧ request.IsSound) ∧ (r.diffId ≠ [] ↔ submit = true)
  failure : r.success = false → r.error ≠ [] ∧ r.diffId = [] ∧ r.iv = [] ∧ r.link = none

structure LearnResult.Reports (outcomes : List Outcome) (r : LearnResult) : Prop where
  request : r.request = (Collection.ofOutcomes outcomes).request.toOption
  diagnostics : r.diagnostics = outcomes.flatMap Outcome.diagnostics

theorem LearnResult.isConsistent_failed {submit : Bool} {request : Option LearningRequest}
    {diagnostics : List Diagnostic} (e : LearnError) :
    (⟨request, diagnostics, .failed e⟩ : LearnResult).IsConsistent submit where
  success := nofun
  failure _ := ⟨e.message_ne_nil, rfl, rfl, rfl⟩

def AreSound (outcomes : List Outcome) : Prop :=
  ∀ out ∈ outcomes, ∃ strategy path, out.IsSound strategy path

namespace Collection

theorem isSound_of_request {outcomes : List Outcome} {r : LearningRequest}
    (hsound : AreSound outcomes)
    (h : (ofOutcomes outcomes).request = .ok r) : r.IsSound := by
  have hgroups := groups_ofOutcomes outcomes
  obtain ⟨hpairs, hlength, -⟩ := hgroups.request r h
  refine ⟨?_, hlength, ?_⟩
  · rw [hpairs]
    exact pairs_ne_nil_of_request h
  · intro pair hpair
    rw [hpairs] at hpair
    obtain ⟨o, ho, hmem⟩ := mem_pairs_ofOutcomes.1 hpair
    obtain ⟨strategy, path, hpath⟩ := hsound o ho
    exact hpath.nonempty pair hmem

end Collection

namespace Session

/-! ## Interactions -/

inductive Interaction where
  | ended (result : LearnResult)
  /-- The service is asked once, and its answer decides on the result. -/
  | asks (request : LearningRequest) (result : Except SubmissionError StoredDiff → LearnResult)

namespace Interaction

/-- The service is asked only if that is wanted and there is something to ask it for, and whatever
it answers, the result has the request and all that was found out about the files. -/
def IsDisciplined (submit : Bool) (outcomes : List Outcome) : Interaction → Prop
  | .ended result => result.Reports outcomes ∧ (submit = false ∨ result.request = none)
  | .asks request result => submit = true ∧ request.pairs ≠ [] ∧
      ∀ answer, (result answer).request = some request ∧ (result answer).Reports outcomes ∧
        ((result answer).success = true ↔ ∃ stored, answer = .ok stored)

def ofOutcomes (s : Settings) (o : LearnOptions) (outcomes : List Outcome) : Interaction :=
  let c := Collection.ofOutcomes outcomes
  match c.request with
  | .error e => .ended ⟨none, c.diagnostics, .failed (.nothing e)⟩
  | .ok request =>
    if o.submit then .asks request fun answer =>
      ⟨some request, c.diagnostics, conclusion s answer⟩
    else .ended ⟨some request, c.diagnostics, .prepared⟩

def ofFound (s : Settings) (o : LearnOptions) : Except LearnError (List Outcome) → Interaction
  | .error e => .ended (.early e)
  | .ok outcomes => ofOutcomes s o outcomes

theorem isDisciplined_ofOutcomes (s : Settings) (o : LearnOptions) (outcomes : List Outcome) :
    (ofOutcomes s o outcomes).IsDisciplined o.submit outcomes := by
  have hdiagnostics := Collection.diagnostics_ofOutcomes outcomes
  unfold ofOutcomes
  dsimp only
  cases hrequest : (Collection.ofOutcomes outcomes).request with
  | error e => exact ⟨⟨by rw [hrequest]; rfl, hdiagnostics⟩, .inr rfl⟩
  | ok request =>
    have hreports : ∀ conclusion, LearnResult.Reports outcomes
        ⟨some request, (Collection.ofOutcomes outcomes).diagnostics, conclusion⟩ :=
      fun _ => ⟨by rw [hrequest]; rfl, hdiagnostics⟩
    dsimp only
    cases hsubmit : o.submit with
    | false => exact ⟨hreports _, .inl rfl⟩
    | true =>
      have hpairs : request.pairs ≠ [] := by
        rw [((Collection.groups_ofOutcomes outcomes).request request hrequest).1]
        exact Collection.pairs_ne_nil_of_request hrequest
      refine ⟨rfl, hpairs, fun answer => ⟨rfl, hreports _, ?_⟩⟩
      cases answer with
      | error e => exact iff_of_false nofun (by rintro ⟨stored, h⟩; nomatch h)
      | ok stored => exact iff_of_true rfl ⟨stored, rfl⟩

section

variable {m : Type → Type} [Monad m]

def complete
    (submit : LearningRequest → m (Except PauseOverflow (Except SubmissionError StoredDiff))) :
    Interaction → m (Except Interruption LearnResult)
  | .ended result => return .ok result
  | .asks request result => return (← submit request).mapError .pause |>.map result

def proceed
    (submit : LearningRequest → m (Except PauseOverflow (Except SubmissionError StoredDiff))) :
    Except Interruption Interaction → m (Except Interruption LearnResult)
  | .error interruption => return .error interruption
  | .ok interaction => interaction.complete submit

end

end Interaction

section

variable {m : Type → Type} [Monad m]

def outcomes (source : FileSource m) (s : Settings) (o : LearnOptions) (paths : List Path) :
    m (Except Interruption (Except LearnError (List Outcome))) := do
  match o.plan s with
  | .error e => return .ok (.error (.plan e))
  | .ok plan =>
    let results ← paths.mapM (Reduction.reduceFile source plan)
    return (results.mapM id).mapError .digitLimit |>.map .ok

def found (w : Workspace m) (s : Settings) (o : LearnOptions) :
    m (Except Interruption (Except LearnError (List Outcome))) := do
  match ← resolve w s o.targets with
  | .error e => return .ok (.error (.target e))
  | .ok paths => outcomes w.source s o paths

theorem deliver_eq (service : Service m) (s : Settings) (o : LearnOptions)
    (outcomes : List Outcome) :
    deliver service s o (Collection.ofOutcomes outcomes) =
      (Interaction.ofOutcomes s o outcomes).complete ((clientOr s o).submit service) := by
  unfold deliver Interaction.ofOutcomes
  dsimp only
  cases (Collection.ofOutcomes outcomes).request with
  | error e => rfl
  | ok request => cases o.submit <;> rfl

variable [LawfulMonad m]

/-- Learning is to get the outcomes, and then to go through with the interaction. -/
theorem learn_eq_bind (w : Workspace m) (service : Service m) (s : Settings) (o : LearnOptions) :
    learn w service s o = found w s o >>= fun outcomes? =>
      Interaction.proceed ((clientOr s o).submit service)
        (outcomes?.map (Interaction.ofFound s o)) := by
  unfold learn found
  rw [bind_assoc]
  -- Both sides choose the files, the plan and the outcomes alike, and part only after them.
  refine bind_congr fun resolved => ?_
  cases resolved with
  | error e =>
    dsimp only
    rw [pure_bind]
    rfl
  | ok paths =>
    unfold outcomes
    dsimp only
    cases o.plan s with
    | error e =>
      dsimp only
      rw [pure_bind]
      rfl
    | ok plan =>
      dsimp only
      unfold Reduction.run
      rw [bind_assoc, bind_assoc]
      refine bind_congr fun results => ?_
      rw [pure_bind, pure_bind]
      cases results.mapM id with
      | error limit => rfl
      | ok outcomes => exact deliver_eq service s o outcomes

/-! ## Every session -/

/-- There is one outcome for each file, and whatever is ensured of the reduction of single files is
known of it. -/
theorem ensures_outcomes {source : FileSource m} {q : Plan → Path → Outcome → Prop}
    (hq : ∀ plan path, Ensures (q plan path) (Reduction.reduceFile source plan path))
    (s : Settings) (o : LearnOptions) (paths : List Path) :
    Ensures (fun outcomes? => ∀ outcomes, outcomes? = .ok outcomes →
        ∃ plan, o.plan s = .ok plan ∧ List.Forall₂ (q plan) paths outcomes)
      (Session.outcomes source s o paths) := by
  unfold Session.outcomes
  cases o.plan s with
  | error e => exact ensures_ok nofun
  | ok plan =>
    refine SatisfiesM.bind (satisfiesM_mapM paths fun path _ => hq plan path)
      fun results hresults => SatisfiesM.pure ?_
    intro outcomes? houtcomes? outcomes houtcomes
    subst houtcomes
    obtain ⟨found, hall, ⟨⟩⟩ := map_eq_ok_iff.1 houtcomes?
    exact ⟨plan, rfl, Reduction.forall₂_of_mapM hresults (mapError_eq_ok_iff.1 hall)⟩

theorem ensures_found (w : Workspace m) (s : Settings) (o : LearnOptions) :
    Ensures (fun outcomes? => ∀ outcomes, outcomes? = .ok outcomes → AreSound outcomes)
      (found w s o) := by
  unfold found
  refine ensures_bind fun resolved => ?_
  cases resolved with
  | error e => exact ensures_ok nofun
  | ok paths =>
    refine (ensures_outcomes (Reduction.ensures_reduceFile w.source) s o paths).imp ?_
    intro outcomes? h outcomes houtcomes out hout
    obtain ⟨plan, -, hall⟩ := h outcomes houtcomes
    obtain ⟨path, -, hsound⟩ := exists_of_forall₂ hall.flip hout
    exact ⟨plan.strategy, path, hsound⟩

theorem Interaction.IsDisciplined.ensures_reports {submit : Bool} {outcomes : List Outcome}
    {interaction : Interaction} (h : interaction.IsDisciplined submit outcomes)
    (ask : LearningRequest → m (Except PauseOverflow (Except SubmissionError StoredDiff))) :
    Ensures (LearnResult.Reports outcomes) (interaction.complete ask) := by
  cases interaction with
  | ended result => exact ensures_ok h.1
  | asks request result =>
    refine ensures_bind fun answer? => ?_
    cases answer? with
    | error e => exact ensures_error _ _
    | ok answer => exact ensures_ok (h.2.2 answer).2.1

theorem ensures_complete {service : Service m} {s : Settings} {o : LearnOptions}
    {outcomes : List Outcome} (hsound : AreSound outcomes) :
    Ensures (LearnResult.IsConsistent o.submit)
      ((Interaction.ofOutcomes s o outcomes).complete ((clientOr s o).submit service)) := by
  unfold Interaction.ofOutcomes
  dsimp only
  cases hrequest : (Collection.ofOutcomes outcomes).request with
  | error e => exact ensures_ok (LearnResult.isConsistent_failed _)
  | ok request =>
    have hmade := Collection.isSound_of_request hsound hrequest
    cases hsubmit : o.submit with
    | false =>
      refine ensures_ok ⟨fun _ => ⟨rfl, ⟨request, rfl, hmade⟩, ?_⟩, nofun⟩
      exact iff_of_false (fun h => h rfl) Bool.false_ne_true
    | true =>
      -- The answer decides: a refusal has a message, and a place that is named has a name.
      refine (Client.ensures_attempt service (clientOr s o) _ _ _).bind (fun answer hid => ?_)
        fun e => ensures_error _ _
      refine ensures_ok ?_
      cases answer with
      | error e => exact LearnResult.isConsistent_failed (.submission e)
      | ok stored =>
        exact ⟨fun _ => ⟨rfl, ⟨request, rfl, hmade⟩, iff_of_true (hid stored rfl) rfl⟩, nofun⟩

theorem ensures_learn (w : Workspace m) (service : Service m) (s : Settings) (o : LearnOptions) :
    Ensures (LearnResult.IsConsistent o.submit) (learn w service s o) := by
  rw [learn_eq_bind]
  refine (ensures_found w s o).bind (fun outcomes? hsound => ?_) fun e => ensures_error _ _
  cases outcomes? with
  | error e => exact ensures_ok (LearnResult.isConsistent_failed e)
  | ok outcomes => exact ensures_complete (hsound outcomes rfl)

/-- Every result is consistent.  Whatever the service is and answers, learning is to get the
outcomes, for which the service is not needed, and to go through with a disciplined interaction. -/
theorem learn_disciplined (w : Workspace m) (s : Settings) (o : LearnOptions) :
    (∀ service, Ensures (LearnResult.IsConsistent o.submit) (learn w service s o)) ∧
      ∃ interaction : Except LearnError (List Outcome) → Interaction,
        (∀ service, learn w service s o = found w s o >>= fun outcomes? =>
          Interaction.proceed ((clientOr s o).submit service) (outcomes?.map interaction)) ∧
        (∀ e, interaction (.error e) = .ended (.early e)) ∧
        ∀ outcomes, (interaction (.ok outcomes)).IsDisciplined o.submit outcomes := by
  refine ⟨fun service => ensures_learn w service s o, Interaction.ofFound s o, ?_, ?_, ?_⟩
  · exact fun service => learn_eq_bind w service s o
  · exact fun _ => rfl
  · exact Interaction.isDisciplined_ofOutcomes s o

end

/-! ## A service that refuses first

One file with a change and one without a diff, for a service that counts what is posted and
refuses the first request. -/

def plainSettings : Settings where
  learnApiUrl := "https://learn".toList
  studioUrl := "https://studio".toList
  engine := "jscodeshift".toList
  strategy := "hunks".toList
  matching := "position".toList
  maxWorkers := 4
  requestTimeout := 30
  maxRetries := 3
  retryDelay := 1
  extensions := [".ts".toList]
  logDirectory := []

namespace Refusing

def options : LearnOptions := ⟨[], none, none, none, true, none⟩

def source : FileSource (StateM Nat) where
  diff path := return if path = "/a.ts".toList then .text "@@ -1 +1 @@\n-a\n+b\n".toList
    else .unavailable
  version side _ := return .text (match side with | .before => ['a'] | .after => ['b'])
  nodes _ _ _ _ := return none

def workspace : Workspace (StateM Nat) where
  present := ['/']
  modified := return some ["/a.ts".toList, "/b.ts".toList]
  tracks _ := return true
  source := source

def service : Service (StateM Nat) where
  post _ := do
    modify (· + 1)
    if (← get) = 1 then return .response ⟨400, "no".toList, .error []⟩
    else return .response ⟨200, [], .ok (.mapping [(.text "id".toList, .ofText ['7']),
      (.text "iv".toList, .ofText [])])⟩
  pause _ := return ()
  spread := return 0

def request : LearningRequest := ⟨[("/a.ts".toList, ⟨['a'], ['b']⟩)]⟩

def result (c : Conclusion) : LearnResult :=
  ⟨some request, [.missing "/b.ts".toList "Diff is unavailable".toList], c⟩

def refused : LearnResult := result (.failed (.submission (.rejected 400 "no".toList)))

def stored : LearnResult :=
  result (.submitted ⟨['7'], []⟩
    (some "https://studio?engine=jscodeshift&diffId=7&iv=&command=learn".toList))

def ending (posts : Nat) : Except Interruption LearnResult × Nat :=
  (learn workspace service plainSettings options).run posts

end Refusing

theorem learn_disciplined_refusing :
    Refusing.ending 0 = (.ok Refusing.refused, 1) ∧ Refusing.refused.IsConsistent true ∧
      Refusing.ending 1 = (.ok Refusing.stored, 2) ∧ Refusing.stored.IsConsistent true := by
  have hconsistent := (learn_disciplined Refusing.workspace plainSettings
    Refusing.options).1 Refusing.service
  have hrefused : Refusing.ending 0 = (.ok Refusing.refused, 1) := by decide +kernel
  have hstored : Refusing.ending 1 = (.ok Refusing.stored, 2) := by decide +kernel
  exact ⟨hrefused, hconsistent.of_run hrefused, hstored, hconsistent.of_run hstored⟩

end Session
end ChangePairs
