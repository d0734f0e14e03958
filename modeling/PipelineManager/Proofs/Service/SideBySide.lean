import PipelineManager.Proofs.Service.Authorization
import PipelineManager.Proofs.Service.Facts
import PipelineManager.Proofs.Service.Masking
import PipelineManager.Proofs.Service.Requests

/-!
# Services side by side

Two services are carried out side by side in worlds that are alike, while the same calls go wrong.
They agree when they fail for the same reason, or give related results, and leave worlds that are
alike. What follows the way services are put together is stated once; with it, each request is gone
through from its first call to its last.
-/

namespace PipelineManager

/-- Whether two trials have made equally many calls, in worlds that are alike. -/
structure Trial.Alike (s t : Trial) : Prop where
  world : s.world.Alike t.world
  count : s.past.length = t.past.length

/-- A call that is answered alike in both worlds keeps two trials alike. -/
theorem Trial.Alike.answer {s t : Trial} (h : s.Alike t) (plan : Nat → Option Mishap) {c c' : Call}
    {R : c.Answer → c'.Answer → Prop} (hc : c.AnsweredAlike c' R s.world t.world) :
    R (Trial.answer plan c s).1 (Trial.answer plan c' t).1 ∧
      (Trial.answer plan c s).2.Alike (Trial.answer plan c' t).2 := by
  obtain ⟨hanswer, hworld⟩ := hc (plan s.past.length)
  rw [answer_fst, answer_fst, ← h.count]
  refine ⟨hanswer, ?_, ?_⟩
  · rw [world_answer, world_answer, ← h.count]
    exact hworld
  · rw [past_answer, past_answer, List.length_append, List.length_append, h.count]
    rfl

namespace Service

/-- Whether services that are carried out side by side agree. -/
structure Agree {α β : Type} (plan : Nat → Option Mishap) (R : α → β → Prop) (p : Service α)
    (q : Service β) (s t : Trial) : Prop where
  result : ResultsAgree R (exec (Trial.answer plan) p s).1 (exec (Trial.answer plan) q t).1
  after : (exec (Trial.answer plan) p s).2.Alike (exec (Trial.answer plan) q t).2

section Rules

variable {α β γ δ : Type} {plan : Nat → Option Mishap} {R : α → β → Prop} {S : γ → δ → Prop}
  {s t : Trial}

/-- Services that only give results agree when the results do. -/
theorem agree_pure (h : s.Alike t) {a : α} {b : β} (hab : R a b) :
    Agree plan R (pure a) (pure b) s t :=
  ⟨.ok hab, h⟩

/-- Services that fail with one error agree. -/
theorem agree_throw (h : s.Alike t) (e : ServiceError) : Agree plan R (throw e) (throw e) s t :=
  ⟨.error e, h⟩

/-- What the stores have answered is gone on with alike. -/
theorem agree_stored (h : s.Alike t) {r : Except Fault α} {r' : Except Fault β}
    (hr : ResultsAgree R r r') :
    Agree plan R (stored r) (stored r') s t := by
  cases hr with
  | ok hab => exact agree_pure h hab
  | error e => exact agree_throw h _

/-- A requirement is met or refused in both. -/
theorem agree_require (h : s.Alike t) (holds : Bool) (e : ServiceError) :
    Agree plan Eq (require holds e) (require holds e) s t := by
  cases holds with
  | true => exact agree_pure h rfl
  | false => exact agree_throw h e

/-- Calls that are answered alike agree. -/
theorem agree_ask (h : s.Alike t) {c c' : Call} {R : c.Answer → c'.Answer → Prop}
    (hc : c.AnsweredAlike c' R s.world t.world) : Agree plan R (ask c) (ask c') s t :=
  ⟨.ok (h.answer plan hc).1, (h.answer plan hc).2⟩

/-- What follows agreeing services, and agrees with the results they give, agrees with them. -/
theorem Agree.bind {p : Service α} {q : Service β} {next : α → Service γ} {next' : β → Service δ}
    (h : Agree plan R p q s t)
    (hnext : ∀ a b,
      R a b → Agree plan S (next a) (next' b)
      (exec (Trial.answer plan) p s).2 (exec (Trial.answer plan) q t).2) :
    Agree plan S (p >>= next) (q >>= next') s t := by
  obtain ⟨hresult, hafter⟩ := h
  rcases hp : exec (Trial.answer plan) p s with ⟨a, s'⟩
  rcases hq : exec (Trial.answer plan) q t with ⟨b, t'⟩
  rw [hp, hq] at hresult hafter hnext
  cases hresult with
  | ok hab =>
    obtain ⟨hresult, hafter⟩ := hnext _ _ hab
    constructor
    · rw [exec_bind, exec_bind, hp, hq]
      exact hresult
    · rw [exec_bind, exec_bind, hp, hq]
      exact hafter
  | error e =>
    constructor
    · rw [exec_bind, exec_bind, hp, hq]
      exact .error e
    · rw [exec_bind, exec_bind, hp, hq]
      exact hafter

/-- Services agree when their first parts do, and the parts behind for all results that agree. -/
theorem agree_bind {p : Service α} {q : Service β} {next : α → Service γ} {next' : β → Service δ}
    (h : Agree plan R p q s t)
    (hnext : ∀ a b s' t', R a b → s'.Alike t' → Agree plan S (next a) (next' b) s' t') :
    Agree plan S (p >>= next) (q >>= next') s t :=
  h.bind fun a b hab => hnext a b _ _ hab h.after

/-- In what services agree may be described more loosely. -/
theorem Agree.mono {p : Service α} {q : Service β} (h : Agree plan R p q s t) {R' : α → β → Prop}
    (hR : ∀ a b, R a b → R' a b) : Agree plan R' p q s t :=
  ⟨h.result.mono hR, h.after⟩

/-- The results of services that agree are taken whole alike. -/
theorem agree_result {p : Service α} {q : Service β} (h : Agree plan R p q s t) :
    Agree plan (ResultsAgree R) (result p) (result q) s t := by
  constructor
  · rw [exec_result, exec_result]
    exact .ok h.result
  · rw [exec_result, exec_result]
    exact h.after

/-- A service that only makes open calls agrees with itself. -/
theorem agree_of_asks {p : Service α} (hp : Asks Call.IsOpen p) (h : s.Alike t) :
    Agree plan Eq p p s t := by
  have hstep : ∀ c (s t : Trial), c.IsOpen → s.Alike t →
      (Trial.answer plan c s).1 = (Trial.answer plan c t).1 ∧
        (Trial.answer plan c s).2.Alike (Trial.answer plan c t).2 :=
    fun c s t hc h => h.answer plan (Call.answeredAlike_of_isOpen h.world hc)
  obtain ⟨hresult, hafter⟩ := hp.run_related hstep h
  have heq : (exec (Trial.answer plan) p s).1 = (exec (Trial.answer plan) p t).1 := hresult
  refine ⟨?_, hafter⟩
  rw [heq]
  exact resultsAgree_eq _

end Rules
end Service

open Service

/-! ## Runs that are looked up -/

/-- A run is looked up unless the lookup goes wrong, and never fails late. -/
theorem World.answerWith_run_eq (w : World) (mishap : Option Mishap) (runId : Int) :
    w.answerWith mishap (.run runId) =
      match mishap with
      | none =>
        (if w.broken.contains .getRun then .error (.broken .getRun)
          else .ok (w.store.run? runId), w)
      | some x => (.error x.cause, w) := by
  cases mishap with
  | none => exact w.answer_run runId
  | some x => simp [World.answerWith, Call.failing?, Call.canFailLate]

section Requests

variable {plan : Nat → Option Mishap} {s t : Trial}

/-- The runs that are found are the same without their tokens, and satisfy a condition both or
neither, when the runs in the stores do. -/
theorem agree_existingRun (h : s.Alike t) {runId : Int} (condition : Run → Bool)
    (hsame : (s.world.store.run? runId).any condition = (t.world.store.run? runId).any condition) :
    Agree plan (fun r r' => r.masked = r'.masked ∧ condition r = condition r')
      (Manager.existingRun runId) (Manager.existingRun runId) s t := by
  have hafter := (h.answer plan (Call.answeredAlike_run h.world runId)).2
  have hmasked :
      (s.world.store.run? runId).map Run.masked = (t.world.store.run? runId).map Run.masked := by
    rw [← Store.run?_masked, h.world.store, Store.run?_masked]
  constructor
  · rw [exec_existingRun, exec_existingRun, Trial.answer_fst, Trial.answer_fst,
      World.answerWith_run_eq, World.answerWith_run_eq, ← h.count, ← h.world.broken]
    cases plan s.past.length with
    | some x => exact .error _
    | none =>
      by_cases hbroken : s.world.broken.contains .getRun
      · simp only [hbroken]
        exact .error _
      · simp only [hbroken]
        rcases hs : s.world.store.run? runId with
          _ | r <;> rcases ht : t.world.store.run? runId with _ | r' <;>
          rw [hs, ht] at hmasked hsame
        · exact .error _
        · cases hmasked
        · cases hmasked
        · exact .ok ⟨Option.some.inj hmasked, hsame⟩
  · rw [exec_existingRun, exec_existingRun]
    exact hafter

/-- A token that is taken by both stores or by neither authorizes alike. -/
theorem agree_authorizedRun (h : s.Alike t) {runId : Int} {token : String}
    (htoken : s.world.store.Grants runId token ↔ t.world.store.Grants runId token) :
    Agree plan (fun r r' => r.masked = r'.masked) (Manager.authorizedRun runId token)
      (Manager.authorizedRun runId token) s t := by
  have hgrants (s : Store) :
    (s.run? runId).any (fun r => r.communicationToken = some token) = true ↔
      s.Grants runId token := by
    simp [Store.Grants, Option.any_eq_true]
  refine agree_bind (agree_existingRun h (fun r => r.communicationToken = some token) ?_) ?_
  · rw [Bool.eq_iff_iff, hgrants, hgrants, htoken]
  · rintro r r' s' t' ⟨hmasked, hcondition⟩ h'
    rw [hcondition]
    exact agree_bind (agree_require h' _ _) fun _ _ s'' t'' _ h'' => agree_pure h'' hmasked

/-! ## Callbacks -/

/-- A report is recorded alike. -/
theorem agree_recordStatus (h : s.Alike t) {runId : Int} {token : String} (state : RunState)
    (success : Bool)
    (htoken : s.world.store.Grants runId token ↔ t.world.store.Grants runId token) :
    Agree plan Eq (Manager.recordStatus runId token state success)
      (Manager.recordStatus runId token state success)
      s t := by
  refine agree_bind (agree_authorizedRun h htoken) fun _ _ s' t' _ h' => agree_of_asks ?_ h'
  refine asks_bind (asks_require _ _) fun _ => asks_bind (asks_ask trivial) fun recorded => ?_
  cases recorded with
  | ok entry => exact asks_pure entry
  | error e => exact asks_throw _

/-- An archive is handed out alike. -/
theorem agree_developerArchive (h : s.Alike t) {runId : Int} {token : String} (fullName : String)
    (htoken : s.world.store.Grants runId token ↔ t.world.store.Grants runId token) :
    Agree plan Eq (Manager.developerArchive runId token fullName)
      (Manager.developerArchive runId token fullName)
      s t := by
  refine agree_bind (agree_authorizedRun h htoken) fun _ _ s' t' _ h' => agree_of_asks ?_ h'
  refine asks_bind (asks_ask trivial) fun listed => asks_bind (asks_stored listed) fun tests => ?_
  cases (tests.find? fun t => t.developerDefined ∧ t.fullName = fullName).bind (·.artifactPath) with
  | none => exact asks_throw _
  | some path => exact asks_bind (asks_ask trivial) fun contents => asks_stored contents

/-- To record verdicts, nothing is asked that tells of a secret. -/
theorem asks_recordVerdicts_open (resultsDir : String) (ts : List RunTest) :
    Asks Call.IsOpen (Manager.recordVerdicts resultsDir ts) := by
  induction ts with
  | nil => exact asks_pure ()
  | cons t rest ih =>
    have hverdict : Asks Call.IsOpen (Manager.recordVerdict resultsDir t) :=
      asks_bind (asks_ask trivial) fun contents => asks_bind (asks_ask trivial) fun result =>
        asks_stored result
    exact asks_bind hverdict fun _ => ih

/-- What must be there is gone on with alike, or missing in both. -/
theorem agree_given {α β : Type} (h : s.Alike t) {f : α → β} {a a' : Option α}
    (ha : a.map f = a'.map f) (e : Fault) :
    Agree plan (fun a a' => f a = f a') (Manager.given a e) (Manager.given a' e) s t := by
  rcases a with _ | a <;> rcases a' with _ | a'
  · exact agree_throw h _
  · cases ha
  · cases ha
  · exact agree_pure h (Option.some.inj ha)

/-- What the agents answer about a log is gone on with alike. -/
theorem agree_logged {α : Type} {R : α → α → Prop} (h : s.Alike t) {r r' : Except Fault α}
    (hr : ResultsAgree R r r') : Agree plan R (Manager.logged r) (Manager.logged r') s t := by
  cases hr with
  | ok hR => exact agree_pure h hR
  | error e => exact agree_throw h _

/-- The log of a build is fetched from agents that differ in their passwords at most. -/
theorem agree_buildLog (h : s.Alike t) (r : Run) :
    Agree plan Eq (Manager.buildLog r) (Manager.buildLog r) s t := by
  have hgiven {α : Type} (a : Option α) (e : Fault) {s t : Trial} (h : s.Alike t) :
      Agree plan Eq (Manager.given a e) (Manager.given a e) s t :=
    agree_of_asks (asks_given _ a e) h
  refine agree_bind (hgiven r.agentId _ h) ?_
  rintro agentId _ s t rfl h
  refine agree_bind (agree_ask h (Call.answeredAlike_agent h.world agentId))
    fun found found' s t hfound h => ?_
  refine agree_bind (agree_logged h hfound) fun known known' s t hknown h => ?_
  refine agree_bind (agree_given h hknown _) fun agent agent' s t hagent h => ?_
  refine agree_bind (hgiven r.jobName _ h) ?_
  rintro job _ s t rfl h
  have hfetch : ∀ build (s t : Trial), s.Alike t →
      Agree plan Eq (do Manager.logged (← Service.ask (.fetchLog agent job build)))
        (do Manager.logged (← Service.ask (.fetchLog agent' job build))) s t := by
    intro build s t h
    refine agree_bind (agree_ask h (Call.answeredAlike_fetchLog h.world hagent job build)) ?_
    rintro log _ s t rfl h
    exact agree_of_asks (asks_logged _ log) h
  cases r.buildNumber with
  | some build => exact hfetch build s t h
  | none =>
    refine agree_bind (agree_ask h (Call.answeredAlike_lastBuildNumber h.world hagent job)) ?_
    rintro number _ s t rfl h
    refine agree_bind (agree_of_asks (asks_logged _ number) h) ?_
    rintro build _ s t rfl h
    exact hfetch build s t h

/-- Results are collected alike. -/
theorem agree_collectResults (h : s.Alike t) (r : Run) (runId : Int) (resultsDir : String) :
    Agree plan Eq (Manager.collectResults r runId resultsDir)
      (Manager.collectResults r runId resultsDir) s t := by
  have hrecorded : Asks Call.IsOpen (do
      let ts ← stored (← Service.ask (.runTests runId))
      Manager.recordVerdicts resultsDir ts) :=
    asks_bind (asks_ask trivial) fun listed => asks_bind (asks_stored listed) fun ts =>
      asks_recordVerdicts_open resultsDir ts
  have hstored (log : String) : Asks Call.IsOpen (Manager.storeLog runId resultsDir log) := by
    refine asks_bind (asks_ask trivial) fun uploaded => asks_bind (asks_stored uploaded) fun _ => ?_
    refine asks_bind (asks_ask trivial) fun located => asks_bind (asks_stored located) fun _ => ?_
    exact asks_bind (asks_ask trivial) fun listed => asks_stored listed
  have hsplit : Manager.collectResults r runId resultsDir = (do
      (do let ts ← stored (← Service.ask (.runTests runId)); Manager.recordVerdicts resultsDir ts)
      let log ← Manager.buildLog r
      Manager.storeLog runId resultsDir log) := by
    simp only [Manager.collectResults, Manager.keepLog, bind_assoc]
  rw [hsplit]
  refine agree_bind (agree_of_asks hrecorded h) fun _ _ s t _ h =>
    agree_bind (agree_buildLog h r) ?_
  rintro log _ s t rfl h
  exact agree_of_asks (hstored log) h

/-- What is collected does not depend on the tokens of the run. -/
theorem collectResults_masked (r : Run) (runId : Int) (resultsDir : String) :
    Manager.collectResults r.masked runId resultsDir = Manager.collectResults r runId resultsDir :=
  rfl

/-- Results are published alike. -/
theorem agree_publishResults (h : s.Alike t) {runId : Int} {token : String} (directory : String)
    (htoken : s.world.store.Grants runId token ↔ t.world.store.Grants runId token) :
    Agree plan Eq (Manager.publishResults runId token directory)
      (Manager.publishResults runId token directory)
      s t := by
  rw [Manager.publishResults_eq]
  refine agree_bind (agree_authorizedRun h htoken) fun r r' s t hmasked h => ?_
  rw [← collectResults_masked r, hmasked, collectResults_masked]
  exact agree_collectResults h r' runId _

/-! ## Queries -/

/-- A log is read alike. -/
theorem agree_statusLog (h : s.Alike t) (runId : Int) :
    Agree plan Eq (Manager.statusLog runId) (Manager.statusLog runId) s t := by
  have hsame : (s.world.store.run? runId).isSome = (t.world.store.run? runId).isSome := by
    rw [← Option.isSome_map (f := Run.masked), ← Store.run?_masked, h.world.store,
      Store.run?_masked, Option.isSome_map]
  refine agree_bind (agree_existingRun h (fun _ => true) (by simpa using hsame)) ?_
  exact fun _ _ s t _ h => agree_of_asks (asks_bind (asks_ask trivial) fun log => asks_stored log) h

/-- Whether two reports are the same without the tokens of their runs. -/
def RunReport.SameButTokens (x x' : RunReport) : Prop :=
  x.run.masked = x'.run.masked ∧ x.status = x'.status ∧ x.tests = x'.tests

/-- A run is reported alike but for its tokens. -/
theorem agree_report (h : s.Alike t) {runId : Int} {token : String}
    (htoken : s.world.store.GrantsReport runId token ↔ t.world.store.GrantsReport runId token) :
    Agree plan RunReport.SameButTokens (Manager.report runId token) (Manager.report runId token)
      s t := by
  have hgrants (s : Store) : (s.run? runId).any (fun r => r.accessToken = token) = true ↔
      s.GrantsReport runId token := by
    simp [Store.GrantsReport, Option.any_eq_true]
  refine agree_bind (agree_existingRun h (fun r => r.accessToken = token) ?_) ?_
  · rw [Bool.eq_iff_iff, hgrants, hgrants, htoken]
  rintro r r' s t ⟨hmasked, hcondition⟩ h
  rw [hcondition]
  refine agree_bind (agree_require h _ _) fun _ _ s t _ h => ?_
  refine agree_bind (agree_of_asks (asks_ask trivial) h) ?_
  rintro log _ s t rfl h
  refine agree_bind (agree_of_asks (asks_stored log) h) ?_
  rintro status _ s t rfl h
  refine agree_bind (agree_of_asks (asks_ask trivial) h) ?_
  rintro listed _ s t rfl h
  refine agree_bind (agree_of_asks (asks_stored listed) h) ?_
  rintro tests _ s t rfl h
  exact agree_pure h ⟨hmasked, rfl, rfl⟩

/-- The tests of a testbed are listed alike. -/
theorem agree_testbedTests (h : s.Alike t) (testbedId : String) :
    Agree plan Eq (Manager.testbedTests testbedId) (Manager.testbedTests testbedId) s t := by
  refine agree_of_asks ?_ h
  exact asks_bind (asks_ask trivial) fun known => asks_bind (asks_require _ _) fun _ =>
    asks_ask trivial

/-- An archive is kept alike. -/
theorem agree_keepArchive (h : s.Alike t) (netappId name : String) (archive : ByteArray) :
    Agree plan Eq (Manager.keepArchive netappId name archive)
      (Manager.keepArchive netappId name archive) s t := by
  refine agree_of_asks ?_ h
  refine asks_bind (asks_require _ _) fun _ => asks_bind (asks_ask trivial) fun uploaded => ?_
  exact asks_bind (asks_stored uploaded) fun _ => asks_pure _

/-! ## Submissions -/

/-- To report a stage as failed, nothing is asked that tells of a secret. -/
theorem asks_failStage_open {α : Type} (runId : Int) (state : RunState) (e : ServiceError) :
    Asks Call.IsOpen (failStage runId state e : Service α) :=
  asks_bind (asks_ask trivial) fun _ => asks_throw e

/-- A stage goes well in both or is reported as failed in both. -/
theorem agree_stage {α β : Type} {R : α → β → Prop} (h : s.Alike t) (runId : Int) (state : RunState)
    {r : Except ServiceError α} {r' : Except ServiceError β} (hr : ResultsAgree R r r') :
    Agree plan R (stage runId state r) (stage runId state r') s t := by
  cases hr with
  | ok hab => exact agree_pure h hab
  | error e =>
    refine agree_bind (agree_of_asks (asks_ask trivial) h) fun _ _ s t _ h => agree_throw h e

/-- A stage is reported as reached in both. -/
theorem agree_markStage (h : s.Alike t) (runId : Int) (state : RunState) :
    Agree plan Eq (markStage runId state) (markStage runId state) s t := by
  refine agree_of_asks (asks_bind (asks_ask trivial) fun r => ?_) h
  cases r with
  | ok entry => exact asks_pure ()
  | error e => exact asks_failStage_open runId state _

/-- Agents that differ in secrets alone are probed alike. -/
theorem agree_probeAll (h : s.Alike t) {as as' : List Agent}
    (has : as.map Agent.masked = as'.map Agent.masked) :
    Agree plan (fun xs xs' =>
      xs.map (Prod.map Agent.masked id) = xs'.map (Prod.map Agent.masked id))
      (probeAll as) (probeAll as') s t := by
  induction as generalizing as' s t with
  | nil =>
    obtain rfl : as' = [] := List.map_eq_nil_iff.mp has.symm
    exact agree_pure h rfl
  | cons a rest ih =>
    cases as' with
    | nil => cases has
    | cons a' rest' =>
      obtain ⟨ha, hrest⟩ := List.cons.inj has
      refine agree_bind (agree_ask h (Call.answeredAlike_probe h.world ha)) ?_
      rintro x _ s t rfl h
      refine agree_bind (ih h hrest) fun xs xs' s t hxs h => agree_pure h ?_
      rw [List.map_cons, List.map_cons, hxs, Prod.map_apply, Prod.map_apply, ha]

/-- Which of two agents is less busy does not depend on their secrets. -/
theorem lessBusy_map (a b : Agent × Probe) :
    lessBusy (a.map Agent.masked id) (b.map Agent.masked id) =
      (lessBusy a b).map Agent.masked id := by
  unfold lessBusy
  simp only [Prod.map_snd, id_eq]
  split <;> rfl

/-- Which of several agents is least busy does not depend on their secrets. -/
theorem leastBusy?_map (xs : List (Agent × Probe)) :
    leastBusy? (xs.map (Prod.map Agent.masked id)) =
      (leastBusy? xs).map (Prod.map Agent.masked id) := by
  cases xs with
  | nil => rfl
  | cons a rest =>
    refine congrArg some ?_
    induction rest generalizing a with
    | nil => rfl
    | cons b rest ih =>
      rw [List.map_cons, List.foldl_cons, lessBusy_map, List.foldl_cons]
      exact ih (lessBusy a b)

/-- Which agent is chosen does not depend on passwords. -/
theorem selectAgent_map (probed : List (Agent × Option Probe)) :
    selectAgent (probed.map (Prod.map Agent.masked id)) =
      (selectAgent probed).map (Prod.map Agent.masked id) := by
  have hsorted : (probed.mergeSort fun a b => a.1.id ≤ b.1.id).map (Prod.map Agent.masked id) =
      (probed.map (Prod.map Agent.masked id)).mergeSort fun a b => a.1.id ≤ b.1.id :=
    List.map_mergeSort fun _ _ _ _ => rfl
  have hreachable (xs : List (Agent × Probe)) :
    (xs.map (Prod.map Agent.masked id)).filter (·.2.reachable) =
      (xs.filter (·.2.reachable)).map (Prod.map Agent.masked id) := List.filter_map
  unfold selectAgent
  dsimp only
  rw [← hsorted, ← leastBusy?_map, ← hreachable, List.map_map, List.map_map]
  rfl

/-- The same agent is chosen, but for its secrets. -/
theorem agree_chooseAgent (h : s.Alike t) (info : TestInfo) (runId : Int) :
    Agree plan (fun a a' => a.masked = a'.masked) (Manager.chooseAgent info runId)
      (Manager.chooseAgent info runId)
      s t := by
  refine agree_bind (agree_ask h (Call.answeredAlike_agentsOf h.world info.testbedId))
    fun r r' s t hr h => ?_
  refine agree_bind (agree_stage h runId _ (hr.mapError ServiceError.storage))
    fun as as' s t has h => ?_
  refine agree_bind (agree_probeAll h has) fun xs xs' s t hxs h => ?_
  have hselected :
      (selectAgent xs).map (Prod.map Agent.masked id) =
          (selectAgent xs').map (Prod.map Agent.masked id) := by
    rw [← selectAgent_map, hxs, selectAgent_map]
  rcases hx : selectAgent xs with _ | ⟨a, x⟩ <;> rcases hx' : selectAgent xs' with _ | ⟨a', x'⟩ <;>
    rw [hx, hx'] at hselected
  · exact (agree_of_asks (asks_failStage_open runId _ _) h).mono fun _ _ ha =>
      congrArg Agent.masked ha
  · cases hselected
  · cases hselected
  · have ha : a.masked = a'.masked := congrArg Prod.fst (Option.some.inj hselected)
    have hid : a.id = a'.id := by
      show a.masked.id = a'.masked.id
      rw [ha]
    dsimp only
    rw [hid]
    refine agree_bind (agree_of_asks (asks_ask trivial) h) ?_
    rintro r _ s t rfl h
    refine agree_bind (agree_stage h runId _ (resultsAgree_eq _)) fun _ _ s t _ h => ?_
    exact agree_bind (agree_markStage h runId _) fun _ _ s t _ h => agree_pure h ha

/-- A token is provided alike. -/
theorem agree_provideToken (h : s.Alike t) {agent agent' : Agent}
    (hagent : agent.masked = agent'.masked) (runId : Int) :
    Agree plan Eq (Manager.provideToken agent runId) (Manager.provideToken agent' runId) s t := by
  refine agree_bind (agree_ask h (Call.answeredAlike_newCommunicationToken h.world runId))
    fun token token' s t _ h => ?_
  refine agree_bind
    (agree_ask h (Call.answeredAlike_createCredential h.world hagent _ token token' _)) ?_
  intro r r' s t hr h
  refine agree_bind (agree_stage h runId _ (hr.mapError ServiceError.credentialProvisioning))
    fun _ _ s t _ h => ?_
  refine agree_bind
    (agree_ask h (Call.answeredAlike_setCommunicationToken h.world runId token token')) ?_
  intro r r' s t hr h
  refine agree_bind (agree_stage h runId _ (hr.mapError ServiceError.storage)) fun _ _ s t _ h => ?_
  exact agree_markStage h runId _

/-- To register tests, nothing is asked that tells of a secret. -/
theorem asks_registerTests_open (netappId : String) (runId : Int) (tests : List ExecutedTest) :
    Asks Call.IsOpen (registerTests netappId runId tests) := by
  induction tests with
  | nil => exact asks_pure ()
  | cons t rest ih =>
    exact asks_bind (asks_ask trivial) fun added => asks_bind (asks_stored added) fun _ => ih

/-- A script is created alike: no secret goes into it. -/
theorem agree_createScript (h : s.Alike t) (m : Manager) (d : Descriptor)
    (tests : List ExecutedTest) (runId : Int) :
    Agree plan Eq (m.createScript d tests runId) (m.createScript d tests runId) s t := by
  have hprepared : Asks Call.IsOpen (m.prepareScript d tests runId) := by
    refine asks_bind (asks_registerTests_open _ _ _) fun _ =>
      asks_bind (asks_ask trivial) fun catalogue => ?_
    split
    · exact asks_pure _
    · exact asks_throw _
  refine agree_bind (agree_result (agree_of_asks hprepared h)) fun r r' s t hr h => ?_
  refine agree_bind (agree_stage h runId _ hr) ?_
  rintro script _ s t rfl h
  exact agree_bind (agree_markStage h runId _) fun _ _ s t _ h => agree_pure h rfl

/-- A job is launched alike. -/
theorem agree_launch (h : s.Alike t) {agent agent' : Agent} (hagent : agent.masked = agent'.masked)
    (name script : String) :
    Agree plan Eq (Manager.launch agent name script) (Manager.launch agent' name script) s t := by
  refine agree_bind (agree_ask h (Call.answeredAlike_submitJob h.world hagent name script)) ?_
  rintro submitted _ s t rfl h
  cases submitted with
  | error e => exact agree_pure h rfl
  | ok _ => exact agree_ask h (Call.answeredAlike_startJob h.world hagent name)

/-- A run is started alike. -/
theorem agree_startRun (h : s.Alike t) {agent agent' : Agent}
    (hagent : agent.masked = agent'.masked) (runId : Int) (name script : String) :
    Agree plan Eq (Manager.startRun agent runId name script)
      (Manager.startRun agent' runId name script) s t := by
  refine agree_bind (agree_launch h hagent name script) ?_
  rintro launched _ s t rfl h
  refine agree_bind (agree_stage h runId _ (resultsAgree_eq _)) ?_
  rintro build _ s t rfl h
  refine agree_bind (agree_of_asks (asks_ask trivial) h) ?_
  rintro kept _ s t rfl h
  refine agree_bind (agree_stage h runId _ (resultsAgree_eq _)) fun _ _ s t _ h => ?_
  exact agree_bind (agree_markStage h runId _) fun _ _ s t _ h => agree_pure h rfl

/-- Once a run is created, its submission agrees with itself. -/
theorem agree_completeRun (h : s.Alike t) (m : Manager) (d : Descriptor) (tests : List ExecutedTest)
    (run : Run) :
    Agree plan Eq (m.completeRun d tests run) (m.completeRun d tests run) s t := by
  refine agree_bind (agree_markStage h run.id _) fun _ _ s t _ h => ?_
  refine agree_bind (agree_chooseAgent h d.info run.id) fun agent agent' s t hagent h => ?_
  refine agree_bind (agree_provideToken h hagent run.id) fun _ _ s t _ h => ?_
  refine agree_bind (agree_createScript h m d tests run.id) ?_
  rintro script _ s t rfl h
  refine agree_bind (agree_startRun h hagent run.id _ script) ?_
  rintro build _ s t rfl h
  exact agree_pure h rfl

end Requests

/-! ### The token that is handed out -/

/-- The access token that is made for the next run. -/
def World.nextAccessToken (w : World) : String := w.secrets.access (Store.nextId w.store.runs)

/-- Whether the access token that is made for the next run is the same in two worlds, and belongs to
a run already in both or in none. -/
def World.MakesSameToken (w w' : World) : Prop :=
  w.nextAccessToken = w'.nextAccessToken ∧
    (w.store.HasAccessToken w.nextAccessToken ↔ w'.store.HasAccessToken w'.nextAccessToken)

/-- A new access token is made whatever goes wrong. -/
theorem World.answerWith_newAccessToken (w : World) (mishap : Option Mishap) :
    w.answerWith mishap .newAccessToken = (w.nextAccessToken, w) :=
  Trial.answerWith_of_failing?_eq_none (fun _ => rfl) mishap w

/-- New access tokens are those that the worlds make. -/
theorem Call.answeredAlike_newAccessToken {w w' : World} (h : w.Alike w') :
    newAccessToken.AnsweredAlike newAccessToken
      (fun a b => a = w.nextAccessToken ∧ b = w'.nextAccessToken) w w' := by
  intro mishap
  rw [World.answerWith_newAccessToken, World.answerWith_newAccessToken]
  exact ⟨⟨rfl, rfl⟩, h⟩

section Submissions

variable {plan : Nat → Option Mishap} {s t : Trial}

/-- A submission that passed its check goes on alike where both worlds make the same token. -/
theorem agree_dispatch (h : s.Alike t) (htoken : s.world.MakesSameToken t.world) (m : Manager)
    (d : Descriptor) (tests : List ExecutedTest) :
    Agree plan Eq (m.dispatch d tests) (m.dispatch d tests) s t := by
  have hworld (s : Trial) :
      (exec (Trial.answer plan) (ask .newAccessToken) s).2.world = s.world := by
    rw [exec_ask, Trial.world_answer, World.answerWith_newAccessToken]
  have hmade : Agree plan _ (ask .newAccessToken) (ask .newAccessToken) s t :=
    agree_ask h (Call.answeredAlike_newAccessToken h.world)
  rw [Manager.dispatch_eq]
  refine hmade.bind ?_
  rintro _ _ ⟨rfl, rfl⟩
  rw [← htoken.1]
  have hnew : (exec (Trial.answer plan) (ask .newAccessToken) s).2.world.store.HasAccessToken
    s.world.nextAccessToken ↔
      (exec (Trial.answer plan) (ask .newAccessToken) t).2.world.store.HasAccessToken
          s.world.nextAccessToken := by
    rw [hworld, hworld, htoken.2, htoken.1]
  refine agree_bind (agree_ask hmade.after (Call.answeredAlike_createRun hmade.after.world hnew)) ?_
  intro created created' s t hcreated h
  refine agree_bind (agree_stored h hcreated) ?_
  rintro run _ s t rfl h
  exact agree_completeRun h m d tests run

/-- The checks of a descriptor look at no secret and leave the world as it is. -/
theorem agree_submitDescriptor (h : s.Alike t) (htoken : s.world.MakesSameToken t.world)
    (m : Manager) (d : Descriptor) :
    Agree plan Eq (m.submitDescriptor d) (m.submitDescriptor d) s t := by
  have hopen : Asks Call.IsOpen (m.check d) :=
    (m.asks_check d).mono fun c hc => by cases c <;> trivial
  have hworld (s : Trial) : (exec (Trial.answer plan) (m.check d) s).2.world = s.world := by
    have hlook : ∀ c mishap (w : World),
        c.IsLook → w = s.world → (w.answerWith mishap c).2 = s.world := by
      rintro c mishap w hc rfl
      exact World.answerWith_look hc mishap _
    exact Service.ends_iff.mp (Trial.ends_of_asks plan (m.asks_check d) hlook rfl)
  have hchecked : Agree plan Eq (m.check d) (m.check d) s t := agree_of_asks hopen h
  refine hchecked.bind ?_
  rintro tests _ rfl
  refine agree_dispatch hchecked.after ?_ m d tests
  rw [hworld, hworld]
  exact htoken

/-- A text is submitted alike where both worlds make the same token. -/
theorem agree_submitText (h : s.Alike t) (htoken : s.world.MakesSameToken t.world) (m : Manager)
    (text : String) : Agree plan Eq (m.submitText text) (m.submitText text) s t := by
  have hparsed (s : Trial) :
      (exec (Trial.answer plan) (Manager.parsed (Descriptor.parseYaml text)) s).2 = s := by
    cases Descriptor.parseYaml text <;> rfl
  have hopen : Asks Call.IsOpen (Manager.parsed (Descriptor.parseYaml text)) := by
    cases Descriptor.parseYaml text <;> trivial
  refine (agree_of_asks hopen h).bind ?_
  rintro d _ rfl
  rw [hparsed, hparsed]
  exact agree_submitDescriptor h htoken m d

end Submissions
end PipelineManager
