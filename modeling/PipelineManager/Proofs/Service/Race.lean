import PipelineManager.Proofs.Service.Stages
import PipelineManager.Proofs.Service.Steps
import PipelineManager.Service.Callback

/-!
# Submissions that race with their pipelines

A pipeline runs as soon as its job is started, before the submission has recorded the job and
reported its last stage. In a race the reports of the pipeline come between the calls that the
submission still makes. A report that comes first is of a later state, so the last stage of the
submission is then refused: the receipt of a running job is lost.
-/

namespace PipelineManager

open StatusRequest

/-- Whether a call starts a job. -/
def Call.starts : Call → Bool
  | startJob _ _ => true
  | _ => false

/-- Whether a call starts no job. -/
def Call.StartsNothing (c : Call) : Prop := c.starts = false

/-- The world after a pipeline has made reports on its run, each with the token of the run. -/
def World.reported (runId : Int) (w : World) (reports : List (RunState × Bool)) : World :=
  reports.foldl (fun w report =>
    (w.carryOut
      (Manager.recordStatus runId (w.secrets.communication runId) report.1 report.2).run).2) w

/-- A world in which a run is submitted, whether its job was started, and the reports that come
before the next call, before the call after that, and so on. -/
structure Race where
  world : World
  runId : Int
  due : List (List (RunState × Bool))
  started : Bool := false

namespace Race

/-- The answer to a call in a race. Reports come only when the job was started. -/
def answer (c : Call) (s : Race) : c.Answer × Race :=
  if s.started then
    let r := (s.world.reported s.runId (s.due.headD [])).answer c
    (r.1, { s with world := r.2, due := s.due.tail })
  else
    let r := s.world.answer c
    (r.1, { s with world := r.2, started := c.starts })

/-- The world when all reports that are still due have come. -/
def finish (s : Race) : World := s.world.reported s.runId s.due.flatten

/-- The result of a submission in a race, and the world after it and all reports. -/
def submit (m : Manager) (d : Descriptor) (w : World) (due : List (List (RunState × Bool))) :
    Except ServiceError Receipt × World :=
  let r := Service.exec answer (m.submitDescriptor d)
    { world := w, runId := Store.nextId w.store.runs, due }
  (r.1, r.2.finish)

/-! ## Before the job is started -/

/-- Until the job is started, a race is what the world makes of the service. -/
theorem exec_before {α : Type} {p : Service α} (hp : Service.Asks Call.StartsNothing p) (s : Race)
    (hs : s.started = false) :
    Service.exec answer p s =
      ((Service.exec World.answer p s.world).1,
        { s with world := (Service.exec World.answer p s.world).2 }) := by
  have hstep : ∀ (c : Call) (t : Race) (w : World), c.StartsNothing → t = { s with world := w } →
      (answer c t).1 = (World.answer c w).1 ∧
          (answer c t).2 = { s with world := (World.answer c w).2 } := by
    rintro c t w hc rfl
    have hnot : c.starts = false := hc
    simp [answer, hs, hnot]
  obtain ⟨hresult, hstate⟩ := hp.run_related hstep (s := s) (t := s.world) rfl
  exact Prod.ext hresult hstate

end Race

/-! ## What a submission asks for before -/

/-- No call that prepares the start of a job starts one. -/
theorem Call.Prepares.startsNothing {runId : Int} {c : Call} (h : c.Prepares runId) :
    c.StartsNothing := by
  cases c <;> first
    | rfl
    | exact absurd h id

/-- Everything before the start of the job starts nothing. -/
theorem Manager.asks_prepare (m : Manager) (d : Descriptor) (tests : List ExecutedTest) :
    Service.Asks Call.StartsNothing (m.prepare d tests) := by
  have hprepares {α : Type} {runId : Int} {p : Service α}
      (h : Service.Asks (Call.PreparesWith (tests.map (.ofExecuted d.info.netappId)) runId) p) :
      Service.Asks Call.StartsNothing p := h.mono fun _ h => h.1.startsNothing
  refine Service.asks_bind (Service.asks_ask rfl) fun _ =>
    Service.asks_bind (Service.asks_ask rfl) fun _ => ?_
  refine Service.asks_bind (Service.asks_stored _) fun run => ?_
  refine Service.asks_bind (hprepares (asks_markStage _ _)) fun _ => ?_
  refine Service.asks_bind (hprepares (asks_chooseAgent _ run.id)) fun agent => ?_
  refine Service.asks_bind (hprepares (asks_provideToken _ _)) fun _ => ?_
  exact Service.asks_bind (hprepares (m.asks_createScript _ _ _)) fun _ => Service.asks_pure _

/-! ## Reports of the pipeline -/

variable {w w' : World} {run : Run} {marks : List (RunState × Bool)}

/-- A run underway is found, unless the look-up of runs is broken. -/
theorem Underway.answer_run (h : Underway w run marks w') (hw : w.store.Consistent)
    (hget : RunCall.getRun ∉ w.broken) : World.answer (.run run.id) w' = (.ok (some run), w') := by
  have hget' : ¬ w'.broken.contains RunCall.getRun := by rw [h.setting.broken]; simpa using hget
  simp only [World.answer, World.ofStore, if_neg hget', h.run?_eq hw]

/-- The holder of the token of the new run is let in. -/
theorem Underway.ends_authorizedRun (h : Underway w run marks w') (hw : w.store.Consistent)
    (hget : RunCall.getRun ∉ w.broken) {token : String}
    (htoken : run.communicationToken = some token) {failed : ServiceError → World → Prop} :
    Service.Ends World.answer (Manager.authorizedRun run.id token) w'
      (fun r w'' => r = run ∧ w'' = w') failed := by
  rw [Manager.authorizedRun, Service.ends_bind, Manager.existingRun, Service.ends_ask_bind,
    h.answer_run hw hget, Service.ends_bind]
  refine Service.ends_stored_ok.mpr (Service.ends_pure.mpr ?_)
  rw [decide_eq_true htoken, Service.ends_bind]
  exact ⟨rfl, rfl⟩

/-- A pipeline reports a later state with the token of its run, and it is recorded. -/
theorem Underway.recordStatus (h : Underway w run marks w') (hw : w.store.Consistent)
    (hget : RunCall.getRun ∉ w.broken)
    (htoken : run.communicationToken = some (w.secrets.communication run.id)) {state : RunState}
    (hagent : state.isAgentReported) (hnext : IsNext state marks) (success : Bool) :
    Underway w run (marks ++ [(state, success)])
      (w'.carryOut
        (Manager.recordStatus run.id (w'.secrets.communication run.id) state success).run).2 := by
  obtain ⟨⟨entry, hentry⟩, hunderway⟩ := h.append hw hnext success
  have hends : Service.Ends World.answer
      (Manager.recordStatus run.id (w'.secrets.communication run.id) state success) w'
      (fun _ => Underway w run (marks ++ [(state, success)])) fun _ _ => False := by
    rw [h.setting.secrets, Manager.recordStatus]
    refine (h.ends_authorizedRun hw hget htoken).bind ?_
    rintro _ _ ⟨rfl, rfl⟩
    rw [hagent, Service.ends_bind]
    refine Service.ends_pure.mpr ?_
    rw [Service.ends_ask_bind, hentry]
    exact hunderway
  obtain ⟨_, -, hrecorded⟩ := hends.succeeds
  exact hrecorded

/-- Reports in forward order are all recorded. -/
theorem Underway.reported (h : Underway w run marks w') (hw : w.store.Consistent)
    (hget : RunCall.getRun ∉ w.broken)
    (htoken : run.communicationToken = some (w.secrets.communication run.id))
    {reports : List (RunState × Bool)} (hagent : ∀ report ∈ reports, report.1.isAgentReported)
    (hforward : (marks ++ reports).Pairwise fun a b => a.1.ordinal < b.1.ordinal) :
    Underway w run (marks ++ reports) (w'.reported run.id reports) := by
  induction reports generalizing marks w' with
  | nil => simpa [World.reported] using h
  | cons report rest ih =>
    have hnext : IsNext report.1 marks := isNext_of_pairwise hforward
    have hrecorded :=
      h.recordStatus hw hget htoken (hagent report (List.mem_cons_self ..)) hnext report.2
    have hsplit : marks ++ report :: rest = marks ++ [(report.1, report.2)] ++ rest := by simp
    rw [hsplit] at hforward ⊢
    exact ih hrecorded (fun r hr => hagent r (List.mem_cons_of_mem _ hr)) hforward

/-- A state before that of the latest report is refused. -/
theorem Underway.refuse (h : Underway w run marks w') (hw : w.store.Consistent)
    {last : RunState × Bool} (hlast : marks.getLast? = some last) {state : RunState}
    (hlate : state.ordinal < last.1.ordinal) (success : Bool) :
    World.answer (.appendStatus run.id state success) w' =
      (.error (.notForward ⟨last.1, state⟩), w') := by
  have hrun : (w'.store.run? run.id).isSome := by rw [h.run?_eq hw]; rfl
  have hmem : last ∈ marks := List.mem_of_getLast? hlast
  have hnot : ¬ IsLater ⟨run.id, state, success, w.now⟩ (requestsOf run.id w.now marks) := by
    intro hlater
    have hlt := hlater _ (List.mem_map_of_mem hmem)
    simp only at hlt
    omega
  have hlatest :
      (requestsOf run.id w.now marks).getLast? = some ⟨run.id, last.1, last.2, w.now⟩ := by
    simp [requestsOf, List.getLast?_map, hlast]
  obtain ⟨latest, hlatest', hrequest⟩ :=
    Store.Records.request_notLater (q := ⟨run.id, state, success, w.now⟩) (h.records hw) hrun hnot
  rw [h.maxima_requestsOf, getLast?_numbered hlatest] at hlatest'
  obtain rfl := Option.some.inj hlatest'
  have hne : ¬ (last.1 = state ∧ last.2 = success) := by
    rintro ⟨rfl, -⟩
    omega
  rw [World.answer_appendStatus h.setting.now, hrequest]
  simp [entryAt, hne]

/-! ## Once the job is started -/

/-- A race whose job was started, when `marks` are the reports of both sides so far. All that is
still due moves forward. -/
structure Racing (w : World) (run : Run) (marks : List (RunState × Bool)) (s : Race) : Prop where
  underway : Underway w run marks s.world
  runId : s.runId = run.id
  started : s.started = true
  token : run.communicationToken = some (w.secrets.communication run.id)
  agent : ∀ report ∈ s.due.flatten, report.1.isAgentReported
  forward : (marks ++ s.due.flatten).Pairwise fun a b => a.1.ordinal < b.1.ordinal

/-- The batch that is due next and all later ones are all that is due. -/
theorem headD_append_flatten_tail {α : Type} (due : List (List α)) :
    due.headD [] ++ due.tail.flatten = due.flatten := by
  cases due <;> rfl

/-- The world that the next call meets. -/
def Race.met (s : Race) : World := s.world.reported s.runId (s.due.headD [])

/-- Once the job is started, each call is preceded by the batch that is due. -/
theorem Race.answer_of_started {s : Race} (hs : s.started = true) (c : Call) :
    Race.answer c s =
      ((s.met.answer c).1, { s with world := (s.met.answer c).2, due := s.due.tail }) := by
  simp [Race.answer, Race.met, hs]

namespace Racing

variable {s : Race}

/-- The world that the next call meets has the reports due next behind the marks made so far. -/
theorem met (h : Racing w run marks s) (hw : w.store.Consistent)
    (hget : RunCall.getRun ∉ w.broken) :
    Underway w run (marks ++ s.due.headD []) s.met := by
  have hflatten := headD_append_flatten_tail s.due
  rw [Race.met, h.runId]
  refine h.underway.reported hw hget h.token (fun report hreport => h.agent report ?_) ?_
  · rw [← hflatten]
    exact List.mem_append_left _ hreport
  · have hforward := h.forward
    rw [← hflatten, ← List.append_assoc] at hforward
    exact (List.pairwise_append.mp hforward).1

/-- What a call makes of the world that it meets carries the race on. -/
theorem next (h : Racing w run marks s) {run' : Run} {w' : World}
    (hunderway : Underway w run' (marks ++ s.due.headD []) w') (hid : run'.id = run.id)
    (htoken : run'.communicationToken = run.communicationToken) :
    Racing w run' (marks ++ s.due.headD []) { s with world := w', due := s.due.tail } := by
  have hflatten := headD_append_flatten_tail s.due
  refine ⟨hunderway, by rw [hid]; exact h.runId, h.started, by rw [htoken, hid]; exact h.token, ?_,
    ?_⟩
  · intro report hreport
    refine h.agent report ?_
    rw [← hflatten]
    exact List.mem_append_right _ hreport
  · have hforward := h.forward
    rwa [← hflatten, ← List.append_assoc] at hforward

/-- In the end all reports are in the log. -/
theorem finish (h : Racing w run marks s) (hw : w.store.Consistent)
    (hget : RunCall.getRun ∉ w.broken) :
    Underway w run (marks ++ s.due.flatten) s.finish := by
  rw [Race.finish, h.runId]
  exact h.underway.reported hw hget h.token h.agent h.forward

end Racing

/-! ## The last two calls -/

/-- The reports that come before the last stage of the submission is reported: it still makes two
calls, to record the job and for that report. -/
def early (due : List (List (RunState × Bool))) : List (RunState × Bool) := (due.take 2).flatten

/-- The early reports are those of the first two batches. -/
theorem early_eq (due : List (List (RunState × Bool))) :
    early due = due.headD [] ++ due.tail.headD [] := by
  rcases due with _ | ⟨first, _ | ⟨second, rest⟩⟩ <;> simp [early]

/-- Early reports are reports that are due. -/
theorem mem_flatten_of_mem_early {due : List (List (RunState × Bool))} {report : RunState × Bool}
    (h : report ∈ early due) : report ∈ due.flatten := by
  obtain ⟨reports, hreports, hmem⟩ := List.mem_flatten.mp h
  exact List.mem_flatten.mpr ⟨reports, List.mem_of_mem_take hreports, hmem⟩

/-- The states that agents report lie behind that of a submitted script. -/
theorem ordinal_of_isAgentReported {state : RunState} (h : state.isAgentReported) :
    RunState.submittedPipelineScript.ordinal < state.ordinal := of_decide_eq_true h

/-- What a pipeline reports in forward order comes after the stages of the submission. -/
theorem pairwise_reached_append (n : Nat) {reports : List (RunState × Bool)}
    (hagent : ∀ report ∈ reports, report.1.isAgentReported)
    (hforward : reports.Pairwise fun a b => a.1.ordinal < b.1.ordinal) :
    (reached n ++ reports).Pairwise fun a b => a.1.ordinal < b.1.ordinal := by
  have hstages : submissionStages.Pairwise fun a b => a.ordinal < b.ordinal := by decide
  have hlast : ∀ state ∈ submissionStages,
      state.ordinal ≤ RunState.submittedPipelineScript.ordinal := by decide
  refine List.pairwise_append.mpr
    ⟨List.pairwise_map.mpr (hstages.sublist (List.take_sublist _ _)), hforward, ?_⟩
  intro mark hmark report hreport
  obtain ⟨state, hstate, rfl⟩ := List.mem_map.mp hmark
  have hbefore := hlast state (List.mem_of_mem_take hstate)
  have hafter := ordinal_of_isAgentReported (hagent report hreport)
  exact Nat.lt_of_le_of_lt hbefore hafter

/-- Recording the job succeeds in a race when it does outside of one. -/
theorem Racing.answer_setJob {s : Race} (h : Racing w run marks s) (hw : w.store.Consistent)
    (hget : RunCall.getRun ∉ w.broken) (hset : RunCall.setJob ∉ w.broken) (name : String)
    (build : Nat) :
    (Race.answer (.setJob run.id name (some build)) s).1 = .ok () ∧
      Racing w { run with jobName := some name, buildNumber := some build }
        (marks ++ s.due.headD []) (Race.answer (.setJob run.id name (some build)) s).2 ∧
      (Race.answer (.setJob run.id name (some build)) s).2.due = s.due.tail := by
  have hmet := h.met hw hget
  set c : Call := .setJob run.id name (some build)
  have hworking : ¬ s.met.broken.contains RunCall.setJob := by
    rw [hmet.setting.broken]
    simpa using hset
  have hok : (World.answer c s.met).1 = .ok () := congrArg Prod.fst (if_neg hworking)
  have hchanges : World.Changes run.id _ s.met _ := World.changes_answer (c := c) rfl s.met
  have hfault : c.fault? (World.answer c s.met).1 = none := by rw [hok]; rfl
  rw [hfault] at hchanges
  rw [Race.answer_of_started h.started]
  exact ⟨hok, h.next (hmet.changed hw rfl hchanges) rfl rfl, rfl⟩

/-- When no report has come before, the last stage is recorded. -/
theorem Racing.answer_mark {s : Race} (h : Racing w run (reached 4) s) (hw : w.store.Consistent)
    (hget : RunCall.getRun ∉ w.broken) (hnone : s.due.headD [] = []) :
    (∃ entry, (Race.answer (.appendStatus run.id .submittedPipelineScript true) s).1 = .ok entry) ∧
      Racing w run (reached 5)
        (Race.answer (.appendStatus run.id .submittedPipelineScript true) s).2 ∧
      (Race.answer (.appendStatus run.id .submittedPipelineScript true) s).2.due = s.due.tail := by
  have hmet := h.met hw hget
  rw [hnone, List.append_nil] at hmet
  have hflatten := headD_append_flatten_tail s.due
  rw [hnone, List.nil_append] at hflatten
  have hnext : IsNext .submittedPipelineScript (reached 4) := by decide
  obtain ⟨hentry, hunderway⟩ := hmet.append hw hnext true
  have hagent := h.agent
  have hforward := pairwise_reached_append 5 h.agent (List.pairwise_append.mp h.forward).2.1
  rw [← hflatten] at hagent hforward
  rw [Race.answer_of_started h.started]
  exact ⟨hentry, ⟨hunderway, h.runId, h.started, h.token, hagent, hforward⟩, rfl⟩

/-- When a report has come before, the last stage is refused. -/
theorem Racing.answer_mark_refused {s : Race} (h : Racing w run marks s) (hw : w.store.Consistent)
    (hget : RunCall.getRun ∉ w.broken) {last : RunState × Bool}
    (hlast : (marks ++ s.due.headD []).getLast? = some last) (hagent : last.1.isAgentReported)
    (success : Bool) :
    (Race.answer (.appendStatus run.id .submittedPipelineScript success) s).1 =
        .error (.notForward ⟨last.1, .submittedPipelineScript⟩) ∧
      Racing w run (marks ++ s.due.headD [])
        (Race.answer (.appendStatus run.id .submittedPipelineScript success) s).2 ∧
      (Race.answer (.appendStatus run.id .submittedPipelineScript success) s).2.due =
        s.due.tail := by
  have hmet := h.met hw hget
  have hrefused := hmet.refuse hw hlast (ordinal_of_isAgentReported hagent) success
  rw [Race.answer_of_started h.started, hrefused]
  exact ⟨rfl, h.next hmet rfl rfl, rfl⟩

/-- The latest of some reports is the pipeline's when one of those behind the stages is. -/
theorem exists_getLast?_append (marks : List (RunState × Bool)) {reports : List (RunState × Bool)}
    (hreports : reports ≠ [])
    (hagent : ∀ report ∈ reports, report.1.isAgentReported) :
    ∃ last, reports.getLast? = some last ∧ (marks ++ reports).getLast? = some last ∧
      last.1.isAgentReported := by
  obtain ⟨last, hlast⟩ := Option.isSome_iff_exists.mp (List.getLast?_isSome.mpr hreports)
  exact ⟨last, hlast, by simp [List.getLast?_append, hlast],
    hagent last (List.mem_of_getLast? hlast)⟩

/-- A submission is refused its last stage, and refused to say so. -/
theorem Racing.ends_markStage_refused {s : Race} (h : Racing w run marks s)
    (hw : w.store.Consistent) (hget : RunCall.getRun ∉ w.broken) {last : RunState × Bool}
    (hlast : (marks ++ s.due.headD []).getLast? = some last) (hagent : last.1.isAgentReported)
    {ok : Unit → Race → Prop} :
    Service.Ends Race.answer (markStage run.id .submittedPipelineScript) s ok
      (fun e s' => e = .status (.notForward ⟨last.1, .submittedPipelineScript⟩) ∧
        ∃ marks', Racing w run marks' s' ∧ marks' ++ s'.due.flatten = marks ++ s.due.flatten) := by
  obtain ⟨hrefused, h₁, hdue₁⟩ := h.answer_mark_refused hw hget hlast hagent true
  set s₁ := (Race.answer (.appendStatus run.id .submittedPipelineScript true) s).2
  rw [markStage, Service.ends_ask_bind, hrefused]
  have hlater : ∃ last', (marks ++ s.due.headD [] ++ s₁.due.headD []).getLast? = some last' ∧
      last'.1.isAgentReported := by
    by_cases hnone : s₁.due.headD [] = []
    · exact ⟨last, by rw [hnone, List.append_nil, hlast], hagent⟩
    · have hagents : ∀ report ∈ s₁.due.headD [], report.1.isAgentReported := fun report hreport =>
        h₁.agent report (by rw [← headD_append_flatten_tail]; exact List.mem_append_left _ hreport)
      obtain ⟨last', -, hlast', hagent'⟩ :=
        exists_getLast?_append (marks ++ s.due.headD []) hnone hagents
      exact ⟨last', hlast', hagent'⟩
  obtain ⟨last', hlast', hagent'⟩ := hlater
  obtain ⟨-, h₂, hdue₂⟩ := h₁.answer_mark_refused hw hget hlast' hagent' false
  show Service.Ends Race.answer (failStage run.id .submittedPipelineScript _) s₁ _ _
  rw [failStage, Service.ends_ask_bind]
  refine ⟨rfl, _, h₂, ?_⟩
  rw [hdue₂, List.append_assoc, headD_append_flatten_tail, hdue₁, List.append_assoc,
    headD_append_flatten_tail]

/-- A race in which `all` will have been reported on a run in the end. -/
def Raced (w : World) (runId : Int) (all : List (RunState × Bool)) (s : Race) : Prop :=
  ∃ run marks, Racing w run marks s ∧ run.id = runId ∧ marks ++ s.due.flatten = all

/-- When all is delivered, the log of a raced run lists every report once. -/
theorem Raced.finish {runId : Int} {all : List (RunState × Bool)} {s : Race}
    (h : Raced w runId all s) (hw : w.store.Consistent) (hget : RunCall.getRun ∉ w.broken) :
    s.finish.store.statusLog runId = .ok (numbered (requestsOf runId w.now all)) := by
  obtain ⟨run, marks, hracing, rfl, rfl⟩ := h
  exact (hracing.finish hw hget).statusLog_eq hw

/-- What is left of the last stage once the job is started. -/
def closing (runId : Int) (name : String) (build : Nat) : Service Nat := do
  stage runId .submittedPipelineScript
    ((← Service.ask (.setJob runId name (some build))).mapError .storage)
  markStage runId .submittedPipelineScript
  return build

/-- No report has come before the last stage is reported, and it is recorded. Or one has, and the
submission fails with the refusal. -/
theorem Racing.ends_closing {s : Race} (h : Racing w run (reached 4) s) (hw : w.store.Consistent)
    (hget : RunCall.getRun ∉ w.broken) (hset : RunCall.setJob ∉ w.broken) (name : String)
    (build : Nat) :
    Service.Ends Race.answer (closing run.id name build) s
      (fun recorded s' => recorded = build ∧ early s.due = [] ∧
        Raced w run.id (reached 5 ++ s.due.flatten) s')
      (fun e s' => ∃ last, (early s.due).getLast? = some last ∧
        e = .status (.notForward ⟨last.1, .submittedPipelineScript⟩) ∧
        Raced w run.id (reached 4 ++ s.due.flatten) s') := by
  obtain ⟨hok, h₁, hdue₁⟩ := h.answer_setJob hw hget hset name build
  set s₁ := (Race.answer (.setJob run.id name (some build)) s).2
  rw [closing, Service.ends_ask_bind, hok, Service.ends_bind]
  refine Service.ends_stage_ok.mpr ?_
  rw [Service.ends_bind]
  have hearly := early_eq s.due
  have hflatten := headD_append_flatten_tail s.due
  rw [← hdue₁] at hearly hflatten
  by_cases hnone : early s.due = []
  · obtain ⟨hnone₁, hnone₂⟩ := List.append_eq_nil_iff.mp (hearly ▸ hnone)
    rw [hnone₁, List.append_nil] at h₁
    obtain ⟨⟨entry, hentry⟩, h₂, hdue₂⟩ := h₁.answer_mark hw hget hnone₂
    have hrest := headD_append_flatten_tail s₁.due
    rw [hnone₁, List.nil_append] at hflatten
    rw [hnone₂, List.nil_append, hflatten] at hrest
    rw [markStage, Service.ends_ask_bind, hentry]
    exact ⟨rfl, hnone, _, _, h₂, rfl, by rw [hdue₂, hrest]⟩
  · have hagents : ∀ report ∈ early s.due, report.1.isAgentReported := fun report hreport =>
      h.agent report (mem_flatten_of_mem_early hreport)
    obtain ⟨last, hlast, hlast', hagent⟩ := exists_getLast?_append (reached 4) hnone hagents
    rw [hearly, ← List.append_assoc] at hlast'
    refine (h₁.ends_markStage_refused hw hget hlast' hagent).mono (fun _ _ h' => h') ?_
    rintro e s' ⟨rfl, marks', hracing, hall⟩
    refine ⟨last, hlast, rfl, _, marks', hracing, rfl, ?_⟩
    rw [hall, List.append_assoc, hflatten]

/-! ## From the undisturbed submission to the race -/

/-- An undisturbed launch keeps a submission under way. -/
theorem Underway.exec_launch (h : Underway w run marks w') (hw : w.store.Consistent) (agent : Agent)
    (name script : String) :
    Underway w run marks (Service.exec World.answer (Manager.launch agent name script) w').2 := by
  have hasks : Service.Asks (fun c => c.StaysWith run.id ∧ ∀ r, c.effect r = r)
      (Manager.launch agent name script) := by
    refine Service.asks_bind (Service.asks_ask ⟨trivial, fun _ => rfl⟩) fun submitted => ?_
    split
    · exact Service.asks_pure _
    · exact Service.asks_ask ⟨trivial, fun _ => rfl⟩
  have hstep : ∀ (c : Call) (v : World), (c.StaysWith run.id ∧ ∀ r, c.effect r = r) →
      Underway w run marks v → Underway w run marks (World.answer c v).2 := by
    rintro c v ⟨hc, heffect⟩ hv
    have hchanges := World.changes_answer hc v
    rw [Call.effectIf_of_effect heffect] at hchanges
    exact hv.changed hw rfl hchanges
  exact Program.Asks.run_invariant hstep hasks h

/-- A launch submits the job and starts it, and gives the number of the build. -/
theorem Manager.exec_launch {σ : Type} (answer : (c : Call) → σ → c.Answer × σ) (s : σ)
    (agent : Agent) (name script : String) :
    Service.exec answer (launch agent name script) s =
      let submitted := answer (.submitJob agent name script) s
      match submitted.1 with
      | .error e => (.ok (.error e), submitted.2)
      | .ok () =>
        let started := answer (.startJob agent name) submitted.2
        (.ok started.1, started.2) := by
  rw [launch, Service.exec_bind, Service.exec_ask]
  rcases hsubmitted : answer (.submitJob agent name script) s with ⟨_ | _, s'⟩ <;> rfl

/-- A job that is started undisturbed is started in a race, which begins with that. -/
theorem Race.exec_launch {agent : Agent} {name script : String} {s : Race} {build : Nat}
    (hlaunched : (Service.exec World.answer (Manager.launch agent name script) s.world).1 =
      .ok (.ok build))
    (hs : s.started = false) :
    Service.exec answer (Manager.launch agent name script) s = (.ok (.ok build),
      { s with
        world := (Service.exec World.answer (Manager.launch agent name script) s.world).2
        started := true }) := by
  rw [Manager.exec_launch] at hlaunched ⊢
  rw [Manager.exec_launch]
  have hsubmit : Race.answer (.submitJob agent name script) s =
      ((World.answer (.submitJob agent name script) s.world).1,
        { s with world := (World.answer (.submitJob agent name script) s.world).2 }) := by
    simp [Race.answer, hs, Call.starts]
  rcases hsubmitted : World.answer (.submitJob agent name script) s.world with ⟨e | _, w₁⟩
  · simp [hsubmitted] at hlaunched
  · simp only [hsubmitted, Except.ok.injEq] at hlaunched
    simp only [hsubmit, hsubmitted]
    simp [Race.answer, hs, Call.starts, hlaunched]

/-- A stage that failed ends in an error. -/
theorem not_ends_failStage {σ α : Type} {answer : (c : Call) → σ → c.Answer × σ} {s : σ}
    {runId : Int} {state : RunState} {e : ServiceError} {ok : α → σ → Prop} :
    ¬ Service.Ends answer (failStage runId state e) s ok fun _ _ => False := by
  rw [failStage, Service.ends_ask_bind]
  exact id

/-- A stage that was reported in the end was recorded. -/
theorem of_ends_markStage {σ : Type} {answer : (c : Call) → σ → c.Answer × σ} {s : σ} {runId : Int}
    {state : RunState} {holds : Prop}
    (h : Service.Ends answer (markStage runId state) s (fun _ _ => holds) fun _ _ => False) :
    holds := by
  rw [markStage, Service.ends_ask_bind] at h
  split at h
  · exact h
  · exact absurd h not_ends_failStage

/-- A prepared submission that succeeds undisturbed has started its job and recorded it. -/
theorem Underway.started_of_ends (h : Underway w run marks w') (hw : w.store.Consistent)
    {info : TestInfo} {prepared : PreparedRun} {receipt : Receipt}
    (hends : Service.Ends World.answer (Manager.startPrepared info prepared) w'
      (fun r _ => r = receipt) fun _ _ => False) :
    ∃ build, (Service.exec World.answer
        (Manager.launch prepared.agent (jobName info prepared.run.id) prepared.script) w').1 =
      .ok (.ok build) ∧
      RunCall.setJob ∉ w.broken ∧
      receipt = ⟨prepared.run.id, info.testbedId, jobName info prepared.run.id, build,
        prepared.run.accessToken⟩ := by
  have hlaunched := h.exec_launch hw prepared.agent (jobName info prepared.run.id) prepared.script
  unfold Manager.startPrepared Manager.startRun at hends
  dsimp only at hends
  rw [Service.ends_bind, Service.ends_bind, Service.Ends] at hends
  rcases hexec : Service.exec World.answer
    (Manager.launch prepared.agent (jobName info prepared.run.id) prepared.script) w' with
      ⟨e | r, w₁⟩ <;>
    rw [hexec] at hends hlaunched
  · exact hends.elim
  dsimp only at hends
  cases r with
  | error cause =>
    rw [Service.ends_bind] at hends
    exact absurd hends not_ends_failStage
  | ok build =>
    rw [Service.ends_bind] at hends
    have hrecorded := Service.ends_stage_ok.mp hends
    rw [Service.ends_ask_bind, Service.ends_bind] at hrecorded
    set c : Call := .setJob prepared.run.id (jobName info prepared.run.id) (some build)
    by_cases hset : RunCall.setJob ∈ w.broken
    · have hbroken : (World.answer c w₁).1 = .error (.broken .setJob) := by
        refine congrArg Prod.fst (if_pos ?_)
        rw [hlaunched.setting.broken]
        simpa using hset
      rw [hbroken] at hrecorded
      exact absurd hrecorded not_ends_failStage
    · have hworking : (World.answer c w₁).1 = .ok () := by
        refine congrArg Prod.fst (if_neg ?_)
        rw [hlaunched.setting.broken]
        simpa using hset
      rw [hworking] at hrecorded
      have hmarked := Service.ends_stage_ok.mp hrecorded
      rw [Service.ends_bind] at hmarked
      exact ⟨build, rfl, hset, (of_ends_markStage hmarked).symm⟩

/-- A submission checks, prepares and starts. -/
theorem Manager.exec_submitDescriptor {σ : Type} (answer : (c : Call) → σ → c.Answer × σ) (s : σ)
    (m : Manager) (d : Descriptor) :
    Service.exec answer (m.submitDescriptor d) s =
      Service.exec answer (do startPrepared d.info (← (do m.prepare d (← m.check d)))) s := by
  rw [submitDescriptor, Service.exec_bind, Service.exec_bind, Service.exec_bind]
  rcases Service.exec answer (m.check d) s with ⟨e | tests, s'⟩
  · rfl
  · dsimp only
    rw [dispatch, Service.exec_bind]

/-- What is prepared undisturbed is under way, and its run has its token. -/
theorem Manager.underway_of_prepared {m : Manager} {d : Descriptor} (hw : w.store.Consistent)
    {prepared : PreparedRun}
    (hprepared : Service.exec World.answer (do m.prepare d (← m.check d)) w = (.ok prepared, w')) :
    ∃ run, Underway w run (reached 4) w' ∧ prepared.run.id = run.id ∧
      run.communicationToken = some (w.secrets.communication run.id) := by
  have hcheck : ∃ tests, (w.carryOut (m.check d).run).1 = .ok tests := by
    rw [Service.exec_bind] at hprepared
    rcases hexec : Service.exec World.answer (m.check d) w with
      ⟨e | tests, w₀⟩ <;> rw [hexec] at hprepared
    · cases hprepared
    · exact ⟨tests, congrArg Prod.fst hexec⟩
  obtain ⟨tests, hcheck⟩ := hcheck
  have hends :
    Service.Ends (Trial.answer fun _ => none) (do m.prepare d (← m.check d)) { world := w }
      (fun prepared t => ∃ run, GoingWell w run (reached 4) t ∧ prepared.run.id = run.id ∧
        run.communicationToken = some (w.secrets.communication run.id))
      (HasStopped m d tests w) := by
    refine (m.ends_check d hcheck).bind ?_
    rintro _ t ⟨rfl, rfl, hpast⟩
    exact m.ends_prepare d _ hw hpast
  obtain ⟨hresult, hworld⟩ := Trial.exec_undisturbed (do m.prepare d (← m.check d)) { world := w }
  rw [hprepared] at hresult hworld
  obtain ⟨run, hwell, hid, htoken⟩ := hends.of_result hresult
  have hunderway := hwell.underway
  rw [hworld] at hunderway
  exact ⟨run, hunderway, hid, htoken⟩

/-! ## The outcome of a race -/

/-- Whether a submission returned a receipt, and its last stage stands in the log of its run before
everything that the pipeline reported. -/
def KeepsReceipt (runId : Int) (outcome : Except ServiceError Receipt × World) : Prop :=
  (∃ receipt, outcome.1 = .ok receipt) ∧
    ∃ before entry after, outcome.2.store.statusLog runId = .ok (before ++ entry :: after) ∧
      entry.state = .submittedPipelineScript ∧ entry.success = true ∧
      ∀ e ∈ before, ¬ e.state.isAgentReported

/-- The outcome of a submission that succeeds undisturbed and meets reports of its pipeline. -/
inductive RaceOutcome (w : World) (receipt : Receipt) (due : List (List (RunState × Bool))) :
    Except ServiceError Receipt × World → Prop
  | kept {w' : World} (hearly : early due = [])
      (hlog : w'.store.statusLog receipt.runId =
        .ok (numbered (requestsOf receipt.runId w.now (reached 5 ++ due.flatten)))) :
      RaceOutcome w receipt due (.ok receipt, w')
  | lost {w' : World} {last : RunState × Bool} (hearly : (early due).getLast? = some last)
      (hlog : w'.store.statusLog receipt.runId =
        .ok (numbered (requestsOf receipt.runId w.now (reached 4 ++ due.flatten)))) :
      RaceOutcome w receipt due
        (.error (.status (.notForward ⟨last.1, .submittedPipelineScript⟩)), w')

/-- A prepared submission whose job starts comes to one of the two outcomes. -/
theorem Underway.ends_startPrepared (h : Underway w run (reached 4) w') (hw : w.store.Consistent)
    (hget : RunCall.getRun ∉ w.broken) (hset : RunCall.setJob ∉ w.broken)
    (htoken : run.communicationToken = some (w.secrets.communication run.id)) {info : TestInfo}
    {prepared : PreparedRun} (hid : prepared.run.id = run.id) {build : Nat}
    (hlaunched :
      (Service.exec World.answer
        (Manager.launch prepared.agent (jobName info prepared.run.id) prepared.script) w').1 =
      .ok (.ok build))
    {due : List (List (RunState × Bool))}
    (hagent : ∀ report ∈ due.flatten, report.1.isAgentReported)
    (hforward : due.flatten.Pairwise fun a b => a.1.ordinal < b.1.ordinal) {receipt : Receipt}
    (hreceipt : receipt =
      ⟨prepared.run.id, info.testbedId, jobName info prepared.run.id, build,
        prepared.run.accessToken⟩) :
    Service.Ends Race.answer (Manager.startPrepared info prepared)
      { world := w', runId := Store.nextId w.store.runs, due }
      (fun r s' => RaceOutcome w receipt due (.ok r, s'.finish))
      (fun e s' => RaceOutcome w receipt due (.error e, s'.finish)) := by
  have hrunId : receipt.runId = run.id := by rw [hreceipt, hid]
  unfold Manager.startPrepared Manager.startRun
  dsimp only
  rw [Service.ends_bind, Service.ends_bind]
  refine Service.Ends.of_ok (congrArg Prod.fst (Race.exec_launch hlaunched rfl)) ?_
  rw [Race.exec_launch hlaunched rfl, Service.ends_bind]
  refine Service.ends_stage_ok.mpr ?_
  have hracing : Racing w run (reached 4) {
      world := (Service.exec World.answer
        (Manager.launch prepared.agent (jobName info prepared.run.id) prepared.script) w').2
      runId := Store.nextId w.store.runs
      due
      started := true } :=
    ⟨h.exec_launch hw _ _ _, h.isNext.symm, rfl, htoken, hagent,
      pairwise_reached_append 4 hagent hforward⟩
  rw [hid] at hracing hreceipt ⊢
  refine (hracing.ends_closing hw hget hset (jobName info run.id) build).mono ?_ ?_
  · rintro _ s' ⟨rfl, hearly, hraced⟩
    refine Service.ends_pure.mpr ?_
    rw [← hreceipt]
    exact .kept hearly (hrunId ▸ hraced.finish hw hget)
  · rintro e s' ⟨last, hearly, rfl, hraced⟩
    exact .lost hearly (hrunId ▸ hraced.finish hw hget)

/-- A submission that succeeds undisturbed comes to one of the two outcomes in a race. -/
theorem Race.submit_outcome (m : Manager) (d : Descriptor) (hw : w.store.Consistent)
    (hget : RunCall.getRun ∉ w.broken) {receipt : Receipt}
    (hok : (w.carryOut (m.submitDescriptor d).run).1 = .ok receipt)
    {due : List (List (RunState × Bool))}
    (hagent : ∀ report ∈ due.flatten, report.1.isAgentReported)
    (hforward : due.flatten.Pairwise fun a b => a.1.ordinal < b.1.ordinal) :
    RaceOutcome w receipt due (Race.submit m d w due) := by
  have hsucceeded : (Service.exec World.answer (m.submitDescriptor d) w).1 = .ok receipt := hok
  rw [Manager.exec_submitDescriptor, Service.exec_bind] at hsucceeded
  rcases hprepared : Service.exec World.answer (do m.prepare d (← m.check d)) w with
    ⟨e | prepared, w₁⟩ <;>
    rw [hprepared] at hsucceeded
  · cases hsucceeded
  obtain ⟨run, hunderway, hid, htoken⟩ := Manager.underway_of_prepared hw hprepared
  obtain ⟨build, hlaunched, hset, hreceipt⟩ := hunderway.started_of_ends hw (.of_ok hsucceeded rfl)
  let s : Race := { world := w, runId := Store.nextId w.store.runs, due }
  -- Nothing is started before, so the race only begins with what was prepared.
  have hasks : Service.Asks Call.StartsNothing (do m.prepare d (← m.check d)) := by
    refine Service.asks_bind ((m.asks_check d).mono fun c hc => ?_) fun tests =>
      m.asks_prepare d tests
    cases c <;> first | rfl | exact absurd hc id
  have hbefore := Race.exec_before hasks s rfl
  rw [hprepared] at hbefore
  have hexec : Service.exec Race.answer (m.submitDescriptor d) s =
      Service.exec Race.answer (Manager.startPrepared d.info prepared) { s with world := w₁ } := by
    rw [Manager.exec_submitDescriptor, Service.exec_bind, hbefore]
  have hends :=
    hunderway.ends_startPrepared hw hget hset htoken hid hlaunched hagent hforward hreceipt
  show RaceOutcome w receipt due ((Service.exec Race.answer (m.submitDescriptor d) s).1,
    (Service.exec Race.answer (m.submitDescriptor d) s).2.finish)
  rw [hexec]
  exact hends.elim (Q := fun r (s' : Race) => RaceOutcome w receipt due (r, s'.finish))

/-- The entry of a request stands behind those of the requests before. -/
theorem numbered_append_cons (qs rest : List StatusRequest) (q : StatusRequest) :
    ∃ after, numbered (qs ++ q :: rest) = numbered qs ++ entryAt qs.length q :: after := by
  refine ⟨rest.mapIdx fun place => entryAt (place + 1 + qs.length), ?_⟩
  simp [numbered, List.mapIdx_append, List.mapIdx_cons]

/-- A raced submission gives its receipt iff no report is early. -/
theorem RaceOutcome.keepsReceipt_iff_early {receipt : Receipt} {due : List (List (RunState × Bool))}
    {outcome : Except ServiceError Receipt × World} (h : RaceOutcome w receipt due outcome) :
    KeepsReceipt receipt.runId outcome ↔ early due = [] := by
  cases h with
  | @lost w' last hearly hlog =>
    constructor
    · rintro ⟨⟨receipt', hreceipt⟩, -⟩
      cases hreceipt
    · intro hnone
      simp [hnone] at hearly
  | @kept w' hearly hlog =>
    refine ⟨fun _ => hearly, fun _ => ⟨⟨receipt, rfl⟩, ?_⟩⟩
    obtain ⟨after, hafter⟩ := numbered_append_cons (requestsOf receipt.runId w.now (reached 4))
      (requestsOf receipt.runId w.now due.flatten)
        ⟨receipt.runId, .submittedPipelineScript, true, w.now⟩
    refine ⟨_, _, after, hlog.trans (congrArg _ (Eq.trans ?_ hafter)), rfl, rfl, ?_⟩
    · simp [requestsOf, reached, submissionStages]
    · intro e he
      obtain ⟨place, q, hq, rfl⟩ := exists_of_mem_numbered he
      obtain ⟨mark, hmark, rfl⟩ := List.mem_map.mp hq
      have hstages : ∀ mark ∈ reached 4, ¬ mark.1.isAgentReported := by decide
      exact hstages mark hmark

/-- A submission that succeeds undisturbed keeps its receipt in a race exactly when no report of
its pipeline comes before its last stage is reported. If one does, the last stage is refused and
the receipt is lost, while the log goes on without it. -/
theorem Manager.keepsReceipt_iff (m : Manager) (d : Descriptor) {w : World} (hw : w.store.Reachable)
    (hget : RunCall.getRun ∉ w.broken) {receipt : Receipt}
    (hok : (w.carryOut (m.submitDescriptor d).run).1 = .ok receipt)
    {due : List (List (RunState × Bool))}
    (hagent : ∀ report ∈ due.flatten, report.1.isAgentReported)
    (hforward : due.flatten.Pairwise fun a b => a.1.ordinal < b.1.ordinal) :
    (KeepsReceipt receipt.runId (Race.submit m d w due) ↔ early due = []) ∧
      RaceOutcome w receipt due (Race.submit m d w due) := by
  have houtcome := Race.submit_outcome m d hw.consistent hget hok hagent hforward
  exact ⟨houtcome.keepsReceipt_iff_early, houtcome⟩

/-- Only a success has a value. -/
theorem toOption_eq_some {ε α : Type} {r : Except ε α} {a : α} (h : r.toOption = some a) :
    r = .ok a := by
  cases r with
  | ok b => exact congrArg _ (Option.some.inj h)
  | error e => cases h

/-- The receipt of the small submission when nothing interferes. -/
theorem smallReceipt_eq :
    (smallWorld.carryOut (smallManager.submitDescriptor smallDescriptor).run).1 =
    .ok ⟨1, "tb", "app-net-1", 0, "access"⟩ :=
  toOption_eq_some (by decide +kernel)

/-- Reports of which one comes before the job is recorded, and one when the submission has ended. -/
def earlyReports : List (List (RunState × Bool)) :=
  [[(.environmentSetup, true)], [], [], [(.testEnded, false)]]

/-- The hypotheses on a race are met by the small submission with early reports. -/
theorem Manager.keepsReceipt_iff_small :
    smallWorld.store.Reachable ∧ RunCall.getRun ∉ smallWorld.broken ∧
      (smallWorld.carryOut (smallManager.submitDescriptor smallDescriptor).run).1 =
        .ok ⟨1, "tb", "app-net-1", 0, "access"⟩ ∧
      (∀ report ∈ earlyReports.flatten, report.1.isAgentReported) ∧
      (earlyReports.flatten.Pairwise fun a b => a.1.ordinal < b.1.ordinal) ∧
      (KeepsReceipt 1 (Race.submit smallManager smallDescriptor smallWorld earlyReports) ↔
        early earlyReports = []) :=
  ⟨smallWorld_reachable, by decide, smallReceipt_eq, by decide, by decide,
    (keepsReceipt_iff smallManager smallDescriptor smallWorld_reachable (by decide) smallReceipt_eq
      (by decide) (by decide)).1⟩

/-- A submission in which every call succeeds loses its receipt to a report of its own pipeline. -/
theorem Manager.receipt_lost_small :
    (smallWorld.carryOut (smallManager.submitDescriptor smallDescriptor).run).1 =
        .ok ⟨1, "tb", "app-net-1", 0, "access"⟩ ∧
      (∀ report ∈ earlyReports.flatten, report.1.isAgentReported) ∧
      (earlyReports.flatten.Pairwise fun a b => a.1.ordinal < b.1.ordinal) ∧
      ¬ KeepsReceipt 1 (Race.submit smallManager smallDescriptor smallWorld earlyReports) := by
  have houtcome : RaceOutcome _ _ earlyReports _ := Race.submit_outcome smallManager smallDescriptor
    smallWorld_reachable.consistent (by decide) smallReceipt_eq (by decide) (by decide)
  refine ⟨smallReceipt_eq, by decide, by decide, fun hkeeps => ?_⟩
  exact absurd (houtcome.keepsReceipt_iff_early.mp hkeeps) (by decide)

end PipelineManager
