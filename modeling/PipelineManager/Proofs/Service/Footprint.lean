import PipelineManager.Proofs.Service.Archives
import PipelineManager.Proofs.Service.Tears

/-!
# What publications change

A publication records the verdicts test by test, asks the agent for the log of the build, keeps it,
and records where the results are. It may fail at any of these steps, and takes none of them back.
So a failure leaves verdicts that are right, whatever was written to the file of the log when that
broke off, and directories on the way to it. Where the results are is recorded last, and only the
answer can fail behind it.
-/

namespace PipelineManager

open Service

/-! ## Verdicts by the files -/

/-- What the files in a directory of results say about a test: what its report says if it can be
read, and else that the test has failed at no time. -/
inductive Warehouse.Attests (W : Warehouse) (resultsDir fullName : String) : Verdict → Prop
  | report {bytes : ByteArray} {report : Report}
      (hfile : W.download (resultsDir ++ "/" ++ fullName ++ "/output.xml") = .ok bytes)
      (hreport : Report.read? (Text.Utf8.lossy bytes.toList) = some report) :
      Attests W resultsDir fullName
        ⟨report.success, report.startedAt.map (·.text), report.endedAt.map (·.text)⟩
  | missing
      (h : ∀ bytes, W.download (resultsDir ++ "/" ++ fullName ++ "/output.xml") = .ok bytes →
        Report.read? (Text.Utf8.lossy bytes.toList) = none) :
      Attests W resultsDir fullName ⟨false, none, none⟩

section Attests

variable {W : Warehouse} {resultsDir fullName : String}

/-- The verdict on a test is read from its report. -/
theorem Warehouse.verdict_eq (W : Warehouse) (resultsDir fullName : String) :
    let report? :=
  Manager.reportOf? ((W.download (Manager.reportPath resultsDir fullName)).mapError .warehouse)
    W.verdict resultsDir fullName =
      ⟨report?.any (·.success), (report?.bind (·.startedAt)).map (·.text),
      (report?.bind (·.endedAt)).map (·.text)⟩ := rfl

/-- The verdict of a report that is read is what it says. -/
theorem Warehouse.verdict_of_report {bytes : ByteArray} {report : Report}
    (hfile : W.download (resultsDir ++ "/" ++ fullName ++ "/output.xml") = .ok bytes)
    (hreport : Report.read? (Text.Utf8.lossy bytes.toList) = some report) :
    W.verdict resultsDir fullName =
      ⟨report.success, report.startedAt.map (·.text), report.endedAt.map (·.text)⟩ := by
  have hread :
    Manager.reportOf? ((W.download (Manager.reportPath resultsDir fullName)).mapError .warehouse) =
      some report := by
    rw [Manager.reportPath, hfile]
    exact hreport
  rw [verdict_eq, hread]
  rfl

/-- The verdict without a readable report is a failure without times. -/
theorem Warehouse.verdict_of_missing
    (h : ∀ bytes, W.download (resultsDir ++ "/" ++ fullName ++ "/output.xml") = .ok bytes →
      Report.read? (Text.Utf8.lossy bytes.toList) = none) :
    W.verdict resultsDir fullName = ⟨false, none, none⟩ := by
  have hread :
    Manager.reportOf? ((W.download (Manager.reportPath resultsDir fullName)).mapError .warehouse) =
      none := by
    rw [Manager.reportPath]
    cases hfile : W.download (resultsDir ++ "/" ++ fullName ++ "/output.xml") with
    | error e => rfl
    | ok bytes => exact h bytes hfile
  rw [verdict_eq, hread]
  rfl

/-- The files say one thing about a test, which is what is recorded. -/
theorem Warehouse.attests_iff {v : Verdict} :
    W.Attests resultsDir fullName v ↔ v = W.verdict resultsDir fullName := by
  constructor
  · rintro (⟨hfile, hreport⟩ | hmissing)
    · exact (verdict_of_report hfile hreport).symm
    · exact (verdict_of_missing hmissing).symm
  · rintro rfl
    by_cases h : ∀ bytes, W.download (resultsDir ++ "/" ++ fullName ++ "/output.xml") = .ok bytes →
        Report.read? (Text.Utf8.lossy bytes.toList) = none
    · exact verdict_of_missing h ▸ .missing h
    · obtain ⟨bytes, h⟩ := not_forall.mp h
      obtain ⟨hfile, hread⟩ := Classical.not_imp.mp h
      obtain ⟨report, hreport⟩ := Option.ne_none_iff_exists'.mp hread
      exact verdict_of_report hfile hreport ▸ .report hfile hreport

end Attests

/-- Whether a test is another one with the verdict that the files say. -/
def RunTest.IsJudged (W : Warehouse) (resultsDir : String) (t t' : RunTest) : Prop :=
  ∃ v, W.Attests resultsDir t.fullName v ∧ t' = t.withVerdict v

/-- When no two tests have one identifier, a verdict is recorded for its own test alone. -/
theorem RunTest.judged_of_nodup {judge : String → Verdict} {all done : List RunTest} {t : RunTest}
    (hids : (all.map (·.id)).Nodup) (hdone : done ⊆ all) (ht : t ∈ all) :
    t.judged judge done = if t ∈ done then t.withVerdict (judge t.fullName) else t := by
  cases hlast : last? done t.id with
  | none =>
    have hnot : t ∉ done := by
      simpa [last?] using fun h => (List.find?_eq_none.mp hlast) t (by simpa using h)
    rw [judged_of_none hlast, if_neg hnot]
  | some x =>
    have hx : x ∈ done := List.mem_reverse.mp (List.mem_of_find?_eq_some hlast)
    have hid : x.id = t.id := by simpa using List.find?_some hlast
    obtain rfl := List.inj_on_of_nodup_map hids (hdone hx) ht hid
    rw [judged_of_some hlast, if_pos hx]

/-! ## Footprints -/

/-- The request for the log of a run: to its agent, for its job, and for its build or else
the latest one. -/
def World.logRequest? (w : World) (r : Run) : Option LogRequest := do
  let agent ← w.fleet.agent? (← r.agentId)
  return ⟨agent.id, ← r.jobName, r.buildNumber.getD w.fleet.lastBuild⟩

/-- What a publication that succeeds makes of a world: the tests of the run have the verdicts that
the files say, the log of the build is kept, and the run tells where log and results are. All else
is as it was. -/
structure World.Published (runId : Int) (resultsDir : String) (w w' : World) : Prop where
  verdicts : List.Forall₂
    (fun t t' => if t.runId = runId then t.IsJudged w.warehouse resultsDir t' else t' = t)
    w.store.runTests w'.store.runTests
  store : w'.store = { w.store with
    runTests := w'.store.runTests
    runs := w.store.runs.map fun r =>
      if r.id = runId then
        { r with
          logLocation := some (resultsDir ++ "/console_log.log"),
          resultsLocation := some resultsDir }
      else r }
  fetched : ∃ request, (w.store.run? runId).bind w.logRequest? = some request ∧
    w'.fleet = { w.fleet with logRequests := w.fleet.logRequests ++ [request] }
  log : w'.warehouse.download (resultsDir ++ "/console_log.log") = .ok w.fleet.log.toUTF8
  files : w.warehouse.Touches (resultsDir ++ "/console_log.log") w'.warehouse
  rest : w' = { w with store := w'.store, warehouse := w'.warehouse, fleet := w'.fleet }

/-- What a publication that fails makes of a world at most: some tests of the run have the verdicts
that the files say, the file of the log may hold anything, and there may be directories on the way
to it. All else is as it was, and so are the places of log and results. -/
structure World.Interrupted (runId : Int) (resultsDir : String) (w w' : World) : Prop where
  verdicts : List.Forall₂
    (fun t t' => t' = t ∨ t.runId = runId ∧ t.IsJudged w.warehouse resultsDir t')
    w.store.runTests w'.store.runTests
  store : w'.store = { w.store with runTests := w'.store.runTests }
  fetched : ∃ requests, w'.fleet = { w.fleet with logRequests := w.fleet.logRequests ++ requests }
  files : w.warehouse.Touches (resultsDir ++ "/console_log.log") w'.warehouse
  rest : w' = { w with store := w'.store, warehouse := w'.warehouse, fleet := w'.fleet }

namespace World

/-- The world when the verdicts on some tests are recorded. -/
def judging (w : World) (resultsDir : String) (done : List RunTest) : World :=
  { w with store := w.store.judged (w.warehouse.verdict resultsDir) done }

/-- The world when some requests for logs are made, and the files are others. -/
def keeping (w : World) (requests : List LogRequest) (files : Warehouse) : World :=
  { w with
    warehouse := files, fleet := { w.fleet with logRequests := w.fleet.logRequests ++ requests } }

variable {w : World} {runId : Int} {resultsDir : String} {done : List RunTest}
  {requests : List LogRequest}
  {files : Warehouse}

/-- Judging no tests leaves the world. -/
theorem judging_nil (w : World) (resultsDir : String) : w.judging resultsDir [] = w := by
  rw [judging, Store.judged_nil]

/-- Without requests for logs and with its own files, the world is left as it is. -/
theorem keeping_nil (w : World) : w.keeping [] w.warehouse = w := by
  rw [keeping, List.append_nil]

/-- Verdicts on some tests of the run are all that is different about its tests. -/
theorem interrupted_keeping (hids : (w.store.runTests.map (·.id)).Nodup)
    (hdone : done <+: w.store.testsOfRun runId)
    (hfiles : w.warehouse.Touches (Manager.logPath resultsDir) files) :
    w.Interrupted runId resultsDir ((w.judging resultsDir done).keeping requests files) where
  verdicts := by
    have hsubset : done ⊆ w.store.runTests :=
      List.Subset.trans hdone.subset (List.filter_subset_self _)
    refine List.forall₂_map_right_iff.mpr (List.forall₂_same.mpr fun t ht => ?_)
    rw [RunTest.judged_of_nodup hids hsubset ht]
    split
    · next hmem =>
      have hrun : t.runId = runId := by simpa using (List.mem_filter.mp (hdone.subset hmem)).2
      exact .inr ⟨hrun, _, Warehouse.attests_iff.mpr rfl, rfl⟩
    · exact .inl rfl
  store := rfl
  fetched := ⟨requests, rfl⟩
  files := hfiles
  rest := rfl

/-- Verdicts on all tests of the run, the log and the places of both are all that a
publication makes. -/
theorem published_keeping (hids : (w.store.runTests.map (·.id)).Nodup) {request : LogRequest}
    (hrequest : (w.store.run? runId).bind w.logRequest? = some request)
    (huploaded : (w.warehouse.upload (Manager.logPath resultsDir) w.fleet.log.toUTF8).2 = .ok ()) :
    let w' := (w.judging resultsDir (w.store.testsOfRun runId)).keeping [request]
      (w.warehouse.upload (Manager.logPath resultsDir) w.fleet.log.toUTF8).1
    w.Published runId resultsDir
      { w' with
          store := w'.store.setResultLocations runId (Manager.logPath resultsDir) resultsDir } where
  verdicts := by
    have hsubset : w.store.testsOfRun runId ⊆ w.store.runTests := List.filter_subset_self _
    refine List.forall₂_map_right_iff.mpr (List.forall₂_same.mpr fun t ht => ?_)
    rw [RunTest.judged_of_nodup hids hsubset ht]
    by_cases hrun : t.runId = runId
    · rw [if_pos hrun, if_pos (by simpa [Store.testsOfRun, ht] using hrun)]
      exact ⟨_, Warehouse.attests_iff.mpr rfl, rfl⟩
    · rw [if_neg hrun, if_neg (by simp [Store.testsOfRun, hrun])]
  store := rfl
  fetched := ⟨request, hrequest, rfl⟩
  log := Warehouse.download_upload_of_ok huploaded
  files := Warehouse.touches_upload _ _ _
  rest := rfl

end World
/-! ## Steps -/

/-- Whether a call of a publication changes nothing when it fails. -/
def Call.IsSteady : Call → Prop
  | run _ | runTests _ | recordTestResult _ _ _ _ | setResultLocations _ _ _ => True
  | c => c.IsInquiry

namespace World

variable {w : World} {mishap : Option Mishap}

/-- A call to the store that succeeds leaves the world with the new store. -/
theorem ofStore_of_ok {α : Type} {call : RunCall} {r : Except StoreFault (Store × α)} {a : α}
    (h : (w.ofStore call r).1 = .ok a) :
    ∃ s, r = .ok (s, a) ∧ (w.ofStore call r).2 = { w with store := s } := by
  rcases w.ofStore_cases call r with ⟨e, hw⟩ | ⟨s, b, hr, hw⟩ <;> rw [hw] at h ⊢
  · cases h
  · obtain rfl := Except.ok.inj h
    exact ⟨s, hr, rfl⟩

/-- A call to an agent that succeeds leaves the world with the new fleet. -/
theorem ofFleet_of_ok {α : Type} {call : AgentCall} {r : α × Fleet} {a : α}
    (h : (w.ofFleet call r).1 = .ok a) :
    a = r.1 ∧ (w.ofFleet call r).2 = { w with fleet := r.2 } := by
  rcases w.ofFleet_cases call r with ⟨e, hw⟩ | hw <;> rw [hw] at h ⊢
  · cases h
  · exact ⟨(Except.ok.inj h).symm, rfl⟩

/-- A steady call that fails leaves the world. -/
theorem answer_of_fault? {c : Call} (hc : c.IsSteady) {cause : Fault}
    (h : c.fault? (w.answer c).1 = some cause) :
    (w.answer c).2 = w := by
  have hstore {α : Type} {call : RunCall} {r : Except StoreFault (Store × α)}
      (h : Call.faultOf? (w.ofStore call r).1 = some cause) : (w.ofStore call r).2 = w := by
    rcases w.ofStore_cases call r with ⟨e, hw⟩ | ⟨s, a, -, hw⟩ <;> rw [hw] at h ⊢
    cases h
  have hfleet {α : Type} {call : AgentCall} {r : α × Fleet}
      (h : Call.faultOf? (w.ofFleet call r).1 = some cause) : (w.ofFleet call r).2 = w := by
    rcases w.ofFleet_cases call r with ⟨e, hw⟩ | hw <;> rw [hw] at h ⊢
    cases h
  cases c with
  | run _ | runTests _ | recordTestResult _ _ _ _ | setResultLocations _ _ _ => exact hstore h
  | agent _ | lastBuildNumber _ _ | fetchLog _ _ _ => exact hfleet h
  | _ => exact hc.elim

/-- A steady call that fails or goes wrong leaves the world. -/
theorem answerWith_of_fault? {c : Call} (hc : c.IsSteady) {cause : Fault}
    (h : c.fault? (w.answerWith mishap c).1 = some cause) : (w.answerWith mishap c).2 = w := by
  have hlate : c.canFailLate = false := by
    cases c with
    | createCredential _ _ _ _ | submitJob _ _ _ | startJob _ _ => exact hc.elim
    | _ => rfl
  cases mishap with
  | none => exact answer_of_fault? hc h
  | some x =>
    rw [answerWith] at h ⊢
    split
    · next hcause =>
      rw [hcause] at h
      exact answer_of_fault? hc h
    · simp [hlate]

end World

section Steps

variable {plan : Nat → Option Mishap} {tears : Nat → Option (Fault × Tear)} {t : Trial}
  {runId : Int} {resultsDir : String} {α β : Type}

/-- A call that does not fail is answered by the world, and one that fails leaves the world. -/
theorem Trial.answerTorn_steady {c : Call} (hc : c.IsSteady) (plan : Nat → Option Mishap)
    (tears : Nat → Option (Fault × Tear)) (t : Trial) :
    let after := answerTorn plan tears c t
    (∃ cause, c.fault? after.1 = some cause ∧ after.2.world = t.world) ∨
      c.fault? after.1 = none ∧ after.1 = (World.answer c t.world).1 ∧
        after.2.world = (World.answer c t.world).2 := by
  intro after
  have hafter : after = answer plan c t := answerTorn_of_ne_upload fun _ _ h => by
    rw [h] at hc
    exact hc
  rw [hafter]
  cases hfault : c.fault? (answer plan c t).1 with
  | some cause => exact .inl ⟨cause, rfl, World.answerWith_of_fault? hc hfault⟩
  | none =>
    refine .inr ⟨rfl, ?_⟩
    rw [answer_fst, world_answer]
    rcases World.answerWith_of_fault?_eq_none hfault with hanswer | ⟨⟨a, rfl⟩, -⟩
    · rw [hanswer]
      exact ⟨rfl, rfl⟩
    · exact hc.elim

section Steady

variable (c : Call) (read : c.Answer → Except Fault β) (give : Except Fault β → Service β)
  (raise : Fault → ServiceError) {failed : ServiceError → Trial → Prop}

/-- A call gives what the world answers, or fails and leaves the world. -/
theorem ends_steady {ok : β → Trial → Prop} (hc : c.IsSteady)
    (hread : ∀ a, c.fault? a = Call.faultOf? (read a)) (hgive : ∀ b, give (.ok b) = pure b)
    (hraise : ∀ cause, give (.error cause) = throw (raise cause))
    (hok : ∀ b t',
      read (World.answer c t.world).1 = .ok b → t'.world = (World.answer c t.world).2 → ok b t')
    (hfailed : ∀ cause t', t'.world = t.world → failed (raise cause) t') :
    Ends (Trial.answerTorn plan tears) (do give (read (← Service.ask c))) t ok failed := by
  rw [ends_ask_bind]
  rcases Trial.answerTorn_steady hc plan tears t with
    ⟨cause, hfault, hworld⟩ | ⟨hfault, hanswer, hworld⟩
  all_goals
    rw [hread] at hfault
    cases hresult : read (Trial.answerTorn plan tears c t).1 <;> rw [hresult] at hfault <;>
      cases hfault
  · rw [hraise]
    exact hfailed _ _ hworld
  · rw [hgive]
    exact hok _ _ (hanswer ▸ hresult) hworld

/-- A service goes on behind a call as the world answers it, and ends where the call fails. -/
theorem ends_steady_bind {next : β → Service α} {ok : α → Trial → Prop} (hc : c.IsSteady)
    (hread : ∀ a, c.fault? a = Call.faultOf? (read a)) (hgive : ∀ b, give (.ok b) = pure b)
    (hraise : ∀ cause, give (.error cause) = throw (raise cause))
    (hok : ∀ b t', read (World.answer c t.world).1 = .ok b → t'.world = (World.answer c t.world).2 →
      Ends (Trial.answerTorn plan tears) (next b) t' ok failed)
    (hfailed : ∀ cause t', t'.world = t.world → failed (raise cause) t') :
    Ends (Trial.answerTorn plan tears) (do next (← give (read (← Service.ask c)))) t ok failed := by
  rw [← bind_assoc]
  exact ends_bind.mpr (ends_steady c read give raise hc hread hgive hraise hok hfailed)

end Steady

/-- The tests of a run are listed, or the call that lists them is the last one. -/
theorem ends_listing (runId : Int) :
    Ends (Trial.answerTorn plan tears) (do Service.stored (← Service.ask (.runTests runId))) t
      (fun rows t' => rows = t.world.store.testsOfRun runId ∧ t'.world = t.world)
      fun e t' => t'.world = t.world ∧ ∃ cause, e = .storage cause ∧
        t'.past.getLast? = some ⟨t.world.store, .runTests runId, .error cause⟩ := by
  have hanswer : Trial.answerTorn plan tears (.runTests runId) t =
      Trial.answer plan (.runTests runId) t := rfl
  have hworld : (Trial.answer plan (.runTests runId) t).2.world = t.world := by
    rw [Trial.world_answer]
    rcases t.world.answerWith_snd_cases (plan t.past.length) (.runTests runId) with h | h <;> rw [h]
    rw [World.answer_runTests]
  rw [ends_ask_bind, hanswer]
  rcases hlisted : (Trial.answer plan (.runTests runId) t).1 with cause | rows
  · refine ⟨hworld, cause, rfl, ?_⟩
    rw [Trial.past_answer, hlisted, List.getLast?_concat]
  · exact ⟨World.answerWith_runTests hlisted, hworld⟩

/-- The run is looked up before anything else. -/
theorem ends_lookup (token : String) :
    Ends (Trial.answerTorn plan tears) (Manager.authorizedRun runId token) t
      (fun r t' => t'.world = t.world ∧ t.world.store.run? runId = some r)
        fun _ t' => t'.world = t.world := by
  have hlookup (ok : Run → Trial → Prop) (failed : ServiceError → Trial → Prop)
      (hok : ∀ r t', t.world.store.run? runId = some r → t'.world = t.world → ok r t')
      (hfailed : ∀ e t', t'.world = t.world → failed e t') :
      Ends (Trial.answerTorn plan tears) (Manager.existingRun runId) t ok failed := by
    refine ends_steady_bind (.run runId) (fun r => r) Service.stored .storage trivial (fun _ => rfl)
      (fun _ => rfl)
      (fun _ => rfl) ?_ fun _ => hfailed _
    intro found t' hfound hworld
    obtain ⟨s, hs, hsame⟩ := World.ofStore_of_ok hfound
    obtain ⟨rfl, rfl⟩ := Prod.mk.inj (Except.ok.inj hs)
    have hworld := hworld.trans hsame
    cases hstored : t.world.store.run? runId with
    | none => exact hfailed _ _ hworld
    | some r => exact hok r t' hstored hworld
  refine ends_bind.mpr (hlookup _ _ (fun r t' hr hworld => ?_) fun _ _ hworld => hworld)
  exact ends_require_bind (fun _ => ends_pure.mpr ⟨hworld, hr⟩) fun _ => hworld

/-- A verdict is recorded, or nothing is. -/
theorem ends_verdict (resultsDir : String) (row : RunTest) :
    Ends (Trial.answerTorn plan tears) (Manager.recordVerdict resultsDir row) t
      (fun _ t' => t'.world =
        { t.world with store := t.world.store.judge (t.world.warehouse.verdict resultsDir) row })
      fun _ t' => t'.world = t.world := by
  have hanswer :
    Trial.answerTorn plan tears (.download (Manager.reportPath resultsDir row.fullName)) t =
      Trial.answer plan (.download (Manager.reportPath resultsDir row.fullName)) t := rfl
  have hread : (Trial.answer plan (.download (Manager.reportPath resultsDir row.fullName)) t).1 =
      (t.world.warehouse.download (Manager.reportPath resultsDir row.fullName)).mapError
          .warehouse := by
    rw [Trial.answer_fst, Trial.answerWith_of_failing?_eq_none fun _ => rfl]
    rfl
  have hworld :
      (Trial.answer plan (.download (Manager.reportPath resultsDir row.fullName)) t).2.world =
          t.world := by
    rw [Trial.world_answer, Trial.answerWith_of_failing?_eq_none fun _ => rfl]
    rfl
  rw [Manager.recordVerdict, ends_ask_bind, hanswer, hread]
  generalize (Trial.answer plan (.download (Manager.reportPath resultsDir row.fullName)) t).2 =
    t₁ at hworld
  refine ends_steady (.recordTestResult _ _ _ _) (fun r => r) Service.stored .storage trivial
    (fun _ => rfl)
    (fun _ => rfl) (fun _ => rfl) (fun _ t₂ hrecorded h₂ => ?_) fun _ t₂ h₂ => h₂.trans hworld
  obtain ⟨s, hs, hsame⟩ := World.ofStore_of_ok hrecorded
  obtain ⟨rfl, -⟩ := Prod.mk.inj (Except.ok.inj hs)
  rw [h₂.trans hsame, hworld]
  rfl

/-- Verdicts are recorded in order, up to one that cannot be recorded. -/
theorem ends_verdicts (resultsDir : String) (rows : List RunTest) :
    Ends (Trial.answerTorn plan tears) (Manager.recordVerdicts resultsDir rows) t
      (fun _ t' => t'.world = t.world.judging resultsDir rows)
      fun _ t' => ∃ done, done <+: rows ∧ t'.world = t.world.judging resultsDir done := by
  induction rows generalizing t with
  | nil => exact (t.world.judging_nil resultsDir).symm
  | cons row rest ih =>
    rw [Manager.recordVerdicts]
    refine ends_bind.mpr ((ends_verdict resultsDir row).mono (fun _ t₁ h₁ => ?_) fun _ t₁ h₁ => ?_)
    · have hnext (done : List RunTest) :
          t₁.world.judging resultsDir done = t.world.judging resultsDir (row :: done) := by
        rw [h₁, World.judging, Store.judged_cons]
        rfl
      refine ih.mono (fun _ t₂ h₂ => h₂.trans (hnext rest)) ?_
      rintro _ t₂ ⟨done, hdone, h₂⟩
      exact ⟨row :: done, (List.prefix_cons_inj row).mpr hdone, h₂.trans (hnext done)⟩
    · exact ⟨[], List.nil_prefix, h₁.trans (t.world.judging_nil resultsDir).symm⟩

/-- What follows a value that may be missing is reached with the value or not at all. -/
theorem ends_given_bind {a : Option β} {cause : Fault} {next : β → Service α}
    {ok : α → Trial → Prop} {failed : ServiceError → Trial → Prop}
    (hok : ∀ b, a = some b → Ends (Trial.answerTorn plan tears) (next b) t ok failed)
    (hfailed : failed (.logRetrieval cause) t) :
    Ends (Trial.answerTorn plan tears) (Manager.given a cause >>= next) t ok failed := by
  cases a with
  | none => exact hfailed
  | some b => exact hok b rfl

/-- The log of the build of a run is fetched from its agent, or nothing changes. -/
theorem ends_buildLog (r : Run) :
    Ends (Trial.answerTorn plan tears) (Manager.buildLog r) t
      (fun log t' => log = t.world.fleet.log ∧ ∃ request, t.world.logRequest? r = some request ∧
        t'.world = t.world.keeping [request] t.world.warehouse)
      fun _ t' => t'.world = t.world := by
  rw [Manager.buildLog]
  refine ends_given_bind (fun agentId hagentId => ?_) rfl
  refine ends_steady_bind (.agent agentId) (fun r => r) Manager.logged .logRetrieval trivial
    (fun _ => rfl)
    (fun _ => rfl) (fun _ => rfl) (fun known t₁ hknown h₁ => ?_) fun _ _ h => h
  obtain ⟨rfl, hsame⟩ := World.ofFleet_of_ok hknown
  have h₁ := h₁.trans hsame
  refine ends_given_bind (fun agent (hagent : t.world.fleet.agent? agentId = some agent) => ?_) h₁
  refine ends_given_bind (fun job hjob => ?_) h₁
  have hfetch (build : Nat) (hbuild : build = r.buildNumber.getD t.world.fleet.lastBuild)
      (t₂ : Trial)
      (h₂ : t₂.world = t.world) :
      Ends (Trial.answerTorn plan tears)
        (do Manager.logged (← Service.ask (.fetchLog agent job build))) t₂
        (fun log t' => log = t.world.fleet.log ∧ ∃ request, t.world.logRequest? r = some request ∧
          t'.world = t.world.keeping [request] t.world.warehouse)
        fun _ t' => t'.world = t.world := by
    refine ends_steady (.fetchLog agent job build) (fun r => r) Manager.logged .logRetrieval trivial
      (fun _ => rfl)
      (fun _ => rfl) (fun _ => rfl) (fun log t₃ hlog h₃ => ?_) fun _ _ h => h.trans h₂
    obtain ⟨rfl, hsame⟩ := World.ofFleet_of_ok hlog
    refine ⟨by rw [h₂], ⟨agent.id, job, build⟩, ?_, ?_⟩
    · simp [World.logRequest?, hagentId, hagent, hjob, hbuild]
    · rw [h₃.trans hsame, h₂]
      rfl
  cases hbuild : r.buildNumber with
  | some build => exact hfetch build (by rw [hbuild]; rfl) t₁ h₁
  | none =>
    refine ends_steady_bind (.lastBuildNumber agent job) (fun r => r) Manager.logged .logRetrieval
      trivial (fun _ => rfl)
      (fun _ => rfl) (fun _ => rfl) (fun build t₂ hlatest h₂ => ?_) fun _ _ h => h.trans h₁
    obtain ⟨rfl, hsame⟩ := World.ofFleet_of_ok hlatest
    exact hfetch _ (by rw [h₁, hbuild]; rfl) t₂ (h₂.trans (hsame.trans h₁))

/-- A service goes on behind an upload that is carried out, or ends where it fails or breaks off. -/
theorem ends_upload_bind (path : String) (contents : ByteArray) {next : Unit → Service α}
    {ok : α → Trial → Prop} {failed : ServiceError → Trial → Prop}
    (hok : ∀ t', (t.world.warehouse.upload path contents).2 = .ok () →
      t'.world = { t.world with warehouse := (t.world.warehouse.upload path contents).1 } →
      Ends (Trial.answerTorn plan tears) (next ()) t' ok failed)
    (hfailed : ∀ e t' files, t.world.warehouse.Touches path files →
      t'.world = { t.world with warehouse := files } → failed e t') :
    Ends (Trial.answerTorn plan tears)
      (do next (← Service.stored (← Service.ask (.upload path contents)))) t ok failed := by
  rw [ends_ask_bind]
  have hanswer := Trial.answerTorn_upload plan tears t path contents
  rcases hanswer with ⟨hresult, hworld⟩ | ⟨cause, files, hresult, htouches, hworld⟩ <;> rw [hresult]
  · cases huploaded : (t.world.warehouse.upload path contents).2 with
    | error e => exact hfailed _ _ _ (t.world.warehouse.touches_upload path contents) hworld
    | ok _ => exact hok _ huploaded hworld
  · exact hfailed _ _ _ htouches hworld

/-- The places of log and results are recorded and the tests are listed. If only this fails, it is
the last call. -/
theorem ends_locateResults (runId : Int) (resultsDir : String) :
    Ends (Trial.answerTorn plan tears) (Manager.locateResults runId resultsDir) t
      (fun rows t' => rows = t'.world.store.testsOfRun runId ∧ t'.world = { t.world with
        store := t.world.store.setResultLocations runId (Manager.logPath resultsDir) resultsDir })
      fun e t' => t'.world = t.world ∨ t'.world = { t.world with
          store := t.world.store.setResultLocations runId (Manager.logPath resultsDir) resultsDir
            } ∧
        ∃ cause, e = .storage cause ∧
        t'.past.getLast? = some ⟨t'.world.store, .runTests runId, .error cause⟩ := by
  refine ends_steady_bind (.setResultLocations runId _ resultsDir) (fun r => r) Service.stored
    .storage trivial
    (fun _ => rfl) (fun _ => rfl) (fun _ => rfl) (fun _ t₁ hlocated h₁ => ?_) fun _ _ h => .inl h
  obtain ⟨s, hs, hsame⟩ := World.ofStore_of_ok hlocated
  obtain ⟨rfl, -⟩ := Prod.mk.inj (Except.ok.inj hs)
  have h₁ := h₁.trans hsame
  refine (ends_listing runId).mono ?_ ?_
  · rintro rows t₂ ⟨hrows, h₂⟩
    exact ⟨h₂ ▸ hrows, h₂.trans h₁⟩
  · rintro e t₂ ⟨h₂, hlast⟩
    exact .inr ⟨h₂.trans h₁, h₂ ▸ hlast⟩

/-- The log is fetched and kept, and the places are recorded, or a part of this is done. -/
theorem ends_keepLog (plan : Nat → Option Mishap) (tears : Nat → Option (Fault × Tear)) (t : Trial)
    (r : Run) (runId : Int) (resultsDir : String) :
    let path := Manager.logPath resultsDir
    let upload := t.world.warehouse.upload path t.world.fleet.log.toUTF8
    let located (request : LogRequest) : World :=
      { t.world.keeping [request] upload.1 with
        store := t.world.store.setResultLocations runId path resultsDir }
    Ends (Trial.answerTorn plan tears) (Manager.keepLog r runId resultsDir) t
      (fun rows t' => rows = t'.world.store.testsOfRun runId ∧
        ∃ request, t.world.logRequest? r = some request ∧
          upload.2 = .ok () ∧ t'.world = located request)
      fun e t' =>
        (∃ requests files, t.world.warehouse.Touches path files ∧
          t'.world = t.world.keeping requests files) ∨
        ∃ request, t.world.logRequest? r = some request ∧ upload.2 = .ok () ∧
          t'.world = located request ∧ ∃ cause, e = .storage cause ∧
            t'.past.getLast? = some ⟨t'.world.store, .runTests runId, .error cause⟩ := by
  intro path upload located
  have hunchanged {t' : Trial} (h : t'.world = t.world) :
      ∃ requests files, t.world.warehouse.Touches path files ∧
        t'.world = t.world.keeping requests files :=
    ⟨[], _, .refl path _, h.trans t.world.keeping_nil.symm⟩
  refine ends_bind.mpr ((ends_buildLog r).mono ?_ fun _ _ h => .inl (hunchanged h))
  rintro _ t₁ ⟨rfl, request, hrequest, h₁⟩
  have hwarehouse : t₁.world.warehouse = t.world.warehouse := by
    rw [h₁]
    rfl
  have hstored {t₂ : Trial} {files : Warehouse}
      (h₂ : t₂.world = { t₁.world with warehouse := files }) :
      t₂.world = t.world.keeping [request] files := by
    rw [h₂, h₁]
    rfl
  refine ends_upload_bind path _ (fun t₂ huploaded h₂ => ?_) fun _ t₂ files htouches h₂ => ?_
  all_goals rw [hwarehouse] at *
  · have hlocated {t₃ : Trial} (h₃ : t₃.world = { t₂.world with
        store := t₂.world.store.setResultLocations runId path resultsDir }) :
        t₃.world = located request := by
      rw [h₃, hstored h₂]
      rfl
    refine (ends_locateResults runId resultsDir).mono ?_ ?_
    · rintro rows t₃ ⟨hrows, h₃⟩
      exact ⟨hrows, request, hrequest, huploaded, hlocated h₃⟩
    · rintro e t₃ (h₃ | ⟨h₃, hlast⟩)
      · exact .inl ⟨_, _, t.world.warehouse.touches_upload path _, h₃.trans (hstored h₂)⟩
      · exact .inr ⟨request, hrequest, huploaded, hlocated h₃, hlast⟩
  · exact .inl ⟨_, _, htouches, hstored h₂⟩

end Steps

/-! ## Logs that cannot be kept -/

/-- Agents that refuse nothing give the log of a run whose agent and job are known. -/
theorem exec_buildLog {w : World} {r : Run} {request : LogRequest} (hworks : w.fleet.refusing = [])
    (hrequest : w.logRequest? r = some request) :
    exec World.answer (Manager.buildLog r) w =
      (.ok w.fleet.log, w.keeping [request] w.warehouse) := by
  simp only [World.logRequest?, Option.bind_eq_bind, Option.bind_eq_some_iff, Option.pure_def,
    Option.some.injEq] at hrequest
  obtain ⟨agentId, hagentId, agent, hagent, job, hjob, rfl⟩ := hrequest
  have hfleet {α : Type} (call : AgentCall) (x : α × Fleet) :
      w.ofFleet call x = (.ok x.1, { w with fleet := x.2 }) := by
    simp [World.ofFleet, hworks]
  have hagent : World.answer (.agent agentId) w = (.ok (some agent), w) := by
    rw [World.answer, hfleet, hagent]
  have hfetch (build : Nat) :
    exec World.answer (do Manager.logged (← Service.ask (.fetchLog agent job build))) w =
      (.ok w.fleet.log, w.keeping [⟨agent.id, job, build⟩] w.warehouse) := by
    have hlog : World.answer (.fetchLog agent job build) w =
        (.ok w.fleet.log, w.keeping [⟨agent.id, job, build⟩] w.warehouse) := by
      rw [World.answer, hfleet]
      rfl
    rw [exec_bind, exec_ask, hlog]
    rfl
  have hlatest : World.answer (.lastBuildNumber agent job) w = (.ok w.fleet.lastBuild, w) := by
    rw [World.answer, hfleet]
  have hfound (next : Agent → Service String) :
      exec World.answer (do
        let agentId ← Manager.given (some agentId) (.runWithoutAgent r.id)
        let agent ← Manager.given (← Manager.logged (← Service.ask (.agent agentId)))
          (.agentGone agentId)
        next agent) w = exec World.answer (next agent) w := by
    refine (exec_bind_of_ok rfl).trans ?_
    change exec World.answer (Service.ask (.agent agentId) >>= _) w = _
    rw [exec_bind, exec_ask, hagent]
    rfl
  rw [Manager.buildLog, hagentId, hjob, hfound]
  cases r.buildNumber with
  | some build => exact hfetch build
  | none =>
    change exec World.answer (Service.ask (.lastBuildNumber agent job) >>= _) w = _
    rw [exec_bind, exec_ask, hlatest]
    exact hfetch w.fleet.lastBuild

/-- Where all calls work but the upload of the log, the verdicts are recorded and the files are
those that the upload leaves. -/
theorem exec_publishResults_of_refused {w : World} {runId : Int} {token directory : String}
    {r : Run} {request : LogRequest} {e : WarehouseFault} (hbroken : w.broken = [])
    (hworks : w.fleet.refusing = []) (hrun : w.store.run? runId = some r)
    (htoken : r.communicationToken = some token) (hrequest : w.logRequest? r = some request)
    (hupload :
      (w.warehouse.upload (Manager.logPath (Text.dropEndSlashes directory)) w.fleet.log.toUTF8).2 =
        .error e) :
    exec World.answer (Manager.publishResults runId token directory) w =
      (.error (.storage (.warehouse e)),
        (w.judging (Text.dropEndSlashes directory) (w.store.testsOfRun runId)).keeping [request]
          (w.warehouse.upload (Manager.logPath (Text.dropEndSlashes directory))
            w.fleet.log.toUTF8).1) := by
  have hcalls (call : RunCall) : call ∉ w.broken := by simp [hbroken]
  generalize hdir : Text.dropEndSlashes directory = resultsDir at hupload ⊢
  let judged := w.judging resultsDir (w.store.testsOfRun runId)
  have hlog : exec World.answer (Manager.buildLog r) judged =
      (.ok w.fleet.log, judged.keeping [request] w.warehouse) :=
    exec_buildLog (show judged.fleet.refusing = [] from hworks) hrequest
  have hverdicts :
    exec World.answer (Manager.recordVerdicts resultsDir (w.store.testsOfRun runId)) w =
      (.ok (), judged) := exec_recordVerdicts w resultsDir fun _ => hcalls _
  have hstored : World.answer (.upload (Manager.logPath resultsDir) w.fleet.log.toUTF8)
      (judged.keeping [request] w.warehouse) = (.error (.warehouse e), judged.keeping [request]
        (w.warehouse.upload (Manager.logPath resultsDir) w.fleet.log.toUTF8).1) := by
    rw [World.answer_upload]
    refine Prod.ext ?_ rfl
    exact congrArg (Except.mapError Fault.warehouse) hupload
  rw [Manager.publishResults_eq, hdir, exec_bind, exec_authorizedRun_of_run (hcalls _) hrun htoken]
  dsimp only
  rw [exec_collectResults (hcalls _), exec_bind, hverdicts]
  dsimp only
  rw [Manager.keepLog, exec_bind, hlog]
  dsimp only
  rw [Manager.storeLog, exec_bind, exec_ask, hstored]
  rfl

/-! ## Publications -/

/-- A publication that succeeds answers with the tests of its run, each with the verdict that the
files say. It has kept the log and told where it is, and changed nothing else. One that fails has
changed a part of this at most, and the file of the log, which may hold anything when its upload
broke off. It has told where the results are only if nothing but the list of the tests for the
answer has failed. -/
theorem Manager.publications_change_results_alone {w : World} (hw : w.store.Reachable)
    (plan : Nat → Option Mishap) (tears : Nat → Option (Fault × Tear)) (runId : Int)
    (token directory : String) :
    Ends (Trial.answerTorn plan tears) (publishResults runId token directory) { world := w }
      (fun rows t => rows = t.world.store.testsOfRun runId ∧
        w.Published runId (Text.dropEndSlashes directory) t.world)
      fun e t => w.Interrupted runId (Text.dropEndSlashes directory) t.world ∨
        w.Published runId (Text.dropEndSlashes directory) t.world ∧ ∃ cause, e = .storage cause ∧
          t.past.getLast? = some ⟨t.world.store, .runTests runId, .error cause⟩ := by
  have hids := hw.keys.runTestIds
  generalize hdir : Text.dropEndSlashes directory = resultsDir
  have hinterrupted {t : Trial} {done : List RunTest} {requests : List LogRequest}
      {files : Warehouse}
      (ht : t.world = (w.judging resultsDir done).keeping requests files)
      (hdone : done <+: w.store.testsOfRun runId)
      (hfiles : w.warehouse.Touches (logPath resultsDir) files) :
      w.Interrupted runId resultsDir t.world :=
    ht ▸ World.interrupted_keeping hids hdone hfiles
  have hjudging {t : Trial} {done : List RunTest} (ht : t.world = w.judging resultsDir done)
      (hdone : done <+: w.store.testsOfRun runId) : w.Interrupted runId resultsDir t.world :=
    hinterrupted (ht.trans (World.keeping_nil _).symm) hdone (.refl _ _)
  have hunchanged {t : Trial} (ht : t.world = w) : w.Interrupted runId resultsDir t.world :=
    hjudging (ht.trans (w.judging_nil resultsDir).symm) List.nil_prefix
  rw [publishResults_eq, hdir]
  refine ends_bind.mpr ((ends_lookup token).mono ?_ fun _ _ h => .inl (hunchanged h))
  rintro r t₁ ⟨h₁, hrun⟩
  refine ends_steady_bind (.runTests runId) (fun r => r) Service.stored .storage trivial
    (fun _ => rfl) (fun _ => rfl) (fun _ => rfl) (fun rows t₂ hrows h₂ => ?_)
    fun _ _ h => .inl (hunchanged (h.trans h₁))
  obtain ⟨s, hs, hsame⟩ := World.ofStore_of_ok hrows
  obtain ⟨rfl, rfl⟩ := Prod.mk.inj (Except.ok.inj hs)
  have h₂ : t₂.world = w := h₂.trans (hsame.trans h₁)
  rw [h₁]
  refine ends_bind.mpr ((ends_verdicts resultsDir (w.store.testsOfRun runId)).mono
    (fun _ t₃ h₃ => ?_) ?_)
  · rw [h₂] at h₃
    have hlog := ends_keepLog plan tears t₃ r runId resultsDir
    rw [h₃] at hlog
    have hrequest {request : LogRequest} (h : w.logRequest? r = some request) :
        (w.store.run? runId).bind w.logRequest? = some request := by
      have hrun : w.store.run? runId = some r := hrun
      rw [hrun]
      exact h
    refine hlog.mono ?_ ?_
    · rintro rows t₄ ⟨hrows, request, hr, huploaded, h₄⟩
      exact ⟨hrows, h₄ ▸ World.published_keeping hids (hrequest hr) huploaded⟩
    · rintro e t₄ (⟨requests, files, htouches, h₄⟩ | ⟨request, hr, huploaded, h₄, hlast⟩)
      · exact .inl (hinterrupted h₄ List.prefix_rfl htouches)
      · exact .inr ⟨h₄ ▸ World.published_keeping hids (hrequest hr) huploaded, hlast⟩
  · rintro _ t₃ ⟨done, hdone, h₃⟩
    rw [h₂] at h₃
    exact .inl (hjudging h₃ hdone)

/-- The world in which the pair is submitted. -/
def submittedPair : World :=
  pairWorld.perform (.request (.submit pairManager pairDescriptor) fun _ => none)

/-- The world of the submitted pair is reachable. -/
theorem submittedPair_reachable : submittedPair.Reachable := by
  have hstart : pairWorld.Reachable := .start smallWorld_reachable rfl rfl rfl rfl
  exact hstart.perform _

/-- The plan by which the log of the pair is cut off in the midst of its upload. -/
def cutLog (n : Nat) : Option (Fault × Tear) :=
  if n = 8 then some (.warehouse (.notWritten "out/console_log.log"), .inFile "Start".toUTF8)
    else none

/-- What comes of a publication of the results of the pair while uploads break off. -/
def publishedPair (tears : Nat → Option (Fault × Tear)) :
    Except ServiceError (List RunTest) × Trial :=
  exec (Trial.answerTorn (fun _ => none) tears) (Manager.publishResults 1 "communication" "out/")
    { world := submittedPair }

/-- Both tests of the pair are without a report. A log that is cut off stays in its file. -/
theorem Manager.publications_change_results_alone_pair :
    submittedPair.store.Reachable ∧
      (∃ rows t, publishedPair (fun _ => none) = (.ok rows, t) ∧
        rows.map (·.success) = [some false, some false] ∧ rows = t.world.store.testsOfRun 1 ∧
        submittedPair.Published 1 "out" t.world) ∧
      ∃ e t, publishedPair cutLog = (.error e, t) ∧
        (t.world.store.run? 1).bind (·.resultsLocation) = none ∧
        t.world.warehouse.download "out/console_log.log" = .ok "Start".toUTF8 ∧
        submittedPair.Interrupted 1 "out" t.world := by
  have hstore := submittedPair_reachable.store
  have hdir : Text.dropEndSlashes "out/" = "out" := by decide
  refine ⟨hstore, ?_, ?_⟩
  · have hends := publications_change_results_alone hstore (fun _ => none) (fun _ => none) 1
      "communication" "out/"
    have hrows : (publishedPair fun _ => none).1.toOption.map (·.map (·.success)) =
        some [some false, some false] := by
      decide +kernel
    rw [Ends, hdir, ← publishedPair] at hends
    rcases hexec : publishedPair fun _ => none with ⟨e | rows, t⟩ <;> rw [hexec] at hends hrows
    · cases hrows
    · exact ⟨rows, t, rfl, Option.some.inj hrows, hends.1, hends.2⟩
  · have hends := publications_change_results_alone hstore (fun _ => none) cutLog 1
      "communication" "out/"
    have hfacts : (publishedPair cutLog).1.toOption.isNone ∧
        ((publishedPair cutLog).2.world.store.run? 1).bind (·.resultsLocation) = none ∧
        ((publishedPair cutLog).2.world.warehouse.download "out/console_log.log").toOption =
          some "Start".toUTF8 := by
      decide +kernel
    rw [Ends, hdir, ← publishedPair] at hends
    rcases hexec : publishedPair cutLog with ⟨e | rows, t⟩ <;> rw [hexec] at hends hfacts
    · obtain ⟨-, hlocation, hlog⟩ := hfacts
      have hlog : t.world.warehouse.download "out/console_log.log" = .ok "Start".toUTF8 := by
        generalize t.world.warehouse.download "out/console_log.log" = read at hlog
        cases read <;> cases hlog
        rfl
      -- A publication that is done has kept the whole log.
      have hundone : ¬ submittedPair.Published 1 "out" t.world := fun h =>
        absurd (hlog.symm.trans h.log) (by decide +kernel)
      exact ⟨e, t, rfl, hlocation, hlog, hends.resolve_right fun h => hundone h.1⟩
    · cases hfacts.1

/-- The plan by which the tests of the pair cannot be listed for the answer. -/
def lostListing (n : Nat) : Option Mishap :=
  if n = 10 then some ⟨.broken .listRunTests, false⟩ else none

/-- An upload below a name that no directory can have makes the directory in front of it. -/
theorem upload_of_not_isName {W : Warehouse} {name : String} (contents : ByteArray)
    (hslash : '/' ∉ name.toList) (hplain : isIdle name = false ∧ name ≠ "..")
    (hnull : hasNull name = false) (hlong : isName name = false) (hblank : W.tree.directories = [])
    (hfree : ∀ d, d = [] ∨ d = ["a"] → W.tree.file? d = none) :
    ∃ e, W.upload (Manager.logPath ("a/" ++ name)) contents =
      ({ W with tree := { W.tree with directories := [[], ["a"]] } }, .error e) := by
  have hpath : Manager.logPath ("a/" ++ name) = "a" ++ "/" ++ name ++ "/" ++ "console_log.log" := by
    have hsplit : "a/" = "a" ++ "/" ∧ "/console_log.log" = "/" ++ "console_log.log" := ⟨rfl, rfl⟩
    rw [Manager.logPath, hsplit.1, hsplit.2, ← String.append_assoc]
  have hnames : namesOf (Manager.logPath ("a/" ++ name)) = ["a", name, "console_log.log"] := by
    rw [hpath, namesOf_append, namesOf_append, namesOf_of_notMem hslash]
    rfl
  have hlocation :
      Location.ofPath (Manager.logPath ("a/" ++ name)) =
          .ok ⟨["a", name, "console_log.log"], false⟩ := by
    have hstart : (Manager.logPath ("a/" ++ name)).toList.head? = some 'a' := by
      rw [hpath]
      simp
    have hempty : (Manager.logPath ("a/" ++ name)).isEmpty = false := by
      rw [Bool.eq_false_iff, Ne, String.isEmpty_iff]
      intro h
      simp [h] at hstart
    have habsolute : isAbsolute (Manager.logPath ("a/" ++ name)) = false := by
      simp [isAbsolute, hstart]
    have hidle : isIdle "a" = false ∧ isIdle "console_log.log" = false := by decide
    simp [Location.ofPath, hempty, habsolute, hnames, hplain, hidle, Ne.symm hplain.2]
  have hparents : Warehouse.makeParents W.tree ⟨["a", name, "console_log.log"], false⟩ =
      ({ W.tree with directories := [[], ["a"]] }, false) := by
    have hnulls : hasNull "a" = false := by decide
    have htop : W.tree.makeDirectory [] = some { W.tree with directories := [[]] } := by
      simp [FileTree.makeDirectory, FileTree.isDirectory, hblank, hfree]
    have hbelow : FileTree.makeDirectory { W.tree with directories := [[]] } ["a"] =
        some { W.tree with directories := [[], ["a"]] } := by
      have hname : isName "a" = true := by decide
      have hfile : FileTree.file? { W.tree with directories := [[]] } ["a"] = none :=
        hfree _ (.inr rfl)
      simp [FileTree.makeDirectory, FileTree.isDirectory, hname, hfile]
    have hlast :
        FileTree.makeDirectory { W.tree with directories := [[], ["a"]] } ["a", name] = none := by
      simp [FileTree.makeDirectory, FileTree.isDirectory, hlong]
    simp only [Warehouse.makeParents, List.isEmpty_cons, List.dropLast, List.any_cons, List.any_nil,
      hnulls, hnull]
    simp [FileTree.makeDirectories, htop, hbelow, hlast]
  exact ⟨_, Warehouse.upload_of_notCreated hlocation hparents⟩

/-- A name that is too long for a directory. -/
def longName : String := String.ofList (List.replicate (maxNameLength + 1) 'b')

/-- An upload to a name that is too long fails after it made the directory above. -/
theorem upload_longName {W : Warehouse} (contents : ByteArray) (hblank : W.tree.directories = [])
    (hfree : ∀ d, d = [] ∨ d = ["a"] → W.tree.file? d = none) :
    ∃ e, W.upload (Manager.logPath ("a/" ++ longName)) contents =
      ({ W with tree := { W.tree with directories := [[], ["a"]] } }, .error e) := by
  have hlist : longName.toList = List.replicate (maxNameLength + 1) 'b' := String.toList_ofList
  have hlength (name : String) (hshort : name.toList.length < maxNameLength + 1) :
      longName ≠ name := by
    rintro rfl
    rw [hlist, List.length_replicate] at hshort
    exact Nat.lt_irrefl _ hshort
  have hsize (n : Nat) : String.utf8Len (List.replicate n 'b') = n := by
    induction n with
    | zero => rfl
    | succ n ih => rw [List.replicate_succ, String.utf8Len_cons, ih]; rfl
  have hbytes : longName.utf8ByteSize = maxNameLength + 1 :=
    (String.utf8ByteSize_ofList _).trans (hsize _)
  have hnull : hasNull longName = false := by
    rw [hasNull, hlist, List.any_eq_false]
    intro c hc
    rw [List.eq_of_mem_replicate hc]
    decide
  refine upload_of_not_isName contents (fun h => ?_) ⟨?_, hlength ".." (by decide)⟩ hnull ?_ hblank
    hfree
  · rw [hlist] at h
    exact absurd (List.eq_of_mem_replicate h) (by decide)
  · simp [isIdle, hlength "" (by decide), hlength "." (by decide)]
  · rw [isName, hnull, hbytes]
    decide

/-- A publication that fails may have recorded where the results are, or made a directory. -/
theorem Manager.failed_publication_leaves_traces :
    submittedPair.Reachable ∧ submittedPair.store.Grants 1 "communication" ∧
      (let r := submittedPair.attempt lostListing (publishResults 1 "communication" "out");
        r.1.toOption = none ∧ (submittedPair.store.run? 1).bind (·.resultsLocation) = none ∧
          (r.2.store.run? 1).bind (·.resultsLocation) = some "out") ∧
      (let r := submittedPair.attempt (fun _ => none)
        (publishResults 1 "communication" ("a/" ++ longName));
        r.1.toOption = none ∧ submittedPair.warehouse.tree.isDirectory ["a"] = false ∧
          r.2.warehouse.tree.isDirectory ["a"] = true) := by
  have hfacts :
    (submittedPair.store.run? 1).map
      (fun r => (r.communicationToken, submittedPair.logRequest? r)) =
      some (some "communication", some ⟨1, "app-net-1", 0⟩) := by
    decide +kernel
  obtain ⟨r, hrun, hfacts⟩ := Option.map_eq_some_iff.mp hfacts
  obtain ⟨htoken, hrequest⟩ := Prod.mk.inj hfacts
  refine ⟨submittedPair_reachable, ⟨r, hrun, htoken⟩, by decide +kernel, ?_⟩
  have htree : submittedPair.warehouse.tree.directories = [] := by decide +kernel
  have hfree (d : List String) (hd : d = [] ∨ d = ["a"]) :
      submittedPair.warehouse.tree.file? d = none := by
    have hnone : ∀ d ∈ [[], ["a"]], (submittedPair.warehouse.tree.file? d).isNone := by
      decide +kernel
    simpa using hnone d (by simpa using hd)
  have hdir : Text.dropEndSlashes ("a/" ++ longName) = "a/" ++ longName := by
    have hlist : longName.toList = List.replicate maxNameLength 'b' ++ ['b'] :=
      String.toList_ofList.trans List.replicate_succ'
    refine Text.dropEndSlashes_of_getLast? ?_
    rw [String.toList_append, hlist, ← List.append_assoc, List.getLast?_concat]
    decide
  obtain ⟨e, hupload⟩ := upload_longName submittedPair.fleet.log.toUTF8 htree hfree
  have hworks : submittedPair.broken = [] ∧ submittedPair.fleet.refusing = [] := by decide +kernel
  have hexec := exec_publishResults_of_refused hworks.1 hworks.2 hrun htoken hrequest
    (congrArg Prod.snd (hdir.symm ▸ hupload))
  rw [hdir, hupload] at hexec
  rw [World.attempt_undisturbed]
  have hended :
      submittedPair.carryOut (publishResults 1 "communication" ("a/" ++ longName)).run = _ := hexec
  rw [hended]
  refine ⟨rfl, ?_, rfl⟩
  rw [FileTree.isDirectory, htree]
  rfl

end PipelineManager
