import PipelineManager.Proofs.Service.Authorization
import PipelineManager.Proofs.Service.Verdicts
import PipelineManager.Proofs.Warehouse.Upload

/-!
# Retries

A pipeline makes its callbacks again when it does not learn how they ended. A callback that is made
again, to agents that give the same build number and log, finds all that it did before, also where
it stopped half way: the verdicts it recorded, the directories and the log it stored, the state it
reported. So it gives the same answer and leaves the store and the warehouse as they are.
-/

namespace PipelineManager

open Service

/-! ## Keeping the log -/

/-- The log of a build lies where no report of a test does. -/
theorem Warehouse.verdict_upload_log (W : Warehouse) (resultsDir : String) (log : ByteArray) :
    (W.upload (Manager.logPath resultsDir) log).1.verdict resultsDir = W.verdict resultsDir := by
  funext fullName
  have hother :
    (W.upload (Manager.logPath resultsDir) log).1.download
      (Manager.reportPath resultsDir fullName) =
      W.download (Manager.reportPath resultsDir fullName) := by
    refine W.download_upload_of_ne log fun location location' hlog hreport heq => ?_
    have hlogPath : Manager.logPath resultsDir = resultsDir ++ "/" ++ "console_log.log" := by
      have hsplit : "/console_log.log" = "/" ++ "console_log.log" := rfl
      rw [Manager.logPath, hsplit, ← String.append_assoc]
    have hreportPath : Manager.reportPath resultsDir fullName =
        resultsDir ++ "/" ++ fullName ++ "/" ++ "output.xml" := by
      have hsplit : "/output.xml" = "/" ++ "output.xml" := rfl
      rw [Manager.reportPath, hsplit, ← String.append_assoc]
    have hlast := Location.getLast?_parts (by decide) (by decide) (hlogPath ▸ hlog)
    have hlast' := Location.getLast?_parts (by decide) (by decide) (hreportPath ▸ hreport)
    rw [heq, hlast] at hlast'
    exact absurd hlast' (by decide)
  rw [verdict, verdict, hother]

namespace Store

/-- Recorded locations are those of the run. -/
theorem run?_setResultLocations (s : Store) (id : Int) (log results : String) :
    (s.setResultLocations id log results).run? id =
      (s.run? id).map
        fun r => { r with logLocation := some log, resultsLocation := some results } := by
  rw [setResultLocations, run?_updateRun]
  · refine Option.map_congr fun r hr => if_pos ?_
    simpa using List.find?_some hr
  · exact fun _ => rfl

/-- A change that does the same when it is made again is made once. -/
theorem updateRun_again (s : Store) (id : Int) (change : Run → Run)
    (hagain : ∀ r, change (change r) = change r) :
    (s.updateRun id change).updateRun id change = s.updateRun id change := by
  simp only [updateRun, List.map_map]
  refine congrArg (fun runs => { s with runs := runs }) (List.map_congr_left fun r _ => ?_)
  rw [Function.comp]
  split
  · split
    · exact hagain r
    · rfl
  · rfl

end Store

namespace World

/-- Whether a world is another one in which at most the places of the results of a run were
recorded. -/
def Locates (runId : Int) (w w' : World) : Prop :=
  w' = w ∨ ∃ log results, w' = { w with store := w.store.setResultLocations runId log results }

end World

/-- Whether the same calls fail in a world as in another, and a run is the same apart from the
places of its results. -/
structure World.Readmits (runId : Int) (w w' : World) : Prop where
  broken : w'.broken = w.broken
  run : ∀ r, w.store.run? runId = some r →
    ∃ log results,
      w'.store.run? runId = some { r with logLocation := log, resultsLocation := results }

/-- What of a world stays when the log of a run is kept: the run, and all that verdicts
depend on. -/
structure World.KeepsVerdicts (runId : Int) (resultsDir : String) (w w' : World) : Prop
    extends World.Readmits runId w w' where
  verdict : w'.warehouse.verdict resultsDir = w.warehouse.verdict resultsDir
  runTests : w'.store.runTests = w.store.runTests

section Keeping

variable (w : World) (runId : Int) (resultsDir : String)

/-- Looking up the tests of a run leaves the world. -/
theorem exec_testsOf :
    (exec World.answer (do Service.stored (← Service.ask (.runTests runId))) w).2 = w := by
  rw [exec_bind, exec_ask]
  dsimp only
  rw [exec_stored, World.answer_runTests]

/-- Recording the places of results is settled, whether they are recorded or not. -/
theorem settled_locateResults :
    World.Locates runId w (exec World.answer (Manager.locateResults runId resultsDir) w).2 ∧
      (Manager.locateResults runId resultsDir).Settled
        (exec World.answer (Manager.locateResults runId resultsDir) w).1
        (exec World.answer (Manager.locateResults runId resultsDir) w).2 := by
  have hanswer := w.answer_setResultLocations runId (Manager.logPath resultsDir) resultsDir
  by_cases hbroken : RunCall.setResultLocations ∈ w.broken
  · rw [if_pos hbroken] at hanswer
    have hending : exec World.answer (Manager.locateResults runId resultsDir) w =
        (.error (.storage (.broken .setResultLocations)), w) := by
      rw [Manager.locateResults, exec_bind, exec_ask, hanswer]
      rfl
    rw [hending]
    exact ⟨.inl rfl, (settled_ask hanswer trivial).bind (settled_stored _).bind_error⟩
  · rw [if_neg hbroken] at hanswer
    let located :=
      { w with store := w.store.setResultLocations runId (Manager.logPath resultsDir) resultsDir }
    let listed := exec World.answer (do Service.stored (← Service.ask (.runTests runId))) located
    have hending : exec World.answer (Manager.locateResults runId resultsDir) w = listed := by
      rw [Manager.locateResults, exec_bind, exec_ask, hanswer]
      rfl
    have hagain :
      World.answer (.setResultLocations runId (Manager.logPath resultsDir) resultsDir) located =
        (.ok (), located) := by
      have hstore := w.store.updateRun_again runId (fun r => { r with
        logLocation := some (Manager.logPath resultsDir), resultsLocation :=
        some resultsDir }) fun _ => rfl
      rw [World.answer_setResultLocations, if_neg hbroken]
      exact congrArg (fun s => (Except.ok (), { w with store := s })) hstore
    have hlisted : listed.2 = located := exec_testsOf located runId
    rw [hending, hlisted]
    refine ⟨.inr ⟨_, _, rfl⟩,
      (settled_ask hagain trivial).bind ((settled_stored _).bind (settled_of_reading ?_ _))⟩
    exact asks_bind (asks_ask trivial) fun tests => asks_stored tests

/-- Storing the log is settled, whether it is stored or not. -/
theorem settled_storeLog (log : String) :
    World.Locates runId
      { w with warehouse := (w.warehouse.upload (Manager.logPath resultsDir) log.toUTF8).1 }
        (exec World.answer (Manager.storeLog runId resultsDir log) w).2 ∧
      (Manager.storeLog runId resultsDir log).Settled
        (exec World.answer (Manager.storeLog runId resultsDir log) w).1
        (exec World.answer (Manager.storeLog runId resultsDir log) w).2 := by
  rcases hupload : w.warehouse.upload (Manager.logPath resultsDir) log.toUTF8 with ⟨W, uploaded⟩
  have hanswer : World.answer (.upload (Manager.logPath resultsDir) log.toUTF8) w =
      (uploaded.mapError .warehouse, { w with warehouse := W }) := by
    rw [World.answer_upload, hupload]
  have hagain : ∀ w' : World, w'.warehouse = W →
      World.answer (.upload (Manager.logPath resultsDir) log.toUTF8) w' =
          (uploaded.mapError .warehouse, w') := by
    rintro w' rfl
    have hsame := w.warehouse.upload_again (Manager.logPath resultsDir) log.toUTF8
    rw [hupload] at hsame
    rw [World.answer_upload, hsame]
  cases uploaded with
  | error e =>
    have hending : exec World.answer (Manager.storeLog runId resultsDir log) w =
        (.error (.storage (.warehouse e)), { w with warehouse := W }) := by
      rw [Manager.storeLog, exec_bind, exec_ask, hanswer]
      rfl
    rw [hending]
    exact ⟨.inl rfl, (settled_ask (hagain _ rfl) trivial).bind (settled_stored _).bind_error⟩
  | ok _ =>
    have hending : exec World.answer (Manager.storeLog runId resultsDir log) w =
        exec World.answer (Manager.locateResults runId resultsDir) { w with warehouse := W } := by
      rw [Manager.storeLog, exec_bind, exec_ask, hanswer]
      rfl
    obtain ⟨hlocates, hsettled⟩ := settled_locateResults { w with warehouse := W } runId resultsDir
    have hwarehouse :
      (exec World.answer (Manager.locateResults runId resultsDir)
        { w with warehouse := W }).2.warehouse
        = W := by
      rcases hlocates with h | ⟨_, _, h⟩ <;> rw [h]
    rw [hending]
    exact ⟨hlocates,
      (settled_ask (hagain _ hwarehouse) trivial).bind ((settled_stored _).bind hsettled)⟩

end Keeping

section Kept

variable {w w' : World} {runId : Int} {resultsDir : String}

/-- A world that resembles another keeps its verdicts. -/
theorem World.Resembles.keepsVerdicts (h : World.Resembles w w') :
    World.KeepsVerdicts runId resultsDir w w' where
  broken := h.broken
  run r hr := ⟨r.logLocation, r.resultsLocation, by rw [h.store, hr]⟩
  verdict := by rw [h.warehouse]
  runTests := by rw [h.store]

/-- Verdicts are kept when locations are recorded. -/
theorem World.KeepsVerdicts.locates {w₁ : World} (h : World.KeepsVerdicts runId resultsDir w w₁)
    (hlocates : World.Locates runId w₁ w') : World.KeepsVerdicts runId resultsDir w w' := by
  rcases hlocates with rfl | ⟨log, results, rfl⟩
  · exact h
  · refine ⟨⟨h.broken, fun r hr => ⟨some log, some results, ?_⟩⟩, h.verdict, h.runTests⟩
    obtain ⟨_, _, hrun⟩ := h.run r hr
    rw [Store.run?_setResultLocations, hrun]
    rfl

/-- Keeping the log of a run leaves the verdicts alone, and is settled then. -/
theorem settled_keepLog (w : World) (r : Run) (runId : Int) (resultsDir : String) :
    World.KeepsVerdicts runId resultsDir w
      (exec World.answer (Manager.keepLog r runId resultsDir) w).2 ∧
      (Manager.keepLog r runId resultsDir).Settled
        (exec World.answer (Manager.keepLog r runId resultsDir) w).1
        (exec World.answer (Manager.keepLog r runId resultsDir) w).2 := by
  have hlog : ∀ w', World.SameAgents w w' →
      (Manager.buildLog r).Settled (exec World.answer (Manager.buildLog r) w).1 w' := fun _ h =>
    settled_of_inquiries (asks_buildLog r) h
  have hw₁ := (hlog w (World.SameAgents.refl w) w (World.Resembles.refl w)).2
  rcases hbuild : exec World.answer (Manager.buildLog r) w with
    ⟨e | log, w₁⟩ <;> rw [hbuild] at hlog hw₁
  · have hending : exec World.answer (Manager.keepLog r runId resultsDir) w = (.error e, w₁) := by
      rw [Manager.keepLog, exec_bind, hbuild]
    rw [hending]
    exact ⟨hw₁.keepsVerdicts, (hlog w₁ hw₁.toSameAgents).bind_error⟩
  · have hending : exec World.answer (Manager.keepLog r runId resultsDir) w =
        exec World.answer (Manager.storeLog runId resultsDir log) w₁ := by
      rw [Manager.keepLog, exec_bind, hbuild]
    obtain ⟨hlocates, hsettled⟩ := settled_storeLog w₁ runId resultsDir log
    have hkept : World.KeepsVerdicts runId resultsDir w w₁ := hw₁.keepsVerdicts
    have hstored : World.KeepsVerdicts runId resultsDir w
        { w₁ with warehouse := (w₁.warehouse.upload (Manager.logPath resultsDir) log.toUTF8).1 } :=
      ⟨⟨hkept.broken, hkept.run⟩, by rw [Warehouse.verdict_upload_log, hkept.verdict],
        hkept.runTests⟩
    have hfleet :
        (exec World.answer (Manager.storeLog runId resultsDir log) w₁).2.fleet = w₁.fleet := by
      rcases hlocates with h | ⟨_, _, h⟩ <;> rw [h]
    rw [hending]
    exact ⟨hstored.locates hlocates,
      (hlog _ (hw₁.toSameAgents.trans (World.sameAgents_of_fleet_eq hfleet))).bind hsettled⟩

/-- Verdicts that were recorded are still those to record when the log was kept. -/
theorem World.KeepsVerdicts.judged_eq
    (h : World.KeepsVerdicts runId resultsDir
      { w with store := w.store.judged (w.warehouse.verdict resultsDir) (w.store.testsOfRun runId) }
      w') :
    w'.store.judged (w'.warehouse.verdict resultsDir) (w'.store.testsOfRun runId) = w'.store := by
  have hagain :=
    congrArg Store.runTests (w.store.judged_again (w.warehouse.verdict resultsDir) runId)
  have htests : w'.store.testsOfRun runId =
      (w.store.judged (w.warehouse.verdict resultsDir) (w.store.testsOfRun runId)).testsOfRun
          runId := by
    rw [Store.testsOfRun, h.runTests]
    rfl
  rw [htests, h.verdict]
  rw [Store.judged, h.runTests]
  exact (congrArg (fun tests => { w'.store with runTests := tests })
    (hagain.trans h.runTests.symm)).trans rfl

end Kept

/-! ## Reports -/

namespace Store

variable {s s' : Store} {runId : Int} {state : RunState} {success : Bool} {now : Timestamp}
  {entry : StatusEntry}

/-- The answer to a report is an entry for it, which is the latest of its run. -/
theorem appendStatus_eq_ok (h : s.appendStatus runId state success now = .ok (s', entry)) :
    (s.run? runId).isSome ∧ entry.state = state ∧ entry.success = success ∧ s'.runs = s.runs ∧
      s'.latestStatus? runId = .ok (some entry) := by
  unfold appendStatus at h
  split at h
  · cases h
  next hrun =>
  have hexists : (s.run? runId).isSome := by simpa [Option.isSome_iff_ne_none] using hrun
  cases hlatest : s.latestStatus? runId with
  | error e => simp [hlatest] at h
  | ok latest =>
    rw [hlatest] at h
    dsimp only at h
    split at h
    · cases h
    · next hcheck =>
      cases latest with
      | none => cases h
      | some e =>
        obtain ⟨rfl, rfl⟩ := Prod.mk.inj (Except.ok.inj h)
        simp only [Option.map_some, Transition.check] at hcheck
        split at hcheck
        · next hsame => exact ⟨hexists, hsame.1, hsame.2, rfl, hlatest⟩
        · split at hcheck <;> cases hcheck
    · obtain ⟨rfl, rfl⟩ := Prod.mk.inj (Except.ok.inj h)
      refine ⟨hexists, rfl, rfl, rfl, ?_⟩
      simp [latestStatus?, statusRows, StatusEntry.toRow, StatusRow.entry, Except.map]

/-- A report that was recorded is repeated later without being recorded again. -/
theorem appendStatus_again (h : s.appendStatus runId state success now = .ok (s', entry))
    (later : Timestamp) :
    s'.appendStatus runId state success later = .ok (s', entry) := by
  obtain ⟨hexists, rfl, rfl, hruns, hlatest⟩ := appendStatus_eq_ok h
  have hrun : (s'.run? runId).isNone = false := by
    have hsame : s'.run? runId = s.run? runId := by rw [run?, hruns, run?]
    rw [hsame, ← Option.not_isSome, hexists, Bool.not_true]
  simp [appendStatus, hrun, hlatest, Transition.check]

/-- A report is refused whenever it is made. -/
theorem appendStatus_error {e : StatusError} (h : s.appendStatus runId state success now = .error e)
    (later : Timestamp) : s.appendStatus runId state success later = .error e := by
  unfold appendStatus at h ⊢
  split at h
  · next hrun => rwa [if_pos hrun]
  · next hrun =>
    rw [if_neg hrun]
    cases hlatest : s.latestStatus? runId with
    | error e' => rwa [hlatest] at h
    | ok latest =>
      rw [hlatest] at h
      dsimp only at h ⊢
      split at h
      · exact h
      · cases latest with
        | none => exact h
        | some e' => cases h
      · cases h

end Store

/-! ## Callbacks -/

/-- A run that is let in is looked up, and has the token. -/
theorem exec_authorizedRun_of_run {w : World} {runId : Int} {token : String} {r : Run}
    (hworks : RunCall.getRun ∉ w.broken) (hr : w.store.run? runId = some r)
    (htoken : r.communicationToken = some token) :
    exec World.answer (Manager.authorizedRun runId token) w = (.ok r, w) := by
  rw [exec_authorizedRun, World.answer_run, if_neg (by simpa using hworks), hr]
  simp [found, admitted, htoken]

/-- Authorizing a callback leaves the world. -/
theorem exec_authorizedRun_snd (w : World) (runId : Int) (token : String) :
    (exec World.answer (Manager.authorizedRun runId token) w).2 = w := by
  rw [exec_authorizedRun, World.answer_run]

/-- A callback that is authorized presents the token of its run. -/
theorem exec_authorizedRun_eq_ok {w w' : World} {runId : Int} {token : String} {r : Run}
    (h : exec World.answer (Manager.authorizedRun runId token) w = (.ok r, w')) :
    w' = w ∧ RunCall.getRun ∉ w.broken ∧ w.store.run? runId = some r ∧
      r.communicationToken = some token := by
  rw [exec_authorizedRun, World.answer_run] at h
  obtain ⟨hfound, rfl⟩ := Prod.mk.inj h
  by_cases hbroken : RunCall.getRun ∈ w.broken
  · rw [if_pos (by simpa using hbroken)] at hfound
    cases hfound
  · rw [if_neg (by simpa using hbroken)] at hfound
    cases hrun : w.store.run? runId with
    | none => simp [hrun, found, admitted] at hfound
    | some r' =>
      simp only [hrun, found, admitted, decide_eq_true_eq] at hfound
      split at hfound
      · next htoken =>
        obtain rfl := Except.ok.inj hfound
        exact ⟨rfl, hbroken, rfl, htoken⟩
      · cases hfound

section Collecting

variable {w : World} {r : Run} {runId : Int} {resultsDir : String}

/-- The verdicts and the log of a run whose tests can be listed. -/
theorem exec_collectResults (hlisting : RunCall.listRunTests ∉ w.broken) :
    exec World.answer (Manager.collectResults r runId resultsDir) w =
      exec World.answer (do
        Manager.recordVerdicts resultsDir (w.store.testsOfRun runId)
        Manager.keepLog r runId resultsDir) w := by
  have hanswer := w.answer_runTests runId
  rw [if_neg (by simpa using hlisting)] at hanswer
  rw [Manager.collectResults, exec_bind, exec_ask, hanswer]
  dsimp only
  rw [exec_bind, exec_stored]
  rfl

/-- They are settled together when the tests can be listed again. -/
theorem settled_collectResults_of_listing {result : Except ServiceError (List RunTest)}
    (hlisting : RunCall.listRunTests ∉ w.broken)
    (h : Settled (do
      Manager.recordVerdicts resultsDir (w.store.testsOfRun runId)
      Manager.keepLog r runId resultsDir) result w) :
    (Manager.collectResults r runId resultsDir).Settled result w := by
  have hanswer := w.answer_runTests runId
  rw [if_neg (by simpa using hlisting)] at hanswer
  exact (settled_ask hanswer trivial).bind ((settled_stored _).bind h)

/-- Verdicts that were recorded are settled together with the log. -/
theorem settled_collectResults_of_recording (hlisting : RunCall.listRunTests ∉ w.broken)
    (hrecording : w.store.testsOfRun runId ≠ [] → RunCall.recordTestResult ∉ w.broken) :
    World.Readmits runId w (exec World.answer (Manager.collectResults r runId resultsDir) w).2 ∧
      (Manager.collectResults r runId resultsDir).Settled
        (exec World.answer (Manager.collectResults r runId resultsDir) w).1
        (exec World.answer (Manager.collectResults r runId resultsDir) w).2 := by
  let judged : World :=
    { w with store := w.store.judged (w.warehouse.verdict resultsDir) (w.store.testsOfRun runId) }
  have hending : exec World.answer (Manager.collectResults r runId resultsDir) w =
      exec World.answer (Manager.keepLog r runId resultsDir) judged := by
    rw [exec_collectResults hlisting, exec_bind, exec_recordVerdicts w resultsDir hrecording]
  obtain ⟨hkeeps, hsettled⟩ := settled_keepLog judged r runId resultsDir
  rw [hending]
  generalize exec World.answer (Manager.keepLog r runId resultsDir) judged =
    ending at hkeeps hsettled
  have htests : ending.2.store.testsOfRun runId ≠ [] → w.store.testsOfRun runId ≠ [] := by
    intro hne hnil
    rw [Store.testsOfRun, hkeeps.runTests] at hne
    exact hne ((w.store.testsOfRun_judged _ _ runId).trans (by rw [hnil, List.map_nil]))
  have hverdicts :=
    settled_recordVerdicts (fun hne => hkeeps.broken ▸ hrecording (htests hne)) hkeeps.judged_eq
  have hlisting' : RunCall.listRunTests ∉ ending.2.broken := hkeeps.broken ▸ hlisting
  exact ⟨⟨hkeeps.broken, hkeeps.run⟩,
    settled_collectResults_of_listing hlisting' (hverdicts.bind hsettled)⟩

/-- The collection of results for a run that was let in is settled when it has ended, and the run is
let in again. -/
theorem settled_collectResults (w : World) (r : Run) (runId : Int) (resultsDir : String) :
    World.Readmits runId w (exec World.answer (Manager.collectResults r runId resultsDir) w).2 ∧
      (Manager.collectResults r runId resultsDir).Settled
        (exec World.answer (Manager.collectResults r runId resultsDir) w).1
        (exec World.answer (Manager.collectResults r runId resultsDir) w).2 := by
  have hsame : World.Readmits runId w w := ⟨rfl, fun r hr => ⟨_, _, hr⟩⟩
  by_cases hlisting : RunCall.listRunTests ∈ w.broken
  · have hanswer := w.answer_runTests runId
    rw [if_pos (by simpa using hlisting)] at hanswer
    have hending : exec World.answer (Manager.collectResults r runId resultsDir) w =
        (.error (.storage (.broken .listRunTests)), w) := by
      rw [Manager.collectResults, exec_bind, exec_ask, hanswer]
      rfl
    rw [hending]
    exact ⟨hsame, (settled_ask hanswer trivial).bind (settled_stored _).bind_error⟩
  by_cases hrecording : w.store.testsOfRun runId ≠ [] → RunCall.recordTestResult ∉ w.broken
  · exact settled_collectResults_of_recording hlisting hrecording
  · obtain ⟨hne, hbroken⟩ := Classical.not_imp.mp hrecording
    obtain ⟨t, rest, htests⟩ := List.exists_cons_of_ne_nil hne
    have hending : exec World.answer (Manager.collectResults r runId resultsDir) w =
        (.error (.storage (.broken .recordTestResult)), w) := by
      rw [exec_collectResults hlisting, htests, exec_bind,
        exec_recordVerdicts_of_broken w resultsDir (not_not.mp hbroken)]
    have hverdicts := settled_recordVerdicts_of_broken (not_not.mp hbroken) resultsDir t rest
    rw [hending]
    exact ⟨hsame, settled_collectResults_of_listing hlisting (htests ▸ hverdicts.bind_error)⟩

end Collecting

/-- What follows the look-up of a run is settled when it lets the run in again, and is
itself settled. -/
theorem settled_authorized {α : Type} {w : World} {runId : Int} {token : String}
    {next : Run → Service α}
    (hnext : ∀ r,
      w.store.run? runId = some r →
      World.Readmits runId w (exec World.answer (next r) w).2 ∧ ∀ log results,
        (next { r with logLocation := log, resultsLocation := results }).Settled
        (exec World.answer (next r) w).1 (exec World.answer (next r) w).2) :
    (Manager.authorizedRun runId token >>= next).Settled
      (exec World.answer (Manager.authorizedRun runId token >>= next) w).1
      (exec World.answer (Manager.authorizedRun runId token >>= next) w).2 := by
  have hlookup := settled_of_reading (asks_authorizedRun runId token)
  rw [exec_bind]
  rcases hauthorized : exec World.answer (Manager.authorizedRun runId token) w with ⟨e | r, w₁⟩
  · obtain rfl : w₁ = w :=
      (congrArg Prod.snd hauthorized).symm.trans (exec_authorizedRun_snd w runId token)
    have hagain := hlookup w₁
    rw [hauthorized] at hagain
    exact hagain.bind_error
  · obtain ⟨rfl, hworks, hrun, htoken⟩ := exec_authorizedRun_eq_ok hauthorized
    obtain ⟨hreadmits, hsettled⟩ := hnext r hrun
    obtain ⟨log, results, hrun'⟩ := hreadmits.run r hrun
    have hagain := hlookup (exec World.answer (next r) w₁).2
    rw [exec_authorizedRun_of_run (hreadmits.broken ▸ hworks) hrun' htoken] at hagain
    exact hagain.bind (hsettled log results)

/-- The collection of results is settled when it has ended, wherever it ended. -/
theorem settled_publishResults (w : World) (runId : Int) (token directory : String) :
    (Manager.publishResults runId token directory).Settled
      (exec World.answer (Manager.publishResults runId token directory) w).1
      (exec World.answer (Manager.publishResults runId token directory) w).2 := by
  rw [Manager.publishResults_eq]
  refine settled_authorized fun r _ => ?_
  obtain ⟨hreadmits, hsettled⟩ := settled_collectResults w r runId (Text.dropEndSlashes directory)
  exact ⟨hreadmits, fun _ _ => hsettled⟩

/-- A call that reports on a run is settled when the report has been recorded or refused. -/
theorem settled_appendStatus (w : World) (runId : Int) (state : RunState) (success : Bool) :
    World.Readmits runId w (World.answer (.appendStatus runId state success) w).2 ∧
      (Service.ask (.appendStatus runId state success)).Settled
        (.ok (World.answer (.appendStatus runId state success) w).1)
        (World.answer (.appendStatus runId state success) w).2 := by
  rcases happend : w.store.appendStatus runId state success w.now with e | ⟨store, entry⟩
  · have hanswer : World.answer (.appendStatus runId state success) w = (.error e, w) := by
      simp only [World.answer, happend]
    rw [hanswer]
    refine ⟨⟨rfl, fun r hr => ⟨_, _, hr⟩⟩, fun again hagain => ?_⟩
    have hrefused := Store.appendStatus_error happend again.now
    rw [exec_ask, World.answer, hagain.store, hrefused]
    exact ⟨rfl, hagain⟩
  · have hanswer :
        World.answer (.appendStatus runId state success) w = (.ok entry, { w with store }) := by
      simp only [World.answer, happend]
    obtain ⟨-, -, -, hruns, -⟩ := Store.appendStatus_eq_ok happend
    rw [hanswer]
    refine ⟨⟨rfl, fun r hr => ⟨r.logLocation, r.resultsLocation, ?_⟩⟩, fun again hagain => ?_⟩
    · rw [← hr, Store.run?, hruns]
      rfl
    · obtain rfl : again.store = store := hagain.store
      rw [exec_ask, World.answer, Store.appendStatus_again happend again.now]
      exact ⟨rfl, hagain⟩

/-- A status report is settled when it has been recorded or refused. -/
theorem settled_recordStatus (w : World) (runId : Int) (token : String) (state : RunState)
    (success : Bool) :
    (Manager.recordStatus runId token state success).Settled
      (exec World.answer (Manager.recordStatus runId token state success) w).1
      (exec World.answer (Manager.recordStatus runId token state success) w).2 := by
  rw [Manager.recordStatus]
  refine settled_authorized fun r _ => ?_
  have hrequire :=
    settled_require (w := w) state.isAgentReported (.status (.notAgentReported state))
  by_cases hreported : state.isAgentReported
  · obtain ⟨hreadmits, hsettled⟩ := settled_appendStatus w runId state success
    rw [exec_bind, exec_require, if_pos hreported]
    dsimp only
    rw [exec_bind, exec_ask]
    dsimp only
    generalize World.answer (.appendStatus runId state success) w = answered at hreadmits hsettled
    obtain ⟨result, w'⟩ := answered
    have hrequire :=
      settled_require (w := w') state.isAgentReported (.status (.notAgentReported state))
    rw [if_pos hreported] at hrequire
    cases result with
    | ok entry => exact ⟨hreadmits, fun _ _ => hrequire.bind (hsettled.bind (settled_pure entry))⟩
    | error e => exact ⟨hreadmits, fun _ _ => hrequire.bind (hsettled.bind (settled_throw _))⟩
  · rw [if_neg hreported] at hrequire
    rw [exec_bind, exec_require, if_neg hreported]
    exact ⟨⟨rfl, fun r hr => ⟨_, _, hr⟩⟩, fun _ _ => hrequire.bind_error⟩

/-- The entry that answers a status report is the latest of the run then. -/
theorem ends_recordStatus (w : World) (runId : Int) (token : String) (state : RunState)
    (success : Bool) :
    Ends World.answer (Manager.recordStatus runId token state success) w
      (fun entry w' => w'.store.latestStatus? runId = .ok (some entry)) fun _ _ => True := by
  refine ends_true.bind fun r w₁ _ => ends_true.bind fun _ w₂ _ => ends_ask_bind.mpr ?_
  rcases happend : w₂.store.appendStatus runId state success w₂.now with e | ⟨store, entry⟩ <;>
    simp only [World.answer, happend]
  · trivial
  · exact ends_pure.mpr (Store.appendStatus_eq_ok happend).2.2.2.2

/-- A callback is settled when it has ended, wherever it ended. -/
theorem Callback.settled (c : Callback) (w : World) (runId : Int) (token : String) :
    (c.service runId token).Settled (exec World.answer (c.service runId token) w).1
      (exec World.answer (c.service runId token) w).2 := by
  cases c with
  | recordStatus state success => exact settled_recordStatus w runId token state success
  | publishResults directory => exact settled_publishResults w runId token directory
  | developerArchive fullName =>
    have hreading := asks_developerArchive runId token fullName
    have hleft := (settled_of_reading hreading w w (World.Resembles.refl w)).2
    intro again hagain
    obtain ⟨hresult, hresembles⟩ := settled_of_reading hreading w again (hleft.trans hagain)
    exact ⟨hresult, hleft.symm.trans hresembles⟩

/-! ## Retries -/

/-- The worlds after a callback was made once or more often, each time in a world that resembles
the one before. -/
inductive Callback.Retried (c : Callback) (runId : Int) (token : String) (w : World) : World → Prop
  | once : Retried c runId token w (w.carryOut (c.service runId token).run).2
  | again {w' again : World} (h : Retried c runId token w w') (hagain : World.Resembles w' again) :
      Retried c runId token w (again.carryOut (c.service runId token).run).2

/-- Retries lead to the world that a callback led to when it was made first. -/
theorem Callback.Retried.resembles {c : Callback} {runId : Int} {token : String} {w w' : World}
    (h : c.Retried runId token w w') :
    World.Resembles (w.carryOut (c.service runId token).run).2 w' := by
  induction h with
  | once => exact World.Resembles.refl _
  | again _ hagain ih => exact (c.settled w runId token _ (ih.trans hagain)).2

/-- A callback that is made again gives the same answer, and leaves the store and the files as they
were after it was made first. The entry that answers a status report is the one in the log. -/
theorem Manager.callbacks_are_repeatable (w : World) (runId : Int) (token : String) (c : Callback) :
    (∀ w' again, c.Retried runId token w w' → World.Resembles w' again →
      (again.carryOut (c.service runId token).run).1 = (w.carryOut (c.service runId token).run).1 ∧
        (again.carryOut (c.service runId token).run).2.store =
          (w.carryOut (c.service runId token).run).2.store ∧
        (again.carryOut (c.service runId token).run).2.warehouse =
          (w.carryOut (c.service runId token).run).2.warehouse) ∧
    ∀ state success entry, (w.carryOut (recordStatus runId token state success).run).1 = .ok entry →
      (w.carryOut (recordStatus runId token state success).run).2.store.latestStatus? runId =
        .ok (some entry) := by
  refine ⟨fun w' again h hagain => ?_, fun state success entry h => ?_⟩
  · obtain ⟨hresult, hleft⟩ := c.settled w runId token again (h.resembles.trans hagain)
    exact ⟨hresult, hleft.store, hleft.warehouse⟩
  · exact (ends_recordStatus w runId token state success).of_result h

/-- A report that is made again later is answered with the entry of its first time. -/
theorem Manager.callbacks_are_repeatable_later :
    let w := guardedWorld (some "communication")
    let c : Callback := .recordStatus .environmentSetup true
    let again := { (w.carryOut (c.service 1 "communication").run).2 with now := "later" }
    c.Retried 1 "communication" w (w.carryOut (c.service 1 "communication").run).2 ∧
      World.Resembles (w.carryOut (c.service 1 "communication").run).2 again ∧
      (w.carryOut (recordStatus 1 "communication" .environmentSetup true).run).1 =
        .ok ⟨1, 0, .environmentSetup, true, w.now⟩ ∧
      (again.carryOut (c.service 1 "communication").run).1 =
        .ok ⟨1, 0, .environmentSetup, true, w.now⟩ ∧
      (w.carryOut
          (recordStatus 1 "communication" .environmentSetup true).run).2.store.latestStatus? 1 =
        .ok (some ⟨1, 0, .environmentSetup, true, w.now⟩) := by
  intro w c again
  have hresembles : World.Resembles (w.carryOut (c.service 1 "communication").run).2 again :=
    ⟨World.sameAgents_of_fleet_eq rfl, rfl, rfl, rfl⟩
  have hfirst : (w.carryOut (recordStatus 1 "communication" .environmentSetup true).run).1 =
      .ok ⟨1, 0, .environmentSetup, true, w.now⟩ := rfl
  obtain ⟨hretry, hlatest⟩ := callbacks_are_repeatable w 1 "communication" c
  exact ⟨.once, hresembles, hfirst, (hretry _ again .once hresembles).1.trans hfirst,
    hlatest .environmentSetup true _ hfirst⟩

end PipelineManager
