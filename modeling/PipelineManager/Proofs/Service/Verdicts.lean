import PipelineManager.Proofs.Service.Settled

/-!
# Verdicts on tests

The verdict on a test follows from the files, and is recorded by the identifier of the test. Of
several verdicts on one test the last counts, so verdicts that are recorded again in the same order
change nothing.
-/

namespace PipelineManager

open Service

/-! ## Verdicts -/

/-- What the report of a test says about it. -/
structure Verdict where
  success : Bool
  startedAt : Option String
  endedAt : Option String

/-- The verdict on a test by the files in a directory of results. -/
def Warehouse.verdict (W : Warehouse) (resultsDir fullName : String) : Verdict :=
  let report :=
    Manager.reportOf? ((W.download (Manager.reportPath resultsDir fullName)).mapError .warehouse)
  { success := report.any (·.success)
    startedAt := (report.bind (·.startedAt)).map (·.text)
    endedAt := (report.bind (·.endedAt)).map (·.text) }

/-- A test with a verdict on it. -/
def RunTest.withVerdict (t : RunTest) (v : Verdict) : RunTest :=
  { t with success := some v.success, startedAt := v.startedAt, endedAt := v.endedAt }

namespace RunTest

/-- The last of some tests that has an identifier. -/
def last? (ts : List RunTest) (id : Int) : Option RunTest := ts.reverse.find? fun x => x.id = id

/-- A test when verdicts on some tests were recorded in order. -/
def judged (judge : String → Verdict) (ts : List RunTest) (t : RunTest) : RunTest :=
  match last? ts t.id with
  | some x => t.withVerdict (judge x.fullName)
  | none => t

variable {judge : String → Verdict} {ts : List RunTest} {t : RunTest}

/-- A test that is among those judged gets the verdict of the last with its id. -/
theorem judged_of_some {x : RunTest} (h : last? ts t.id = some x) :
    t.judged judge ts = t.withVerdict (judge x.fullName) := by
  rw [judged, h]

/-- A test that is not among those judged is left as it is. -/
theorem judged_of_none (h : last? ts t.id = none) : t.judged judge ts = t := by
  rw [judged, h]

/-- A verdict leaves what was registered of a test. -/
theorem registered_judged (judge : String → Verdict) (ts : List RunTest) (t : RunTest) :
    (t.judged judge ts).id = t.id ∧ (t.judged judge ts).runId = t.runId ∧
      (t.judged judge ts).fullName = t.fullName := by
  unfold judged
  split <;> exact ⟨rfl, rfl, rfl⟩

/-- The last test with an id is among those behind the first, or else the first. -/
theorem last?_cons (x : RunTest) (ts : List RunTest) (id : Int) :
    last? (x :: ts) id = (last? ts id).or (if x.id = id then some x else none) := by
  rw [last?, List.reverse_cons, List.find?_append]
  by_cases h : x.id = id <;> simp [last?, h]

/-- Which test is the last does not depend on verdicts. -/
theorem last?_map_judged (judge : String → Verdict) (others ts : List RunTest) (id : Int) :
    last? (ts.map (judged judge others)) id = (last? ts id).map (judged judge others) := by
  have hid : ((fun x : RunTest => decide (x.id = id)) ∘ judged judge others) =
      fun x => decide (x.id = id) :=
    funext fun x => by rw [Function.comp, (registered_judged judge others x).1]
  rw [last?, ← List.map_reverse, List.find?_map, hid]
  rfl

/-- Verdicts that are recorded again are those that are there. -/
theorem judged_again (judge : String → Verdict) (ts : List RunTest) (t : RunTest) :
    (t.judged judge ts).judged judge (ts.map (judged judge ts)) = t.judged judge ts := by
  have hlast :
      last? (ts.map (judged judge ts)) (t.judged judge ts).id =
          (last? ts t.id).map (judged judge ts) := by
    rw [last?_map_judged, (registered_judged judge ts t).1]
  cases h : last? ts t.id with
  | none =>
    rw [h] at hlast
    exact judged_of_none hlast
  | some x =>
    rw [h] at hlast
    rw [judged_of_some hlast, judged_of_some h, (registered_judged judge ts x).2.2]
    rfl

end RunTest

namespace Store

/-- The store when the verdict on a test was recorded. -/
def judge (s : Store) (judge : String → Verdict) (x : RunTest) : Store :=
  s.recordTestResult x.id (judge x.fullName).success (judge x.fullName).startedAt
    (judge x.fullName).endedAt

/-- The store when verdicts on some tests were recorded in order. -/
def judged (s : Store) (judge : String → Verdict) (ts : List RunTest) : Store :=
  { s with runTests := s.runTests.map (RunTest.judged judge ts) }

/-- Judging no tests leaves the store. -/
theorem judged_nil (s : Store) (judge : String → Verdict) : s.judged judge [] = s := by
  have hsame : RunTest.judged judge [] = id := rfl
  rw [judged, hsame, List.map_id]

/-- Tests are judged one after the other. -/
theorem judged_cons (s : Store) (judge : String → Verdict) (x : RunTest) (ts : List RunTest) :
    (s.judge judge x).judged judge ts = s.judged judge (x :: ts) := by
  simp only [judged, Store.judge, recordTestResult, List.map_map]
  refine congrArg (fun tests => { s with runTests := tests }) (List.map_congr_left fun t _ => ?_)
  have hcons := RunTest.last?_cons x ts t.id
  rw [Function.comp]
  split
  · next h =>
    have hid : (t.withVerdict (judge x.fullName)).id = t.id := rfl
    cases hlast : RunTest.last? ts t.id with
    | none =>
      rw [hlast, if_pos h.symm] at hcons
      exact (RunTest.judged_of_none (hid ▸ hlast)).trans (RunTest.judged_of_some hcons).symm
    | some y =>
      rw [hlast] at hcons
      exact (RunTest.judged_of_some (hid ▸ hlast)).trans (RunTest.judged_of_some hcons).symm
  · next h =>
    rw [if_neg (Ne.symm h), Option.or_none] at hcons
    rw [RunTest.judged, RunTest.judged, hcons]

/-- Each test of a run is judged in place. -/
theorem testsOfRun_judged (s : Store) (judge : String → Verdict) (ts : List RunTest) (runId : Int) :
    (s.judged judge ts).testsOfRun runId = (s.testsOfRun runId).map (RunTest.judged judge ts) := by
  have hrun : ((fun t : RunTest => decide (t.runId = runId)) ∘ RunTest.judged judge ts) =
      fun t => decide (t.runId = runId) :=
    funext fun t => by rw [Function.comp, (RunTest.registered_judged judge ts t).2.1]
  rw [testsOfRun, judged, List.filter_map, hrun]
  rfl

/-- Verdicts on the tests of a run are recorded for good. -/
theorem judged_again (s : Store) (judge : String → Verdict) (runId : Int) :
    (s.judged judge (s.testsOfRun runId)).judged judge
      ((s.judged judge (s.testsOfRun runId)).testsOfRun runId) =
      s.judged judge (s.testsOfRun runId) := by
  rw [testsOfRun_judged]
  simp only [judged, List.map_map]
  refine congrArg (fun tests => { s with runTests := tests }) (List.map_congr_left fun t _ => ?_)
  exact RunTest.judged_again judge _ t

end Store

section Recording

variable (w : World) (resultsDir : String)

/-- The verdict that is recorded is the one by the files. -/
theorem exec_recordVerdict (t : RunTest) :
    exec World.answer (Manager.recordVerdict resultsDir t) w =
      if RunCall.recordTestResult ∈ w.broken then (.error (.storage (.broken .recordTestResult)), w)
      else (.ok (), { w with store := w.store.judge (w.warehouse.verdict resultsDir) t }) := by
  rw [Manager.recordVerdict, exec_bind, exec_ask]
  dsimp only
  rw [exec_bind, exec_ask]
  dsimp only
  rw [exec_stored]
  let v := w.warehouse.verdict resultsDir t.fullName
  have hanswer := World.answer_recordTestResult w t.id v.success v.startedAt v.endedAt
  split
  · next h =>
      exact congrArg (fun r => (r.1.mapError ServiceError.storage, r.2)) (hanswer.trans (if_pos h))
  · next h =>
      exact congrArg (fun r => (r.1.mapError ServiceError.storage, r.2)) (hanswer.trans (if_neg h))

/-- Verdicts that cannot be recorded fail at the first one. -/
theorem exec_recordVerdicts_of_broken (hbroken : RunCall.recordTestResult ∈ w.broken) (t : RunTest)
    (rest : List RunTest) :
    exec World.answer (Manager.recordVerdicts resultsDir (t :: rest)) w =
      (.error (.storage (.broken .recordTestResult)), w) := by
  rw [Manager.recordVerdicts, exec_bind, exec_recordVerdict, if_pos hbroken]

/-- The verdicts on tests are recorded unless recording is broken. -/
theorem exec_recordVerdicts {ts : List RunTest}
    (hworks : ts ≠ [] → RunCall.recordTestResult ∉ w.broken) :
    exec World.answer (Manager.recordVerdicts resultsDir ts) w =
      (.ok (), { w with store := w.store.judged (w.warehouse.verdict resultsDir) ts }) := by
  induction ts generalizing w with
  | nil =>
    rw [Store.judged_nil]
    rfl
  | cons t rest ih =>
    have hworks := hworks (List.cons_ne_nil t rest)
    rw [Manager.recordVerdicts, exec_bind, exec_recordVerdict, if_neg hworks]
    dsimp only
    rw [ih { w with store := w.store.judge (w.warehouse.verdict resultsDir) t } fun _ => hworks,
      ← Store.judged_cons]

end Recording

/-- Verdicts that are recorded are settled. -/
theorem settled_recordVerdicts {w : World} {resultsDir : String} {ts : List RunTest}
    (hworks : ts ≠ [] → RunCall.recordTestResult ∉ w.broken)
    (hrecorded : w.store.judged (w.warehouse.verdict resultsDir) ts = w.store) :
    (Manager.recordVerdicts resultsDir ts).Settled (.ok ()) w := by
  intro again hagain
  have hkept : again.store.judged (again.warehouse.verdict resultsDir) ts = again.store := by
    rw [hagain.store, hagain.warehouse, hrecorded]
  rw [exec_recordVerdicts again resultsDir (by rwa [hagain.broken]), hkept]
  exact ⟨rfl, hagain⟩

/-- Verdicts that cannot be recorded are settled, too. -/
theorem settled_recordVerdicts_of_broken {w : World} (hbroken : RunCall.recordTestResult ∈ w.broken)
    (resultsDir : String) (t : RunTest) (rest : List RunTest) :
    (Manager.recordVerdicts resultsDir (t :: rest)).Settled
      (.error (.storage (.broken .recordTestResult))) w := by
  intro again hagain
  rw [exec_recordVerdicts_of_broken again resultsDir (by rwa [hagain.broken])]
  exact ⟨rfl, hagain⟩

end PipelineManager
