import PipelineManager.Proofs.Service.Authorization
import PipelineManager.Proofs.Service.Submitted
import PipelineManager.Proofs.Service.Verdicts

/-!
# Publications of results

A publication looks for the report of every test of its run, in the directory that is named for the
test, and records the verdict that follows from it. It does so in the order of registration before
it turns to the log of the build, and makes no other call of the kind: what it has read and recorded
when it fails is the beginning of what it reads and records when it succeeds.
-/

namespace PipelineManager

/-! ## Verdict steps -/

/-- A step towards the verdicts on tests: a file that is read or a verdict that is recorded. -/
inductive VerdictStep where
  | read (path : String)
  | record (id : Int) (verdict : Verdict)

/-- The step that a call takes towards verdicts, if it takes one. -/
def Call.verdictStep? : Call → Option VerdictStep
  | download path => some (.read path)
  | recordTestResult id success startedAt endedAt => some (.record id ⟨success, startedAt, endedAt⟩)
  | _ => none

/-- The steps that were taken in a trial. -/
def Trial.verdictSteps (t : Trial) : List VerdictStep :=
  t.past.filterMap fun x => x.call.verdictStep?

/-- The steps to the verdict on a test: its report is read in the directory of results that has its
full name, and what the report says is recorded for the test. -/
def RunTest.verdictSteps (W : Warehouse) (resultsDir : String) (t : RunTest) : List VerdictStep :=
  [.read (Manager.reportPath resultsDir t.fullName), .record t.id (W.verdict resultsDir t.fullName)]

/-- A call adds the step on verdicts that it is. -/
theorem Trial.verdictSteps_answer (plan : Nat → Option Mishap) (c : Call) (t : Trial) :
    (answer plan c t).2.verdictSteps = t.verdictSteps ++ c.verdictStep?.toList := by
  rw [verdictSteps, past_answer, List.filterMap_append, List.filterMap_cons, List.filterMap_nil]
  cases h : c.verdictStep? <;> rfl

/-- When the verdicts are recorded and the log is kept, no more steps are taken. -/
theorem Call.KeepsLog.verdictStep?_eq_none {c : Call} (h : c.KeepsLog) : c.verdictStep? = none := by
  cases c <;> first
    | exact h.elim
    | rfl

/-! ## Recording -/

section Recording

variable {plan : Nat → Option Mishap} {t : Trial} {α : Type}

/-- A service without steps leaves the steps as they are. -/
theorem Trial.ends_of_no_steps {p : Service α}
    (hp : Service.Asks (fun c => c.verdictStep? = none) p) :
    Service.Ends (answer plan) p t (fun _ t' => t'.verdictSteps = t.verdictSteps)
      fun _ t' => t'.verdictSteps = t.verdictSteps := by
  have hstep : ∀ c (t' : Trial), c.verdictStep? = none → t'.verdictSteps = t.verdictSteps →
      (answer plan c t').2.verdictSteps = t.verdictSteps := by
    intro c t' hc ht'
    rw [verdictSteps_answer, hc, ht', Option.toList_none, List.append_nil]
  exact Service.ends_iff.mpr (hp.run_invariant hstep rfl)

/-- A verdict is reached by the report of its test, whether it can be recorded or not. -/
theorem ends_recordVerdict (resultsDir : String) (row : RunTest) :
    Service.Ends (Trial.answer plan) (Manager.recordVerdict resultsDir row) t
      (fun _ t' => t'.world.warehouse = t.world.warehouse ∧
        t'.verdictSteps = t.verdictSteps ++ row.verdictSteps t.world.warehouse resultsDir)
      fun _ t' => t'.verdictSteps =
        t.verdictSteps ++ row.verdictSteps t.world.warehouse resultsDir := by
  let path := Manager.reportPath resultsDir row.fullName
  let v := t.world.warehouse.verdict resultsDir row.fullName
  have hread :
      (Trial.answer plan (.download path) t).1 =
          (t.world.warehouse.download path).mapError .warehouse := by
    rw [Trial.answer_fst, Trial.answerWith_of_failing?_eq_none fun _ => rfl]
    rfl
  have hworld : (Trial.answer plan (.download path) t).2.world = t.world := by
    rw [Trial.world_answer, Trial.answerWith_of_failing?_eq_none fun _ => rfl]
    rfl
  rw [Manager.recordVerdict, Service.ends_ask_bind, hread]
  dsimp only
  rw [Service.ends_ask_bind]
  set t₁ := (Trial.answer plan (.download path) t).2
  set c := Call.recordTestResult row.id v.success v.startedAt v.endedAt with hc
  have hsteps : (Trial.answer plan c t₁).2.verdictSteps =
      t.verdictSteps ++ row.verdictSteps t.world.warehouse resultsDir := by
    rw [Trial.verdictSteps_answer, Trial.verdictSteps_answer, List.append_assoc]
    rfl
  have hwarehouse : (Trial.answer plan c t₁).2.world.warehouse = t.world.warehouse := by
    rw [Trial.world_answer, hworld]
    rcases t.world.answerWith_snd_cases (plan t₁.past.length) c with h | h <;> rw [h]
    rcases t.world.ofStore_cases .recordTestResult
        (.ok (t.world.store.recordTestResult row.id v.success v.startedAt v.endedAt, ())) with
      ⟨e, hanswer⟩ | ⟨s, a, -, hanswer⟩
    all_goals
      rw [hc, World.answer, hanswer]
  change Service.Ends _ (Service.stored (Trial.answer plan c t₁).1) (Trial.answer plan c t₁).2 _ _
  cases (Trial.answer plan c t₁).1 with
  | ok _ => exact ⟨hwarehouse, hsteps⟩
  | error _ => exact hsteps

/-- Verdicts are reached in order. -/
theorem ends_recordVerdicts (resultsDir : String) (rows : List RunTest) :
    Service.Ends (Trial.answer plan) (Manager.recordVerdicts resultsDir rows) t
      (fun _ t' => t'.verdictSteps =
        t.verdictSteps ++ rows.flatMap (RunTest.verdictSteps t.world.warehouse resultsDir))
      fun _ t' => t'.verdictSteps <+:
        t.verdictSteps ++ rows.flatMap (RunTest.verdictSteps t.world.warehouse resultsDir) := by
  induction rows generalizing t with
  | nil => exact (List.append_nil t.verdictSteps).symm
  | cons row rest ih =>
    rw [Manager.recordVerdicts, Service.ends_bind, List.flatMap_cons, ← List.append_assoc]
    refine (ends_recordVerdict resultsDir row).mono ?_ fun _ t₁ h₁ => h₁ ▸ List.prefix_append _ _
    rintro _ t₁ ⟨hwarehouse, hsteps⟩
    rw [← hsteps, ← hwarehouse]
    exact ih

end Recording

/-! ## Publishing -/

/-- Whether a publication for a run reaches the verdicts on some tests, and takes no other step: all
steps to them in order if it succeeds, the first of them if it fails. -/
def World.Judges (w : World) (runId : Int) (rows : List RunTest) : Prop :=
  ∀ plan token directory,
    let steps := rows.flatMap (RunTest.verdictSteps w.warehouse (Text.dropEndSlashes directory))
    Service.Ends (Trial.answer plan) (Manager.publishResults runId token directory) { world := w }
      (fun _ t => t.verdictSteps = steps) fun _ t => t.verdictSteps <+: steps

/-- The tests that are looked up are those of the run. -/
theorem World.answerWith_runTests {w : World} {mishap : Option Mishap} {runId : Int}
    {rows : List RunTest} (h : (w.answerWith mishap (.runTests runId)).1 = .ok rows) :
    rows = w.store.testsOfRun runId := by
  have hfault : (Call.runTests runId).fault? (w.answerWith mishap (.runTests runId)).1 = none := by
    rw [h]
    rfl
  rcases answerWith_of_fault?_eq_none hfault with hanswer | ⟨⟨a, ha⟩, -⟩
  · rw [hanswer, answer_runTests] at h
    split at h
    · exact nomatch h
    · exact (Except.ok.inj h).symm
  · exact nomatch ha

section Publishing

variable {plan : Nat → Option Mishap} {t : Trial} {runId : Int}

/-- The run is looked up before anything else. -/
theorem ends_authorizedRun (token : String) :
    Service.Ends (Trial.answer plan) (Manager.authorizedRun runId token) t
      (fun _ t' => t'.world = t.world ∧ t'.verdictSteps = t.verdictSteps)
      fun _ t' => t'.verdictSteps = t.verdictSteps := by
  have hworld : (Trial.answer plan (.run runId) t).2.world = t.world := World.answerWith_run _
  have hsteps : (Trial.answer plan (.run runId) t).2.verdictSteps = t.verdictSteps := by
    rw [Trial.verdictSteps_answer]
    exact List.append_nil _
  rw [Service.Ends, exec_authorizedRun]
  rcases admitted _ _ _ with e | r
  · exact hsteps
  · exact ⟨hworld, hsteps⟩

/-- Then its tests are listed. -/
theorem ends_runTests_bind {α : Type} {next : List RunTest → Service α} {ok : α → Trial → Prop}
    {failed : ServiceError → Trial → Prop}
    (hnext : ∀ t', t'.world = t.world → t'.verdictSteps = t.verdictSteps →
      Service.Ends (Trial.answer plan) (next (t.world.store.testsOfRun runId)) t' ok failed)
    (hfailed : ∀ e t', t'.verdictSteps = t.verdictSteps → failed e t') :
    Service.Ends (Trial.answer plan) (do
      let rows ← Service.stored (← Service.ask (.runTests runId))
      next rows) t ok failed := by
  have hworld : (Trial.answer plan (.runTests runId) t).2.world = t.world := by
    rw [Trial.world_answer]
    rcases t.world.answerWith_snd_cases (plan t.past.length) (.runTests runId) with h | h <;> rw [h]
    rw [World.answer_runTests]
  have hsteps : (Trial.answer plan (.runTests runId) t).2.verdictSteps = t.verdictSteps := by
    rw [Trial.verdictSteps_answer]
    exact List.append_nil _
  rw [Service.ends_ask_bind, Service.ends_bind]
  rcases hrows : (Trial.answer plan (.runTests runId) t).1 with e | rows
  · exact hfailed _ _ hsteps
  · obtain rfl := World.answerWith_runTests hrows
    exact hnext _ hworld hsteps

/-- A publication reaches the verdicts on the tests that are registered for its run. -/
theorem World.judges_testsOfRun (w : World) (runId : Int) :
    w.Judges runId (w.store.testsOfRun runId) := by
  intro plan token directory steps
  have hblank : ({ world := w } : Trial).verdictSteps = [] := rfl
  rw [Manager.publishResults_eq, Service.ends_bind]
  refine (ends_authorizedRun token).mono ?_ fun _ t h => (h.trans hblank) ▸ List.nil_prefix
  rintro r t ⟨hworld, hsteps⟩
  refine ends_runTests_bind (fun t₁ hworld₁ hsteps₁ => ?_) fun _ t₁ h =>
    (h.trans hsteps) ▸ List.nil_prefix
  have hverdicts : Service.Ends (Trial.answer plan) _ t₁ _ _ :=
    ends_recordVerdicts (Text.dropEndSlashes directory) (t.world.store.testsOfRun runId)
  rw [hsteps₁, hsteps, hblank, List.nil_append, hworld₁, hworld] at hverdicts
  rw [hworld, Service.ends_bind]
  refine hverdicts.mono (fun _ t₂ h₂ => ?_) fun _ _ h => h
  have hrest :
      Service.Ends (Trial.answer plan) (Manager.keepLog r runId (Text.dropEndSlashes directory))
        t₂ _ _ :=
    Trial.ends_of_no_steps
      ((asks_keepLog r runId _).mono fun _ => Call.KeepsLog.verdictStep?_eq_none)
  exact hrest.mono (fun _ _ h => h.trans h₂) fun _ _ h => (h.trans h₂) ▸ List.prefix_rfl

end Publishing
end PipelineManager
