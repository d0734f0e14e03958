import PipelineManager.Proofs.Service.Facts
import PipelineManager.Proofs.Service.Stages

/-!
# Rejected submissions

Most errors of a submission tell what is wrong with its descriptor, or with what it refers to: the
text is no descriptor, its tests do not fit the testbed, an archive is missing or lies outside the
warehouse. All of these are found before a run is created, by calls that only look. Behind these
checks, a submission fails with other errors only, so an error of this kind tells that nothing was
changed.
-/

namespace PipelineManager

open Service

/-- Whether an error turns a descriptor down. -/
def ServiceError.IsRejection : ServiceError → Prop
  | structural _ | semantic _ | metricsContract | testbedNotFound _ | missingArtifact _ => True
  | _ => False

/-! ## Behind the checks -/

variable {α : Type}

/-- A stage that fails does so with the error it was given. -/
theorem failsOnly_failStage {R : ServiceError → Prop} {e : ServiceError} (h : R e) (runId : Int)
    (state : RunState) :
    FailsOnly R (failStage runId state e : Service α) := by
  apply failsOnly_bind (failsOnly_ask _)
  intro _
  exact failsOnly_throw h

/-- A stage fails only as what it reports. -/
theorem failsOnly_stage {R : ServiceError → Prop} {r : Except ServiceError α}
    (h : ∀ e, r = .error e → R e) (runId : Int) (state : RunState) :
    FailsOnly R (stage runId state r) := by
  cases r with
  | ok a => exact failsOnly_pure a
  | error e => exact failsOnly_failStage (h e rfl) runId state

/-- The answer to a call fails a stage with the error that it is wrapped in. -/
theorem failsOnly_stage_mapError {R : ServiceError → Prop} {wrap : Fault → ServiceError}
    (h : ∀ cause, R (wrap cause)) (r : Except Fault α) (runId : Int) (state : RunState) :
    FailsOnly R (stage runId state (r.mapError wrap)) := by
  apply failsOnly_stage
  intro e he
  cases r with
  | ok a => cases he
  | error cause =>
    obtain rfl : wrap cause = e := Except.error.inj he
    exact h cause

/-- A mark fails only as the log refuses it. -/
theorem failsOnly_markStage {R : ServiceError → Prop} (h : ∀ e, R (.status e)) (runId : Int)
    (state : RunState) :
    FailsOnly R (markStage runId state) := by
  apply failsOnly_bind (failsOnly_ask _)
  intro r
  cases r with
  | ok entry => exact failsOnly_pure ()
  | error e => exact failsOnly_failStage (h e) runId state

/-- Whether an error does not turn a descriptor down. -/
abbrev ServiceError.IsLate (e : ServiceError) : Prop := ¬ e.IsRejection

namespace Manager

/-- The choice of an agent fails only after the run is created. -/
theorem failsOnly_chooseAgent (info : TestInfo) (runId : Int) :
    FailsOnly ServiceError.IsLate (chooseAgent info runId) := by
  have hprobe (agents : List Agent) : FailsOnly ServiceError.IsLate (probeAll agents) := by
    induction agents with
    | nil => exact failsOnly_pure []
    | cons a rest ih =>
      apply failsOnly_bind (failsOnly_ask _)
      intro _
      exact failsOnly_bind ih fun _ => failsOnly_pure _
  apply failsOnly_bind (failsOnly_ask _)
  intro listed
  apply failsOnly_bind (failsOnly_stage_mapError (fun _ => id) listed _ _)
  intro agents
  apply failsOnly_bind (hprobe agents)
  intro probed
  split
  · exact failsOnly_failStage id _ _
  · apply failsOnly_bind (failsOnly_ask _)
    intro r
    apply failsOnly_bind (failsOnly_stage_mapError (fun _ => id) r _ _)
    intro _
    exact failsOnly_bind (failsOnly_markStage (fun _ => id) _ _) fun _ => failsOnly_pure _

/-- Token provisioning fails only after the run is created. -/
theorem failsOnly_provideToken (agent : Agent) (runId : Int) :
    FailsOnly ServiceError.IsLate (provideToken agent runId) := by
  apply failsOnly_bind (failsOnly_ask _)
  intro token
  apply failsOnly_bind (failsOnly_ask _)
  intro created
  apply failsOnly_bind (failsOnly_stage_mapError (fun _ => id) created _ _)
  intro _
  apply failsOnly_bind (failsOnly_ask _)
  intro r
  apply failsOnly_bind (failsOnly_stage_mapError (fun _ => id) r _ _)
  intro _
  exact failsOnly_markStage (fun _ => id) _ _

/-- The creation of the script fails only after the run is created. -/
theorem failsOnly_createScript (m : Manager) (d : Descriptor) (tests : List ExecutedTest)
    (runId : Int) :
    FailsOnly ServiceError.IsLate (m.createScript d tests runId) := by
  have hregister : FailsOnly ServiceError.IsLate (registerTests d.info.netappId runId tests) := by
    induction tests with
    | nil => exact failsOnly_pure ()
    | cons t rest ih =>
      apply failsOnly_bind (failsOnly_ask _)
      intro r
      exact failsOnly_bind (failsOnly_stored (fun _ => id) r) fun _ => ih
  have hprepare : FailsOnly ServiceError.IsLate (m.prepareScript d tests runId) := by
    apply failsOnly_bind hregister
    intro _
    apply failsOnly_bind (failsOnly_ask _)
    intro catalogue
    split
    · exact failsOnly_pure _
    · exact failsOnly_throw id
  apply failsOnly_result_bind hprepare
  intro r hr
  apply failsOnly_bind (failsOnly_stage hr _ _)
  intro script
  exact failsOnly_bind (failsOnly_markStage (fun _ => id) _ _) fun _ => failsOnly_pure _

/-- The start of the job fails only after the run is created. -/
theorem failsOnly_startRun (agent : Agent) (runId : Int) (name script : String) :
    FailsOnly ServiceError.IsLate (startRun agent runId name script) := by
  have hlaunch : FailsOnly ServiceError.IsLate (launch agent name script) := by
    apply failsOnly_bind (failsOnly_ask _)
    intro r
    cases r with
    | ok _ => exact failsOnly_ask _
    | error e => exact failsOnly_pure _
  apply failsOnly_bind hlaunch
  intro launched
  apply failsOnly_bind (failsOnly_stage_mapError (fun _ => id) launched _ _)
  intro build
  apply failsOnly_bind (failsOnly_ask _)
  intro r
  apply failsOnly_bind (failsOnly_stage_mapError (fun _ => id) r _ _)
  intro _
  exact failsOnly_bind (failsOnly_markStage (fun _ => id) _ _) fun _ => failsOnly_pure _

/-- Once a descriptor has passed its checks, no error turns it down any more. -/
theorem failsOnly_dispatch (m : Manager) (d : Descriptor) (tests : List ExecutedTest) :
    FailsOnly ServiceError.IsLate (m.dispatch d tests) := by
  have hprepare : FailsOnly ServiceError.IsLate (m.prepare d tests) := by
    apply failsOnly_bind (failsOnly_ask _)
    intro accessToken
    apply failsOnly_bind (failsOnly_ask _)
    intro created
    apply failsOnly_bind (failsOnly_stored (fun _ => id) created)
    intro run
    apply failsOnly_bind (failsOnly_markStage (fun _ => id) _ _)
    intro _
    apply failsOnly_bind (failsOnly_chooseAgent d.info run.id)
    intro agent
    apply failsOnly_bind (failsOnly_provideToken agent run.id)
    intro _
    exact failsOnly_bind (m.failsOnly_createScript d tests run.id) fun _ => failsOnly_pure _
  apply failsOnly_bind hprepare
  intro prepared
  exact failsOnly_bind (failsOnly_startRun _ _ _ _) fun _ => failsOnly_pure _

end Manager

/-! ## The checks -/

/-- Whether the archive of some developer-defined test that a descriptor executes lies outside the
warehouse. -/
def Descriptor.LeavesWarehouse (d : Descriptor) : Prop :=
  ∃ t ∈ d.executedTests, t.isDeveloperDefined ∧
    ∃ path, Location.ofPath (archivePath d.info.netappId t.testcase.name) = .error (.escapes path)

section Checks

variable (plan : Nat → Option Mishap)

/-- An archive that was found lies in the warehouse. -/
theorem Warehouse.exists_location_of_holds {W : Warehouse} {path : String} {found : Bool}
    (h : W.holds path = .ok found) : ∃ location, Location.ofPath path = .ok location := by
  unfold Warehouse.holds at h
  split at h
  · cases h
  · next location hlocation => exact ⟨location, hlocation⟩

/-- Archives that were all found lie in the warehouse. -/
theorem ends_requireArchives (netappId : String) (tests : List ExecutedTest) (t : Trial) :
    Ends (Trial.answer plan) (requireArchives netappId tests) t
      (fun _ _ => ∀ x ∈ tests, x.isDeveloperDefined →
        ∃ location, Location.ofPath (archivePath netappId x.testcase.name) = .ok location)
      fun _ _ => True := by
  induction tests generalizing t with
  | nil => exact fun x hx => absurd hx List.not_mem_nil
  | cons x rest ih =>
    by_cases hx : x.isDeveloperDefined
    · simp only [requireArchives, hx, if_true]
      rw [ends_ask_bind]
      obtain ⟨hanswer, -, -⟩ :=
        Trial.answer_look plan (c := .holds (archivePath netappId x.testcase.name)) trivial t
      rw [hanswer]
      cases hfound : t.world.warehouse.holds (archivePath netappId x.testcase.name) with
      | error e =>
        rw [World.answer, hfound]
        trivial
      | ok found =>
        rw [World.answer, hfound]
        apply ends_require_bind
        · intro _
          refine (ih _).mono ?_ fun _ _ _ => trivial
          intro _ _ hrest
          exact List.forall_mem_cons.mpr ⟨fun _ => Warehouse.exists_location_of_holds hfound, hrest⟩
        · exact fun _ => trivial
    · simp only [requireArchives, hx]
      refine (ih t).mono ?_ fun _ _ _ => trivial
      intro _ _ hrest
      exact List.forall_mem_cons.mpr ⟨fun h => absurd h hx, hrest⟩

/-- Only a descriptor whose archives lie in the warehouse passes its checks. -/
theorem Manager.ends_check_inside (m : Manager) (d : Descriptor) (t : Trial) :
    Ends (Trial.answer plan) (m.check d) t (fun _ _ => ¬ d.LeavesWarehouse) fun _ _ => True := by
  rw [check]
  dsimp only
  rw [ends_ask_bind]
  refine ends_require_bind (fun _ => ?_) fun _ => trivial
  rw [ends_ask_bind]
  refine ends_require_bind (fun _ => ?_) fun _ => trivial
  refine ends_require_bind (fun _ => ?_) fun _ => trivial
  apply (ends_requireArchives plan _ _ _).bind
  rintro _ t' hinside ⟨x, hx, hdeveloper, path, hescapes⟩
  obtain ⟨location, hlocation⟩ := hinside x hx hdeveloper
  rw [hescapes] at hlocation
  cases hlocation

/-- The checks leave the world as it is. -/
theorem Manager.ends_check_untouched (m : Manager) (d : Descriptor) (w : World) :
    Ends (Trial.answer plan) (m.check d) { world := w } (fun _ t => t.world = w)
      fun _ t => t.world = w :=
  (m.ends_check_outside d w).mono (fun _ _ h => h.1) fun _ _ h => h.1

end Checks

/-! ## Submissions -/

/-- What a descriptor is submitted as: a text, a tree, or a record that was read before. -/
inductive Submission where
  | written (text : String)
  | tree (v : Value)
  | record (d : Descriptor)

namespace Submission

/-- The descriptor that is submitted. -/
def descriptor : Submission → Except (List Schema.Violation) Descriptor
  | written text => Descriptor.parseYaml text
  | tree v => Descriptor.parse v
  | record d => .ok d

/-- What a manager does with a submission. -/
def service (m : Manager) : Submission → Service Receipt
  | written text => m.submitText text
  | tree v => m.submitValue v
  | record d => m.submitDescriptor d

/-- What is no descriptor is turned down, and a descriptor is submitted. -/
theorem service_cases (m : Manager) (q : Submission) :
    (∃ d, q.descriptor = .ok d ∧ q.service m = m.submitDescriptor d) ∨
      ∃ vs, q.descriptor = .error vs ∧ q.service m = throw (.structural vs) := by
  have hparsed (r : Except (List Schema.Violation) Descriptor) :
      (∃ d, r = .ok d ∧ (Manager.parsed r >>= m.submitDescriptor) = m.submitDescriptor d) ∨
        ∃ vs, r = .error vs ∧
            (Manager.parsed r >>= m.submitDescriptor) = throw (.structural vs) := by
    cases r with
    | ok d => exact .inl ⟨d, rfl, rfl⟩
    | error vs => exact .inr ⟨vs, rfl, rfl⟩
  cases q with
  | written text => exact hparsed (Descriptor.parseYaml text)
  | tree v => exact hparsed (Descriptor.parse v)
  | record d => exact .inl ⟨d, rfl, rfl⟩

/-- Whether what is submitted is turned down when it fails with an error: the error is one that
turns a descriptor down, or an archive of the descriptor lies outside the warehouse. -/
def TurnedDown (q : Submission) (e : ServiceError) : Prop :=
  e.IsRejection ∨ ∃ d, q.descriptor = .ok d ∧ d.LeavesWarehouse

end Submission

/-- How the submission of a descriptor fails: the world is as it was, or all archives lie in the
warehouse and the error does not turn the descriptor down. -/
theorem Manager.ends_submitDescriptor_untouched (m : Manager) (d : Descriptor)
    (plan : Nat → Option Mishap) (w : World) :
    Ends (Trial.answer plan) (m.submitDescriptor d) { world := w } (fun _ _ => ¬ d.LeavesWarehouse)
      fun e t => t.world = w ∨ e.IsLate ∧ ¬ d.LeavesWarehouse := by
  have hcheck := (m.ends_check_inside plan d { world := w }).and (m.ends_check_untouched plan d w)
  rw [submitDescriptor, ends_bind]
  apply hcheck.mono
  · rintro tests t ⟨hinside, -⟩
    exact (m.failsOnly_dispatch d tests).ends.mono (fun _ _ _ => hinside) fun _ _ hlate =>
      .inr ⟨hlate, hinside⟩
  · rintro e t ⟨-, huntouched⟩
    exact .inl huntouched

/-- A submission that is turned down leaves no trace, whatever calls go wrong: the store, the
warehouse, the credentials and the jobs are those from before. -/
theorem Manager.rejected_submissions_leave_no_trace (m : Manager) (q : Submission)
    (plan : Nat → Option Mishap) {w w' : World} {e : ServiceError}
    (h : w.attempt plan (q.service m) = (.error e, w')) (hdown : q.TurnedDown e) :
    w' = w := by
  rcases q.service_cases m with ⟨d, hd, hservice⟩ | ⟨vs, -, hservice⟩
  · rw [hservice] at h
    obtain ⟨hfailed, rfl⟩ := Prod.mk.inj h
    rcases (m.ends_submitDescriptor_untouched d plan w).of_failure hfailed with
      hworld | ⟨hlate, hinside⟩
    · exact hworld
    · rcases hdown with hrejection | ⟨d', hd', hleaves⟩
      · exact absurd hrejection hlate
      · rw [hd] at hd'
        obtain rfl := Except.ok.inj hd'
        exact absurd hleaves hinside
  · rw [hservice] at h
    exact (congrArg Prod.snd h).symm

/-- A descriptor whose developer-defined test has its archive outside the warehouse. -/
def outsideDescriptor : Descriptor where
  info := ⟨"tb", "..", "net", none⟩
  setup := ⟨[], [⟨1, "probe", .developerDefined, "all", none, []⟩], none⟩
  execution := [⟨1, "all", [⟨1, none, [1]⟩]⟩]

/-- A path of the descriptor leads out of the warehouse. -/
theorem outsideDescriptor_leavesWarehouse : outsideDescriptor.LeavesWarehouse := by
  refine ⟨_, List.mem_singleton_self _, rfl, "developer-defined-tests/../probe.tar.gz", ?_⟩
  rfl

/-- A descriptor with a path out of the warehouse is turned down without trace. -/
theorem Manager.rejected_submissions_leave_no_trace_outside :
    ∃ e w', smallWorld.attempt lateCredential
      ((Submission.record outsideDescriptor).service smallManager) =
        (.error e, w') ∧
      (Submission.record outsideDescriptor).TurnedDown e ∧ w' = smallWorld := by
  let e : ServiceError := .storage (.warehouse (.escapes "developer-defined-tests/../probe.tar.gz"))
  have hdown : (Submission.record outsideDescriptor).TurnedDown e :=
    .inr ⟨outsideDescriptor, rfl, outsideDescriptor_leavesWarehouse⟩
  exact ⟨e, _, rfl, hdown,
    rejected_submissions_leave_no_trace smallManager _ lateCredential rfl hdown⟩

end PipelineManager
