import PipelineManager.Proofs.Service.Retry
import PipelineManager.Proofs.Service.Tokens

/-!
# Reports on a run

Once a run is submitted, only a status report that comes with its token adds to its log. Submissions
make other runs, strangers are refused, and all other requests report on other runs or on none. So
what was reported on a run stays reported, whatever happens until the next report: that of a later
state is recorded behind it, and that of the latest state is answered as it was before.
-/

namespace PipelineManager

open StatusRequest

/-! ## What leaves the log of a run -/

/-- Whether a call reports on a run. -/
def Call.ReportsOn (runId : Int) : Call → Prop
  | appendStatus id _ _ => id = runId
  | _ => False

/-- Whether an event is a report on a run that comes with a token. -/
def Event.ReportsOn (runId : Int) (token : String) : Event → Prop
  | request (.callback id other (.recordStatus _ _)) _ => id = runId ∧ other = token
  | _ => False

/-- A follow-up of a report on one run reports on no other. -/
theorem Call.FollowsUp.not_reportsOn {reported : Option Int} {c : Call} (h : c.FollowsUp reported)
    {runId : Int} (hne : reported ≠ some runId) : ¬ c.ReportsOn runId := by
  cases c with
  | appendStatus id state success =>
    rintro rfl
    exact hne h
  | _ => exact id

namespace World

variable {w : World} {runId : Int} {token : String}

/-- A call that does not report on a run leaves its status rows. -/
theorem statusRows_answer {c : Call} (hc : ¬ c.ReportsOn runId) (w : World) :
    (answer c w).2.store.statusRows runId = w.store.statusRows runId := by
  rcases store_answer c w with hstore | ⟨op, hop, hstore⟩ <;> rw [hstore]
  apply Store.statusRows_perform
  rintro q rfl
  cases c with
  | appendStatus id state success =>
    cases hop
    exact hc
  | _ => cases hop

/-- A call that does not report on a run leaves its status rows, also when it goes wrong. -/
theorem statusRows_answerWith {c : Call} (hc : ¬ c.ReportsOn runId) (mishap : Option Mishap)
    (w : World) :
    (w.answerWith mishap c).2.store.statusRows runId = w.store.statusRows runId := by
  rcases w.answerWith_snd_cases mishap c with h | h <;> rw [h]
  exact statusRows_answer hc w

/-- A submission reports on the run that it makes. -/
theorem statusRows_submitDescriptor (hw : w.store.Consistent) (hrun : (w.store.run? runId).isSome)
    (plan : Nat → Option Mishap) (m : Manager) (d : Descriptor) :
    (w.attempt plan (m.submitDescriptor d)).2.store.statusRows runId =
      w.store.statusRows runId := by
  have hne {run : Run} {marks : List (RunState × Bool)} {w' : World} (h : Underway w run marks w') :
      runId ≠ run.id :=
    fun heq => h.notMem hw (heq ▸ (w.store.isSome_run?_iff runId).mp hrun)
  have hends : Service.Ends (Trial.answer plan) (m.submitDescriptor d) { world := w }
      (fun _ t => t.world.store.statusRows runId = w.store.statusRows runId)
      fun _ t => t.world.store.statusRows runId = w.store.statusRows runId := by
    refine (m.ends_submission d hw).mono ?_ ?_
    · rintro receipt t ⟨run, hwell, -⟩
      exact hwell.underway.statusRows_of_ne (hne hwell.underway)
    · rintro e t (hworld | ⟨tests, ⟨cause, -, hworld, -⟩ | ⟨n, state, -, hstopped⟩⟩)
      · rw [hworld]
      · rw [hworld]
      · obtain ⟨run, -, hunderway⟩ := hstopped.underway
        exact hunderway.statusRows_of_ne (hne hunderway)
  exact Service.ends_iff.mp hends

/-- A request that reports on no run, on another run or without the token leaves the log of
a run. -/
theorem statusRows_request (hw : w.store.Consistent) (hgrants : w.store.Grants runId token)
    {q : ServiceRequest} {plan : Nat → Option Mishap}
    (hq : ¬ Event.ReportsOn runId token (.request q plan)) :
    (w.attempt plan q.service).2.store.statusRows runId = w.store.statusRows runId := by
  by_cases hsubmits : ∃ m d, q = .submit m d
  · obtain ⟨m, d, rfl⟩ := hsubmits
    obtain ⟨r, hr, -⟩ := hgrants
    exact statusRows_submitDescriptor hw (by rw [hr]; rfl) plan m d
  · by_cases hreported : q.reported? = some runId
    · -- A report on the run that comes without its token is a stranger's.
      have hstrange : q.IsStrange w.store runId := by
        rcases q with _ | ⟨id, other, _ | _ | _⟩ | _ | _ <;> cases hreported
        refine ⟨rfl, ?_⟩
        rintro ⟨r, hr, hother⟩
        obtain ⟨r', hr', htoken⟩ := hgrants
        obtain rfl := Option.some.inj (hr.symm.trans hr')
        exact hq ⟨rfl, Option.some.inj (hother.symm.trans htoken)⟩
      rw [hstrange.attempt_eq plan]
    · have hasks := q.asks_service fun m d h => hsubmits ⟨m, d, h⟩
      have hstep : ∀ c mishap (v : World), c.FollowsUp q.reported? →
          v.store.statusRows runId = w.store.statusRows runId →
          (v.answerWith mishap c).2.store.statusRows runId = w.store.statusRows runId :=
        fun c mishap v hc hv =>
          (statusRows_answerWith (hc.not_reportsOn hreported) mishap v).trans hv
      exact attempt_invariant hasks hstep rfl plan

/-- An event that is no report on a run with its token leaves the log of the run. -/
theorem statusRows_event (hw : w.store.Consistent) (hgrants : w.store.Grants runId token)
    {e : Event} (he : ¬ e.ReportsOn runId token) :
    (w.perform e).store.statusRows runId = w.store.statusRows runId := by
  cases e with
  | request q plan => exact statusRows_request hw hgrants he
  | importCatalogue testbeds tests =>
    have hrest := w.store.importCatalogue_rest testbeds tests
    exact congrArg (fun s => s.statusRows runId) hrest
  | addAgent testbedId url username password =>
    have hop : ∀ q,
        Store.Operation.addAgent testbedId url username password = .appendStatus q →
            q.runId ≠ runId :=
      fun q hq => nomatch hq
    exact w.store.statusRows_perform hop
  | meanwhile x => rfl

/-- The token of a run is one of its facts. -/
theorem grants_iff_factsOf :
    w.store.Grants runId token ↔ (w.factsOf runId).token = some (some token) :=
  Option.map_eq_some_iff.symm

/-- A run that grants access is there. -/
theorem isSome_run?_of_grants (h : w.store.Grants runId token) : (w.store.run? runId).isSome := by
  obtain ⟨r, hr, -⟩ := h
  rw [hr]
  rfl

end World

/-! ## Runs that were reported on -/

/-- The run that a request is about, and what it says of it. -/
def StatusRequest.mark (q : StatusRequest) : Int × RunState × Bool := (q.runId, q.state, q.success)

/-- The run that an entry is about, and what it says of it. -/
def StatusEntry.mark (e : StatusEntry) : Int × RunState × Bool := (e.runId, e.state, e.success)

/-- Requests by which a run was reported on at any times, each for a later state than those
before. -/
structure Reporting (runId : Int) (marks : List (RunState × Bool))
    (own : List StatusRequest) : Prop where
  marked : own.map (·.mark) = marks.map (runId, ·)
  increasing : marks.Pairwise fun a b => a.1.ordinal < b.1.ordinal

namespace Reporting

variable {runId : Int} {marks : List (RunState × Bool)} {own : List StatusRequest}

/-- The requests of reports in order are all recorded. -/
theorem maxima_eq (h : Reporting runId marks own) : maxima own = own := by
  have hmarks : (marks.map (runId, ·)).Pairwise fun a b => a.2.1.ordinal < b.2.1.ordinal :=
    List.pairwise_map.mpr h.increasing
  rw [← h.marked, List.pairwise_map] at hmarks
  exact maxima_of_pairwise hmarks

/-- There is a request for each report. -/
theorem length_eq (h : Reporting runId marks own) : own.length = marks.length := by
  simpa using congrArg List.length h.marked

/-- The request for the next report is later than those before. -/
theorem isLater (h : Reporting runId marks own) {q : StatusRequest} (hnext : IsNext q.state marks) :
    q.IsLater own := by
  intro p hp
  have hmark : p.mark ∈ marks.map (runId, ·) := by
    rw [← h.marked]
    exact List.mem_map_of_mem hp
  obtain ⟨mark, hmem, heq⟩ := List.mem_map.mp hmark
  have hstate : mark = (p.state, p.success) := congrArg Prod.snd heq
  have hlater := hnext mark hmem
  rwa [hstate] at hlater

/-- A request for a later state may follow. -/
theorem concat (h : Reporting runId marks own) {state : RunState} (hnext : IsNext state marks)
    (success : Bool) (now : Timestamp) :
    Reporting runId (marks ++ [(state, success)]) (own ++ [⟨runId, state, success, now⟩]) where
  marked := by
    rw [List.map_append, h.marked, List.map_append]
    rfl
  increasing := hnext.pairwise_concat h.increasing success

/-- The last request is for what was reported last. -/
theorem exists_last {mark : RunState × Bool} (h : Reporting runId (marks ++ [mark]) own) :
    ∃ last, own.getLast? = some last ∧ last.mark = (runId, mark) := by
  have hlast : (own.map (·.mark)).getLast? = some (runId, mark) := by
    rw [h.marked, List.map_append, List.map_singleton, List.getLast?_concat]
  rw [List.getLast?_map] at hlast
  exact Option.map_eq_some_iff.mp hlast

end Reporting

/-- A world of a session in which a run was reported on, with the token that lets its reports in.
The log of the run holds these reports. -/
structure World.HasReports (w : World) (runId : Int) (token : String)
    (marks : List (RunState × Bool)) : Prop where
  reachable : w.Reachable
  grants : w.store.Grants runId token
  recorded : ∃ own, Reporting runId marks own ∧ w.store.Records runId own

namespace World

variable {w : World} {runId : Int} {token : String} {marks : List (RunState × Bool)}

/-- Reports stay, whatever happens that is no report with the token. -/
theorem HasReports.perform (h : w.HasReports runId token marks) {e : Event}
    (he : ¬ e.ReportsOn runId token) :
    (w.perform e).HasReports runId token marks where
  reachable := h.reachable.perform e
  grants := by
    have hfacts : (w.perform e).factsOf runId = w.factsOf runId :=
      h.reachable.factsOf_after (isSome_run?_of_grants h.grants) [e]
    rw [grants_iff_factsOf, hfacts, ← grants_iff_factsOf]
    exact h.grants
  recorded := by
    obtain ⟨own, hown, hrecords⟩ := h.recorded
    refine ⟨own, hown, ?_⟩
    rw [Store.Records, statusRows_event h.reachable.store.consistent h.grants he]
    exact hrecords

/-- A run keeps its reports through events that do not report on it. -/
theorem HasReports.after (h : w.HasReports runId token marks) {events : List Event}
    (hquiet : ∀ e ∈ events, ¬ e.ReportsOn runId token) :
    (w.after events).HasReports runId token marks := by
  induction events generalizing w with
  | nil => exact h
  | cons e events ih =>
    obtain ⟨he, hrest⟩ := List.forall_mem_cons.mp hquiet
    exact ih (h.perform he) hrest

/-- The log of a run holds what was reported on it, counted from 0 on. -/
theorem HasReports.exists_statusLog (h : w.HasReports runId token marks) :
    ∃ log, w.store.statusLog runId = .ok log ∧ log.map (·.seq) = List.range marks.length ∧
      log.map (·.mark) = marks.map (runId, ·) := by
  obtain ⟨own, hown, hrecords⟩ := h.recorded
  refine ⟨numbered own, ?_, ?_, ?_⟩
  · rw [hrecords.statusLog_eq, hown.maxima_eq]
  · rw [map_seq_numbered, hown.length_eq]
  · have hmarks : (numbered own).map (·.mark) = own.map (·.mark) :=
      map_numbered (fun _ _ => rfl) own
    rw [hmarks, hown.marked]

/-! ## Reports with the token -/

/-- A report with the token of a run is a request to the store, if the run can be looked up. -/
theorem carryOut_recordStatus (hgrants : w.store.Grants runId token)
    (hworks : RunCall.getRun ∉ w.broken) {state : RunState} (hagent : state.isAgentReported)
    (success : Bool) :
    w.carryOut (Manager.recordStatus runId token state success).run =
      ((w.store.request ⟨runId, state, success, w.now⟩).1.mapError .status,
        { w with store := (w.store.request ⟨runId, state, success, w.now⟩).2 }) := by
  obtain ⟨r, hr, htoken⟩ := hgrants
  show Service.exec answer (Manager.recordStatus runId token state success) w = _
  rw [Manager.recordStatus, Service.exec_bind, exec_authorizedRun_of_run hworks hr htoken]
  dsimp only
  rw [hagent, Service.exec_bind, Service.exec_require, if_pos rfl]
  dsimp only
  rw [Service.exec_bind, Service.exec_ask, answer_appendStatus rfl]
  cases (w.store.request ⟨runId, state, success, w.now⟩).1 <;> rfl

/-- The world after a report, like that after any request, is one of a session. -/
theorem Reachable.recordStatus (hw : w.Reachable) (runId : Int) (token : String) (state : RunState)
    (success : Bool) :
    (w.carryOut (Manager.recordStatus runId token state success).run).2.Reachable := by
  have hperformed :=
    hw.perform (.request (.callback runId token (.recordStatus state success)) fun _ => none)
  rwa [World.perform, ServiceRequest.service, Callback.service, attempt_undisturbed] at hperformed

/-- A report of a later state is accepted and recorded. -/
theorem HasReports.report (h : w.HasReports runId token marks) (hworks : RunCall.getRun ∉ w.broken)
    {state : RunState} (hagent : state.isAgentReported) (hnext : IsNext state marks)
    (success : Bool) :
    ∃ entry w', w.carryOut (Manager.recordStatus runId token state success).run = (.ok entry, w') ∧
      entry.mark = (runId, state, success) ∧
      w'.HasReports runId token (marks ++ [(state, success)]) := by
  obtain ⟨own, hown, hrecords⟩ := h.recorded
  have hrun : (w.store.run? runId).isSome := isSome_run?_of_grants h.grants
  have hrequest :=
    hrecords.request_later (q := ⟨runId, state, success, w.now⟩) hrun (hown.isLater hnext)
  have hrecorded := hrecords.request (q := ⟨runId, state, success, w.now⟩) hrun
  have hreachable := h.reachable.recordStatus runId token state success
  rw [carryOut_recordStatus h.grants hworks hagent, hrequest] at hreachable ⊢
  rw [hrequest] at hrecorded
  exact ⟨_, _, rfl, rfl, hreachable, h.grants, _, hown.concat hnext success w.now, hrecorded⟩

/-- A report of the latest state is answered by its entry once more, and changes nothing. -/
theorem HasReports.report_again {state : RunState} {success : Bool}
    (h : w.HasReports runId token (marks ++ [(state, success)]))
    (hworks : RunCall.getRun ∉ w.broken) (hagent : state.isAgentReported) :
    ∃ entry, w.carryOut (Manager.recordStatus runId token state success).run = (.ok entry, w) ∧
      entry.mark = (runId, state, success) := by
  obtain ⟨own, hown, hrecords⟩ := h.recorded
  obtain ⟨last, hlast, hmark⟩ := hown.exists_last
  have hrun : (w.store.run? runId).isSome := isSome_run?_of_grants h.grants
  have hnot : ¬ IsLater ⟨runId, state, success, w.now⟩ own := by
    intro hlater
    have hlt := hlater last (List.mem_of_getLast? hlast)
    have hstate : last.state = state := congrArg (fun mark => mark.2.1) hmark
    rw [hstate] at hlt
    exact Nat.lt_irrefl _ hlt
  -- The latest entry records the last request, which is the same report.
  obtain ⟨latest, hlatest, hrequest⟩ :=
    hrecords.request_notLater (q := ⟨runId, state, success, w.now⟩) hrun hnot
  rw [hown.maxima_eq, getLast?_numbered hlast] at hlatest
  obtain rfl := Option.some.inj hlatest
  have hentry : (last.entryAt (own.length - 1)).mark = (runId, state, success) := hmark
  have hsame : (last.entryAt (own.length - 1)).state = state ∧
      (last.entryAt (own.length - 1)).success = success :=
    ⟨congrArg (fun mark => mark.2.1) hentry, congrArg (fun mark => mark.2.2) hentry⟩
  rw [carryOut_recordStatus h.grants hworks hagent, hrequest, if_pos hsame]
  exact ⟨_, rfl, hentry⟩

end World
end PipelineManager
