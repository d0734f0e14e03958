import PipelineManager.Proofs.Service.Trial
import PipelineManager.Proofs.Store.StatusLog

/-!
# Submissions under way

A submission creates one run and then reports on it. As long as it is under way, the world holds
the runs and the log it began with, behind them the new run, and the reports made so far. What
holds of every call is said once here; the stages of a submission only put it together.
-/

namespace PipelineManager

open StatusRequest

/-! ## What calls change -/

namespace Call

/-- Whether a call neither reports on a run nor changes a run other than the given one. -/
def StaysWith (id : Int) : Call → Prop
  | createRun _ | appendStatus _ _ _ => False
  | setRunAgent i _ | setCommunicationToken i _ | setJob i _ _ | setResultLocations i _ _ => i = id
  | _ => True

/-- What a call makes of the run it is about. -/
def effect : Call → Run → Run
  | setRunAgent _ agentId, r => { r with agentId := some agentId }
  | setCommunicationToken _ token, r => { r with communicationToken := some token }
  | setJob _ jobName buildNumber, r => { r with jobName := some jobName, buildNumber }
  | setResultLocations _ logLocation resultsLocation, r =>
    { r with logLocation := some logLocation, resultsLocation := some resultsLocation }
  | _, r => r

/-- What an answered call makes of the run it is about. A call that failed makes nothing of it. -/
def effectIf (c : Call) : Option Fault → Run → Run
  | none => c.effect
  | some _ => fun r => r

/-- A call without effect on runs has none with any fault. -/
theorem effectIf_of_effect {c : Call} (hc : ∀ r, c.effect r = r) (fault : Option Fault) :
    c.effectIf fault = fun r => r := by
  cases fault with
  | none => exact funext hc
  | some e => rfl

/-- The answer of a call that goes wrong tells of a failure, or the call makes nothing of a run. -/
theorem effectIf_of_failing? {c : Call} {cause : Fault} {failed : c.Answer}
    (h : c.failing? cause = some failed) : c.effectIf (c.fault? failed) = fun r => r := by
  cases c <;> cases h <;> rfl

/-- No call changes the id of a run. -/
@[simp] theorem id_effect (c : Call) (r : Run) : (c.effect r).id = r.id := by
  cases c <;> rfl

/-- No call changes the id of a run, with or without a fault. -/
@[simp] theorem id_effectIf (c : Call) (fault : Option Fault) (r : Run) :
    (c.effectIf fault r).id = r.id := by
  cases fault with
  | none => exact c.id_effect r
  | some e => rfl

/-- A call that can fail late has no effect on runs. -/
theorem effect_of_canFailLate {c : Call} (hc : c.canFailLate) (r : Run) : c.effect r = r := by
  cases c <;> first | rfl | cases hc

end Call

/-- An update that changes nothing leaves the runs as they are. -/
@[simp] theorem Store.runs_updateRun_id (s : Store) (id : Int) :
    (s.updateRun id fun r => r).runs = s.runs := by
  simp [updateRun]

/-- A run that was added last is found, if no other has its identifier. -/
theorem Store.run?_last {s : Store} {old : List Run} {run : Run} (hruns : s.runs = old ++ [run])
    (hnew : run.id ∉ old.map (·.id)) : s.run? run.id = some run := by
  have hold : ∀ r ∈ old, ¬ r.id = run.id :=
    fun r hr heq => hnew (by rw [← heq]; exact List.mem_map_of_mem hr)
  rw [run?, hruns, List.find?_append, List.find?_eq_none.mpr (by simpa using hold)]
  simp

/-- A change of the last of the runs is a change of no other run. -/
theorem Store.runs_updateRun_last {s : Store} {old : List Run} {run : Run}
    (hruns : s.runs = old ++ [run]) (hnew : run.id ∉ old.map (·.id)) (change : Run → Run) :
    (s.updateRun run.id change).runs = old ++ [change run] := by
  have hold : old.map (fun r => if r.id = run.id then change r else r) = old := by
    refine (List.map_congr_left fun r hr => ?_).trans (List.map_id' old)
    have hne : r.id ≠ run.id := fun heq => hnew (by rw [← heq]; exact List.mem_map_of_mem hr)
    exact if_neg hne
  simp [updateRun, hruns, hold]

namespace World

/-- A call on the store fails and changes nothing, or does what the store does. -/
theorem ofStore_cases {α : Type} (w : World) (call : RunCall) (r : Except StoreFault (Store × α)) :
    (∃ e, w.ofStore call r = (.error e, w)) ∨
      ∃ store a, r = .ok (store, a) ∧ w.ofStore call r = (.ok a, { w with store }) := by
  unfold ofStore
  by_cases hbroken : w.broken.contains call
  · exact .inl ⟨_, if_pos hbroken⟩
  · rw [if_neg hbroken]
    cases r with
    | ok p => exact .inr ⟨p.1, p.2, rfl, rfl⟩
    | error e => exact .inl ⟨_, rfl⟩

/-- A call on the fleet fails and changes nothing, or does what the fleet does. -/
theorem ofFleet_cases {α : Type} (w : World) (call : AgentCall) (r : α × Fleet) :
    (∃ e, w.ofFleet call r = (.error e, w)) ∨
      w.ofFleet call r = (.ok r.1, { w with fleet := r.2 }) := by
  unfold ofFleet
  by_cases hrefused : w.fleet.refusing.contains call
  · exact .inl ⟨_, if_pos hrefused⟩
  · exact .inr (if_neg hrefused)

/-- What `w'` has in common with `w` when it came from it by calls of a submission. -/
structure SameSetting (w w' : World) : Prop where
  broken : w'.broken = w.broken
  secrets : w'.secrets = w.secrets
  now : w'.now = w.now

/-- A world is in its own setting. -/
theorem SameSetting.refl (w : World) : SameSetting w w := ⟨rfl, rfl, rfl⟩

/-- Being in the same setting is transitive. -/
theorem SameSetting.trans {w w' w'' : World} (h : SameSetting w w') (h' : SameSetting w' w'') :
    SameSetting w w'' :=
  ⟨h'.broken.trans h.broken, h'.secrets.trans h.secrets, h'.now.trans h.now⟩

/-- What a call changes at most, when it was answered with a failure or not. -/
structure Changes (id : Int) (change : Run → Run) (w w' : World) : Prop where
  setting : SameSetting w w'
  statuses : w'.store.statuses = w.store.statuses
  runs : w'.store.runs = (w.store.updateRun id change).runs

/-- A world differs from itself by no change. -/
theorem Changes.refl (id : Int) (w : World) : Changes id (fun r => r) w w :=
  ⟨SameSetting.refl w, rfl, by simp⟩

/-- A call to an agent changes no run. -/
theorem changes_ofFleet {α : Type} (id : Int) (w : World) (call : AgentCall) (r : α × Fleet) :
    Changes id (fun r => r) w (w.ofFleet call r).2 := by
  rcases w.ofFleet_cases call r with ⟨e, h⟩ | h <;> rw [h]
  · exact Changes.refl id w
  · exact ⟨⟨rfl, rfl, rfl⟩, rfl, by simp⟩

/-- A call on the store changes what the store changes, or has failed. -/
theorem changes_ofStore {α : Type} {id : Int} {w : World} (c : Call) (call : RunCall)
    {r : Except StoreFault (Store × α)}
    (hr : ∀ store a, r = .ok (store, a) →
      store.statuses = w.store.statuses ∧ store.runs = (w.store.updateRun id c.effect).runs) :
    Changes id (c.effectIf (Call.faultOf? (w.ofStore call r).1)) w (w.ofStore call r).2 := by
  rcases w.ofStore_cases call r with ⟨e, h⟩ | ⟨store, a, hok, h⟩ <;> rw [h]
  · exact Changes.refl id w
  · exact ⟨⟨rfl, rfl, rfl⟩, (hr store a hok).1, (hr store a hok).2⟩

/-- A call that stays with a run changes at most that run, and only when it succeeds. -/
theorem changes_answer {id : Int} {c : Call} (hc : c.StaysWith id) (w : World) :
    Changes id (c.effectIf (c.fault? (answer c w).1)) w (answer c w).2 := by
  cases c with
  | createRun new => exact hc.elim
  | appendStatus runId state success => exact hc.elim
  | setRunAgent i agentId =>
    obtain rfl : i = id := hc
    refine changes_ofStore (.setRunAgent i agentId) .setRunAgent fun store a hok => ?_
    simp only [Store.setRunAgent] at hok
    split at hok
    · cases hok
      exact ⟨rfl, rfl⟩
    · cases hok
  | setCommunicationToken i token =>
    obtain rfl : i = id := hc
    refine changes_ofStore (.setCommunicationToken i token) .setCommunicationToken
      fun store a hok => ?_
    cases hok
    exact ⟨rfl, rfl⟩
  | setJob i jobName buildNumber =>
    obtain rfl : i = id := hc
    refine changes_ofStore (.setJob i jobName buildNumber) .setJob fun store a hok => ?_
    cases hok
    exact ⟨rfl, rfl⟩
  | setResultLocations i logLocation resultsLocation =>
    obtain rfl : i = id := hc
    refine changes_ofStore (.setResultLocations i logLocation resultsLocation) .setResultLocations
      fun store a hok => ?_
    cases hok
    exact ⟨rfl, rfl⟩
  | addRunTest runId new =>
    refine changes_ofStore (.addRunTest runId new) .addRunTest fun store a hok => ?_
    simp only [Store.addRunTest] at hok
    split at hok
    · cases hok
      exact ⟨rfl, (w.store.runs_updateRun_id id).symm⟩
    · cases hok
  | run i =>
    refine changes_ofStore (.run i) .getRun fun store a hok => ?_
    cases hok
    exact ⟨rfl, (w.store.runs_updateRun_id id).symm⟩
  | runTests runId =>
    refine changes_ofStore (.runTests runId) .listRunTests fun store a hok => ?_
    cases hok
    exact ⟨rfl, (w.store.runs_updateRun_id id).symm⟩
  | recordTestResult i success startedAt endedAt =>
    refine changes_ofStore (.recordTestResult i success startedAt endedAt) .recordTestResult
      fun store a hok => ?_
    cases hok
    exact ⟨rfl, (w.store.runs_updateRun_id id).symm⟩
  | agentsOf _ | agent _ | createCredential _ _ _ _ | submitJob _ _ _ | startJob _ _
    | lastBuildNumber _ _
  | fetchLog _ _ _ =>
    rw [Call.effectIf_of_effect fun _ => rfl]
    exact changes_ofFleet id w _ _
  | upload path contents =>
    rw [Call.effectIf_of_effect fun _ => rfl]
    exact ⟨⟨rfl, rfl, rfl⟩, rfl, by simp [answer, ofUpload]⟩
  | _ =>
    rw [Call.effectIf_of_effect fun _ => rfl]
    exact Changes.refl id w

/-- The same holds when a call may go wrong. -/
theorem changes_answerWith {id : Int} {c : Call} (hc : c.StaysWith id) (mishap : Option Mishap)
    (w : World) :
    Changes id (c.effectIf (c.fault? (w.answerWith mishap c).1)) w (w.answerWith mishap c).2 := by
  cases mishap with
  | none => exact changes_answer hc w
  | some x =>
    simp only [answerWith]
    cases hfailing : c.failing? x.cause with
    | none => exact changes_answer hc w
    | some failed =>
      rw [Call.effectIf_of_failing? hfailing]
      by_cases hlate : x.late && c.canFailLate
      · have hchanges := changes_answer hc w
        rw [Call.effectIf_of_effect (Call.effect_of_canFailLate (Bool.and_eq_true_iff.mp hlate).2)]
          at hchanges
        simpa only [hlate, if_true] using hchanges
      · rw [if_neg hlate]
        exact Changes.refl id w

end World

/-! ## Reports and their requests -/

/-- A report is a request to the store. -/
theorem World.answer_appendStatus {w : World} {now : Timestamp} (hnow : w.now = now) (runId : Int)
    (state : RunState) (success : Bool) :
    answer (.appendStatus runId state success) w =
      ((w.store.request ⟨runId, state, success, now⟩).1,
        { w with store := (w.store.request ⟨runId, state, success, now⟩).2 }) := by
  simp only [answer, Store.request, ← hnow]
  cases w.store.appendStatus runId state success w.now <;> rfl

/-- The requests by which a run is reported on at a point of time. -/
def requestsOf (runId : Int) (now : Timestamp) (marks : List (RunState × Bool)) :
    List StatusRequest :=
  marks.map fun mark => { runId, state := mark.1, success := mark.2, now }

/-- The rows of the marks of a run name it. -/
theorem runId_of_mem_rows {runId : Int} {now : Timestamp} {marks : List (RunState × Bool)}
    {row : StatusRow} (hrow : row ∈ (numbered (requestsOf runId now marks)).map StatusEntry.toRow) :
    row.runId = runId := by
  obtain ⟨entry, hentry, rfl⟩ := List.mem_map.mp hrow
  obtain ⟨place, q, hq, rfl⟩ := exists_of_mem_numbered hentry
  obtain ⟨mark, -, rfl⟩ := List.mem_map.mp hq
  rfl

/-- Whether a state is later than all that are marked. -/
def IsNext (state : RunState) (marks : List (RunState × Bool)) : Prop :=
  ∀ mark ∈ marks, mark.1.ordinal < state.ordinal

instance (state : RunState) (marks : List (RunState × Bool)) : Decidable (IsNext state marks) := by
  unfold IsNext
  infer_instance

/-- Of marks that move forward, each is next behind those before it. -/
theorem isNext_of_pairwise {marks rest : List (RunState × Bool)} {mark : RunState × Bool}
    (h : (marks ++ mark :: rest).Pairwise fun a b => a.1.ordinal < b.1.ordinal) :
    IsNext mark.1 marks := by
  intro earlier hearlier
  exact (List.pairwise_append.mp h).2.2 earlier hearlier mark List.mem_cons_self

/-- With the next mark, marks stay in the order of their states. -/
theorem IsNext.pairwise_concat {state : RunState} {marks : List (RunState × Bool)}
    (hnext : IsNext state marks) (h : marks.Pairwise fun a b => a.1.ordinal < b.1.ordinal)
    (success : Bool) :
    (marks ++ [(state, success)]).Pairwise fun a b => a.1.ordinal < b.1.ordinal := by
  refine List.pairwise_append.mpr ⟨h, List.pairwise_singleton _ _, fun mark hmark new hnew => ?_⟩
  rw [List.mem_singleton.mp hnew]
  exact hnext mark hmark

/-- A submission to `w` that has come to `w'`: it created `run`, and reported `marks`. -/
structure Underway (w : World) (run : Run) (marks : List (RunState × Bool))
    (w' : World) : Prop where
  setting : World.SameSetting w w'
  isNext : run.id = Store.nextId w.store.runs
  runs : w'.store.runs = w.store.runs ++ [run]
  statuses : w'.store.statuses =
    w.store.statuses ++ (numbered (requestsOf run.id w.now marks)).map StatusEntry.toRow
  increasing : marks.Pairwise fun a b => a.1.ordinal < b.1.ordinal

/-- A run is created, or the call fails and changes nothing. -/
theorem World.answerWith_createRun (mishap : Option Mishap) (new : NewRun) (w : World) :
    (∃ cause, w.answerWith mishap (.createRun new) = (.error cause, w)) ∨
      ∃ run w', w.answerWith mishap (.createRun new) = (.ok run, w') ∧ Underway w run [] w' := by
  cases mishap with
  | some x => exact .inl ⟨x.cause, by simp [answerWith, Call.failing?, Call.canFailLate]⟩
  | none =>
    rcases w.ofStore_cases .createRun (w.store.createRun new w.now) with
      ⟨e, h⟩ | ⟨store, run, hok, h⟩
    · exact .inl ⟨e, h⟩
    · refine .inr ⟨run, _, h, ?_⟩
      simp only [Store.createRun] at hok
      split at hok
      · cases hok
        exact ⟨⟨rfl, rfl, rfl⟩, rfl, rfl, by simp [requestsOf, numbered], List.Pairwise.nil⟩
      · cases hok

namespace Underway

variable {w w' w'' : World} {run : Run} {marks : List (RunState × Bool)}

/-- A run underway is none of the runs there were. -/
theorem notMem (h : Underway w run marks w') (hw : w.store.Consistent) :
    run.id ∉ w.store.runs.map (·.id) := by
  rw [h.isNext]
  exact hw.nextId_notMem

/-- A run underway is found under its id. -/
theorem run?_eq (h : Underway w run marks w') (hw : w.store.Consistent) :
    w'.store.run? run.id = some run :=
  Store.run?_last h.runs (h.notMem hw)

/-- The marks of a run underway are all recorded, since their states rise. -/
theorem maxima_requestsOf (h : Underway w run marks w') :
    maxima (requestsOf run.id w.now marks) = requestsOf run.id w.now marks := by
  refine maxima_of_pairwise ?_
  simpa [requestsOf, List.pairwise_map] using h.increasing

/-- The log of the new run holds the reports of the submission and nothing else. -/
theorem records (h : Underway w run marks w') (hw : w.store.Consistent) :
    w'.store.Records run.id (requestsOf run.id w.now marks) := by
  have hold : w.store.statuses.filter (fun row => row.runId = run.id) = [] := by
    refine List.filter_eq_nil_iff.mpr fun row hrow heq => h.notMem hw ?_
    rw [← of_decide_eq_true heq]
    exact hw.statusRuns row hrow
  have hnew : ∀ row ∈ (numbered (requestsOf run.id w.now marks)).map StatusEntry.toRow,
      decide (row.runId = run.id) = true := by
    intro row hrow
    simpa using runId_of_mem_rows hrow
  rw [Store.Records, Store.statusRows, h.statuses, List.filter_append, hold,
    List.filter_eq_self.mpr hnew, h.maxima_requestsOf, List.nil_append]

/-- The log of a run underway lists its marks. -/
theorem statusLog_eq (h : Underway w run marks w') (hw : w.store.Consistent) :
    w'.store.statusLog run.id = .ok (numbered (requestsOf run.id w.now marks)) := by
  rw [(h.records hw).statusLog_eq, h.maxima_requestsOf]

/-- The rows of other runs are as they were. -/
theorem statusRows_of_ne (h : Underway w run marks w') {runId : Int} (hne : runId ≠ run.id) :
    w'.store.statusRows runId = w.store.statusRows runId := by
  have hnew : ((numbered (requestsOf run.id w.now marks)).map StatusEntry.toRow).filter
      (fun row => row.runId = runId) = [] := by
    refine List.filter_eq_nil_iff.mpr fun row hrow heq => hne ?_
    rw [← of_decide_eq_true heq]
    exact runId_of_mem_rows hrow
  rw [Store.statusRows, h.statuses, List.filter_append, hnew, List.append_nil, Store.statusRows]

/-- The logs of other runs are as they were. -/
theorem statusLog_of_ne (h : Underway w run marks w') {runId : Int} (hne : runId ≠ run.id) :
    w'.store.statusLog runId = w.store.statusLog runId := by
  rw [Store.statusLog, h.statusRows_of_ne hne, Store.statusLog]

/-- A change of its data leaves a run underway, with the same marks. -/
theorem changed (h : Underway w run marks w') (hw : w.store.Consistent) {change : Run → Run}
    (hid : (change run).id = run.id) (hc : World.Changes run.id change w' w'') :
    Underway w (change run) marks w'' where
  setting := h.setting.trans hc.setting
  isNext := hid.trans h.isNext
  runs := by rw [hc.runs, Store.runs_updateRun_last h.runs (h.notMem hw)]
  statuses := by rw [hc.statuses, h.statuses, hid]
  increasing := h.increasing

/-- A report of a later state is recorded. -/
theorem append (h : Underway w run marks w') (hw : w.store.Consistent) {state : RunState}
    (hnext : IsNext state marks) (success : Bool) :
    (∃ entry, (World.answer (.appendStatus run.id state success) w').1 = .ok entry) ∧
      Underway w run (marks ++ [(state, success)])
        (World.answer (.appendStatus run.id state success) w').2 := by
  have hlater : IsLater ⟨run.id, state, success, w.now⟩ (requestsOf run.id w.now marks) := by
    intro p hp
    obtain ⟨mark, hmark, rfl⟩ := List.mem_map.mp hp
    exact hnext mark hmark
  have hrun : (w'.store.run? run.id).isSome := by rw [h.run?_eq hw]; rfl
  have hrequest :=
    Store.Records.request_later (q := ⟨run.id, state, success, w.now⟩) (h.records hw) hrun hlater
  rw [World.answer_appendStatus h.setting.now, hrequest, h.maxima_requestsOf]
  refine ⟨⟨_, rfl⟩, h.setting.trans ⟨rfl, rfl, rfl⟩, h.isNext, h.runs, ?_,
    hnext.pairwise_concat h.increasing success⟩
  simp [Store.withStatus, h.statuses, requestsOf, numbered_concat]

end Underway
end PipelineManager
