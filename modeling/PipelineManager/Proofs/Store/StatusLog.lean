import Mathlib.Data.List.Induction
import Mathlib.Data.List.Perm.Subperm
import PipelineManager.Proofs.Store.History

/-!
# The log of a run is the list of its maxima

Of the requests made on a run, those are recorded whose state is later than all states requested
before: the strict maxima from left to right. The latest entry is then the greatest of all
requests so far, which is why comparing a new request with it alone is enough.
-/

namespace PipelineManager

/-! ## Rows are read back -/

/-- An entry is read back from the row in which it is kept. -/
@[simp] theorem StatusEntry.entry_toRow (e : StatusEntry) : e.toRow.entry = .ok e := by
  simp [StatusRow.entry, toRow]

/-- Entries are read back from their rows. -/
@[simp] theorem StatusEntry.mapM_entry_toRow (es : List StatusEntry) :
    (es.map toRow).mapM StatusRow.entry = .ok es := by
  induction es with
  | nil => rfl
  | cons e rest ih =>
    rw [List.map_cons, List.mapM_cons, ih, entry_toRow]
    rfl

namespace StatusRequest

/-! ## Maxima -/

/-- Whether a request is for a later state than all of `earlier`. -/
def IsLater (q : StatusRequest) (earlier : List StatusRequest) : Prop :=
  ∀ p ∈ earlier, p.state.ordinal < q.state.ordinal

instance (q : StatusRequest) (earlier : List StatusRequest) : Decidable (q.IsLater earlier) := by
  unfold IsLater
  infer_instance

/-- A request that is not later is met by one before that is as far. -/
theorem exists_not_lt_of_not_isLater {q : StatusRequest} {earlier : List StatusRequest}
    (h : ¬ q.IsLater earlier) : ∃ p ∈ earlier, q.state.ordinal ≤ p.state.ordinal := by
  simpa only [IsLater, not_forall, Nat.not_lt, exists_prop] using h

/-- The requests whose state is later than those of `earlier` and of all requests before them. -/
def maximaAfter (earlier : List StatusRequest) : List StatusRequest → List StatusRequest
  | [] => []
  | q :: rest =>
    if q.IsLater earlier then q :: maximaAfter (earlier ++ [q]) rest
    else maximaAfter (earlier ++ [q]) rest

/-- The requests whose state is later than that of every request before them. -/
def maxima (qs : List StatusRequest) : List StatusRequest := maximaAfter [] qs

/-- The maxima of requests in sequence are those of the first and of the rest after them. -/
theorem maximaAfter_append (earlier qs rest : List StatusRequest) :
    maximaAfter earlier (qs ++ rest) =
      maximaAfter earlier qs ++ maximaAfter (earlier ++ qs) rest := by
  induction qs generalizing earlier with
  | nil => simp [maximaAfter]
  | cons q qs ih =>
    have hsplit : earlier ++ q :: qs = earlier ++ [q] ++ qs := by simp
    rw [List.cons_append, maximaAfter, maximaAfter, ih, hsplit]
    split <;> rfl

/-- One more request is a maximum exactly when it is later than all before. -/
theorem maxima_concat (qs : List StatusRequest) (q : StatusRequest) :
    maxima (qs ++ [q]) = if q.IsLater qs then maxima qs ++ [q] else maxima qs := by
  rw [maxima, maximaAfter_append, List.nil_append, maximaAfter]
  split <;> simp [maxima, maximaAfter]

/-- The maxima are some of the requests, in their order. -/
theorem maxima_sublist (qs : List StatusRequest) : (maxima qs).Sublist qs := by
  induction qs using List.reverseRecOn with
  | nil => exact List.Sublist.refl _
  | append_singleton qs q ih =>
    rw [maxima_concat]
    split
    · exact ih.append (List.Sublist.refl _)
    · exact ih.trans (List.sublist_append_left _ _)

/-- The last maximum is the greatest of all requests. -/
theorem exists_greatest {qs : List StatusRequest} (hqs : qs ≠ []) :
    ∃ greatest, (maxima qs).getLast? = some greatest ∧
      ∀ p ∈ qs, p.state.ordinal ≤ greatest.state.ordinal := by
  induction qs using List.reverseRecOn with
  | nil => exact absurd rfl hqs
  | append_singleton qs q ih =>
    rw [maxima_concat]
    by_cases hlater : q.IsLater qs
    · refine ⟨q, by simp [hlater], fun p hp => ?_⟩
      rcases List.mem_append.mp hp with hp | hp
      · exact Nat.le_of_lt (hlater p hp)
      · obtain rfl : p = q := List.mem_singleton.mp hp
        exact Nat.le_refl _
    · have hqs' : qs ≠ [] := fun hnil => hlater (by simp [hnil, IsLater])
      obtain ⟨greatest, hlast, hall⟩ := ih hqs'
      refine ⟨greatest, by rw [if_neg hlater, hlast], fun p hp => ?_⟩
      rcases List.mem_append.mp hp with hp | hp
      · exact hall p hp
      · rw [List.mem_singleton.mp hp]
        obtain ⟨p', hp', hle⟩ := exists_not_lt_of_not_isLater hlater
        exact Nat.le_trans hle (hall p' hp')

/-- Maxima are strictly increasing. -/
theorem maxima_pairwise (qs : List StatusRequest) :
    (maxima qs).Pairwise fun p q => p.state.ordinal < q.state.ordinal := by
  induction qs using List.reverseRecOn with
  | nil => exact List.Pairwise.nil
  | append_singleton qs q ih =>
    rw [maxima_concat]
    split
    · rename_i hlater
      refine List.pairwise_append.mpr ⟨ih, List.pairwise_singleton _ _, fun p hp q' hq' => ?_⟩
      rw [List.mem_singleton.mp hq']
      exact hlater p ((maxima_sublist qs).subset hp)
    · exact ih

/-- Requests that move forward are all maxima. -/
theorem maxima_of_pairwise {qs : List StatusRequest}
    (h : qs.Pairwise fun p q => p.state.ordinal < q.state.ordinal) : maxima qs = qs := by
  induction qs using List.reverseRecOn with
  | nil => rfl
  | append_singleton qs q ih =>
    obtain ⟨hqs, -, hlater⟩ := List.pairwise_append.mp h
    have hq : q.IsLater qs := fun p hp => hlater p hp q (List.mem_singleton_self q)
    rw [maxima_concat, if_pos hq, ih hqs]

/-- There are at most as many maxima as states. -/
theorem length_maxima_le (qs : List StatusRequest) : (maxima qs).length ≤ RunState.all.length := by
  have hnodup : ((maxima qs).map (·.state)).Nodup := by
    refine List.pairwise_map.mpr ((maxima_pairwise qs).imp fun {p q} hlt heq => ?_)
    rw [heq] at hlt
    exact Nat.lt_irrefl _ hlt
  have hsubset : (maxima qs).map (·.state) ⊆ RunState.all := fun s _ => by cases s <;> decide
  simpa only [List.length_map] using (hnodup.subperm hsubset).length_le

/-! ## The entries of a log -/

/-- The entry that records a request at a place of the log. -/
def entryAt (seq : Nat) (q : StatusRequest) : StatusEntry where
  runId := q.runId
  seq := seq
  state := q.state
  success := q.success
  recordedAt := q.now

/-- The entries that record requests in order, counted from 0 on. -/
def numbered (qs : List StatusRequest) : List StatusEntry := qs.mapIdx entryAt

/-- The entry of the last request stands last. -/
theorem numbered_concat (qs : List StatusRequest) (q : StatusRequest) :
    numbered (qs ++ [q]) = numbered qs ++ [entryAt qs.length q] := by
  simp [numbered, List.mapIdx_append]

/-- Each entry is that of a request at some place. -/
theorem exists_of_mem_numbered {qs : List StatusRequest} {e : StatusEntry} (he : e ∈ numbered qs) :
    ∃ place, ∃ q ∈ qs, e = entryAt place q := by
  obtain ⟨place, hplace, rfl⟩ := List.mem_mapIdx.mp he
  exact ⟨place, qs[place], List.getElem_mem hplace, rfl⟩

/-- What entries tell of their requests is told in request order. -/
theorem map_numbered {β : Type} {f : StatusEntry → β} {g : StatusRequest → β}
    (h : ∀ place q, f (entryAt place q) = g q) (qs : List StatusRequest) :
    (numbered qs).map f = qs.map g := by
  refine List.ext_getElem? fun i => ?_
  simp [numbered, h, Function.comp_def]

/-- The entries are numbered from zero on. -/
theorem map_seq_numbered (qs : List StatusRequest) :
    (numbered qs).map (·.seq) = List.range qs.length := by
  refine List.ext_getElem (by simp [numbered]) fun i hi hi' => ?_
  simp [numbered, entryAt]

/-- The last entry is that of the last request, at the last place. -/
theorem getLast?_numbered {qs : List StatusRequest} {q : StatusRequest}
    (hlast : qs.getLast? = some q) :
    (numbered qs).getLast? = some (entryAt (qs.length - 1) q) := by
  obtain ⟨init, rfl⟩ := List.getLast?_eq_some_iff.mp hlast
  simp [numbered_concat]

end StatusRequest

namespace Store

open StatusRequest

/-- The log of a run holds exactly the maxima of `own`. -/
def Records (s : Store) (runId : Int) (own : List StatusRequest) : Prop :=
  s.statusRows runId = (numbered (maxima own)).map StatusEntry.toRow

namespace Records

variable {s : Store} {runId : Int} {own : List StatusRequest}

/-- The log of a run lists the maxima of its requests. -/
theorem statusLog_eq (h : s.Records runId own) :
    s.statusLog runId = .ok (numbered (maxima own)) := by
  rw [statusLog, h]
  exact StatusEntry.mapM_entry_toRow _

/-- The latest status of a run is the last of the maxima. -/
theorem latestStatus?_eq (h : s.Records runId own) :
    s.latestStatus? runId = .ok (numbered (maxima own)).getLast? := by
  rw [latestStatus?, h, List.getLast?_map]
  cases (numbered (maxima own)).getLast? with
  | none => rfl
  | some e => simp [Except.map]

end Records

/-- The store with one more row in its status log. -/
def withStatus (s : Store) (e : StatusEntry) : Store :=
  { s with statuses := s.statuses ++ [e.toRow] }

variable {s : Store} {q : StatusRequest} {own : List StatusRequest}

/-- A request on an unknown run is refused and changes nothing. -/
theorem request_unknown (hrun : s.run? q.runId = none) :
    s.request q = (.error (.unknownRun q.runId), s) := by
  simp [request, appendStatus, hrun]

/-- A request that is later than all before is recorded behind them. -/
theorem Records.request_later (h : s.Records q.runId own) (hrun : (s.run? q.runId).isSome)
    (hlater : q.IsLater own) :
    s.request q =
      (.ok (q.entryAt (maxima own).length), s.withStatus (q.entryAt (maxima own).length)) := by
  have hexists : (s.run? q.runId).isNone = false := by rw [← Option.not_isSome, hrun, Bool.not_true]
  by_cases hown : own = []
  · subst hown
    have hlatest : s.latestStatus? q.runId = .ok none := h.latestStatus?_eq
    simp [request, appendStatus, hexists, hlatest, Transition.check, pushStatus, withStatus,
      entryAt, maxima, maximaAfter]
  · obtain ⟨greatest, hlast, _⟩ := exists_greatest hown
    have hmem : greatest ∈ own := (maxima_sublist own).subset (List.mem_of_getLast? hlast)
    have hlatest := h.latestStatus?_eq
    rw [getLast?_numbered hlast] at hlatest
    have hpos : 0 < (maxima own).length := List.length_pos_of_mem (List.mem_of_getLast? hlast)
    have hcheck := Transition.check_of_lt (hlater greatest hmem) greatest.success q.success
    have hnext : (maxima own).length - 1 + 1 = (maxima own).length := Nat.sub_add_cancel hpos
    simp [request, appendStatus, hexists, hlatest, entryAt, hcheck, pushStatus, withStatus, hnext]

/-- A request that is not later than all before changes nothing: it repeats the latest entry, or
it is refused. -/
theorem Records.request_notLater (h : s.Records q.runId own) (hrun : (s.run? q.runId).isSome)
    (hnot : ¬ q.IsLater own) :
    ∃ latest, (numbered (maxima own)).getLast? = some latest ∧
      s.request q =
        (if latest.state = q.state ∧ latest.success = q.success then .ok latest
          else .error (.notForward ⟨latest.state, q.state⟩), s) := by
  have hexists : (s.run? q.runId).isNone = false := by rw [← Option.not_isSome, hrun, Bool.not_true]
  have hown : own ≠ [] := fun hnil => hnot (by simp [hnil, IsLater])
  obtain ⟨greatest, hlast, hall⟩ := exists_greatest hown
  obtain ⟨p, hp, hle⟩ := exists_not_lt_of_not_isLater hnot
  have hcheck := Transition.check_of_le (Nat.le_trans hle (hall p hp)) greatest.success q.success
  have hlatest := h.latestStatus?_eq
  rw [getLast?_numbered hlast] at hlatest
  refine ⟨_, getLast?_numbered hlast, ?_⟩
  simp only [request, appendStatus, hexists, hlatest, entryAt, Option.map_some, hcheck]
  by_cases hsame : greatest.state = q.state ∧ greatest.success = q.success <;> simp [hsame]

/-! ## Histories -/

/-- A new entry stands behind those of its run, and in no other run. -/
theorem statusRows_withStatus (s : Store) (e : StatusEntry) (runId : Int) :
    (s.withStatus e).statusRows runId =
      if e.runId = runId then s.statusRows runId ++ [e.toRow] else s.statusRows runId := by
  by_cases hrun : e.runId = runId <;>
    simp [withStatus, statusRows, List.filter_append, StatusEntry.toRow, hrun]

/-- The requests of a history that are made on a run while it exists. -/
def requestsOn (runId : Int) : Store → List Operation → List StatusRequest
  | _, [] => []
  | s, op :: rest =>
    let made := match op with
      | .appendStatus q => if q.runId = runId ∧ (s.run? runId).isSome then [q] else []
      | _ => []
    made ++ requestsOn runId (s.perform op) rest

/-- The requests on a run are those of the first operation and of the rest. -/
theorem requestsOn_cons (runId : Int) (s : Store) (op : Operation) (rest : List Operation) :
    requestsOn runId s (op :: rest) =
      requestsOn runId s [op] ++ requestsOn runId (s.perform op) rest := by
  simp [requestsOn]

/-- A request on one run does not touch the log of another. -/
theorem statusRows_request_of_ne (s : Store) {q : StatusRequest} {runId : Int}
    (hne : q.runId ≠ runId) :
    (s.request q).2.statusRows runId = s.statusRows runId := by
  rcases s.request_store q with h | ⟨_, row, hrow, h⟩ <;> rw [h]
  have hother : ¬ row.runId = runId := by rwa [hrow]
  simp [statusRows, List.filter_append, hother]

/-- Only a request on a run touches its log. -/
theorem statusRows_perform (s : Store) {op : Operation} {runId : Int}
    (hop : ∀ q, op = .appendStatus q → q.runId ≠ runId) :
    (s.perform op).statusRows runId = s.statusRows runId := by
  by_cases happend : ∃ q, op = .appendStatus q
  · obtain ⟨q, rfl⟩ := happend
    exact s.statusRows_request_of_ne (hop q rfl)
  · rw [statusRows, s.statuses_perform op fun q hq => happend ⟨q, hq⟩, statusRows]

/-- A request on a known run is recorded behind those before. -/
theorem Records.request (h : s.Records q.runId own) (hrun : (s.run? q.runId).isSome) :
    (s.request q).2.Records q.runId (own ++ [q]) := by
  by_cases hlater : q.IsLater own
  · rw [h.request_later hrun hlater, Records, statusRows_withStatus, maxima_concat, if_pos hlater,
      numbered_concat, List.map_append, ← h]
    simp [entryAt]
  · obtain ⟨latest, _, heq⟩ := h.request_notLater hrun hlater
    rw [heq, Records, maxima_concat, if_neg hlater]
    exact h

/-- One operation keeps the log of a run the list of maxima. -/
theorem Records.perform {s : Store} {runId : Int} {own : List StatusRequest}
    (h : s.Records runId own) (op : Operation) :
    (s.perform op).Records runId (own ++ requestsOn runId s [op]) := by
  by_cases hop : ∃ q, op = .appendStatus q
  · obtain ⟨q, rfl⟩ := hop
    by_cases hrun : q.runId = runId
    · subst hrun
      by_cases hexists : (s.run? q.runId).isSome
      · simpa [requestsOn, hexists, Store.perform] using h.request hexists
      · have hnone : s.run? q.runId = none := by simpa using hexists
        simpa [requestsOn, hnone, Store.perform, request_unknown hnone] using h
    · simpa [requestsOn, hrun, Store.perform, Records, statusRows_request_of_ne s hrun] using h
  · have hrows : (s.perform op).statusRows runId = s.statusRows runId :=
      s.statusRows_perform fun q hq => absurd ⟨q, hq⟩ hop
    have hmade : requestsOn runId s [op] = [] := by
      cases op with
      | appendStatus q => exact absurd ⟨q, rfl⟩ hop
      | _ => rfl
    rw [hmade, List.append_nil, Records, hrows]
    exact h

/-- A whole history keeps the log of a run the list of maxima. -/
theorem Records.after {s : Store} {runId : Int} {own : List StatusRequest} (h : s.Records runId own)
    (ops : List Operation) : (s.after ops).Records runId (own ++ requestsOn runId s ops) := by
  induction ops generalizing s own with
  | nil => simpa [requestsOn, Store.after] using h
  | cons op rest ih =>
    have hstep := ih (h.perform op)
    rwa [List.append_assoc, ← requestsOn_cons] at hstep

/-- What is reached from the empty store records the requests that led there. -/
theorem records_requestsOn (runId : Int) (ops : List Operation) :
    (after {} ops).Records runId (requestsOn runId {} ops) := by
  have hempty : Records {} runId [] := rfl
  exact hempty.after ops

/-- The log of a run when `own` are the requests that were made on it. -/
structure ShowsMaxima (s : Store) (runId : Int) (own : List StatusRequest) : Prop where
  /-- The log can be read, and holds the maxima in request order, counted from 0 on. -/
  log : s.statusLog runId = .ok (numbered (maxima own))
  increasing : (numbered (maxima own)).Pairwise fun a b => a.state.ordinal < b.state.ordinal
  short : (numbered (maxima own)).length ≤ 14

/-- What a store does with a request when `own` are the requests on the same run before it. -/
structure MovesForward (s : Store) (q : StatusRequest) (own : List StatusRequest) : Prop where
  unknown : s.run? q.runId = none → s.request q = (.error (.unknownRun q.runId), s)
  /-- A maximum is recorded with the next number. -/
  later : (s.run? q.runId).isSome → q.IsLater own →
    s.request q =
      (.ok (q.entryAt (maxima own).length), s.withStatus (q.entryAt (maxima own).length))
  /-- Any other request repeats the latest entry or is refused, and the store stays as it is. -/
  notLater : (s.run? q.runId).isSome → ¬ q.IsLater own →
    ∃ latest, (numbered (maxima own)).getLast? = some latest ∧
      s.request q =
        (if latest.state = q.state ∧ latest.success = q.success then .ok latest
          else .error (.notForward ⟨latest.state, q.state⟩), s)
  others : ∀ runId, runId ≠ q.runId → (s.request q).2.statusLog runId = s.statusLog runId

/-- A store that records requests shows their maxima. -/
theorem Records.showsMaxima {s : Store} {runId : Int} {own : List StatusRequest}
    (h : s.Records runId own) : s.ShowsMaxima runId own where
  log := h.statusLog_eq
  increasing := by
    have hstates : ((maxima own).map (·.state)).Pairwise fun s t => s.ordinal < t.ordinal :=
      List.pairwise_map.mpr (maxima_pairwise own)
    rw [← map_numbered (f := (·.state)) fun _ _ => rfl] at hstates
    simpa only [List.pairwise_map] using hstates
  short := by
    rw [numbered, List.length_mapIdx]
    exact length_maxima_le own

/-- After any history, the log of every run is the list of the maxima of the requests made on it,
and the next request is recorded, repeated or refused by the rule that keeps it so. -/
theorem statusLog_of_history (ops : List Operation) :
    (∀ runId, (after {} ops).ShowsMaxima runId (requestsOn runId {} ops)) ∧
      ∀ q, (after {} ops).MovesForward q (requestsOn q.runId {} ops) := by
  refine ⟨fun runId => (records_requestsOn runId ops).showsMaxima, fun q => ?_⟩
  have hrecords := records_requestsOn q.runId ops
  constructor
  · exact request_unknown
  · exact hrecords.request_later
  · exact hrecords.request_notLater
  · intro runId hne
    rw [statusLog, statusRows_request_of_ne _ hne.symm]
    rfl

/-- Of five reports two are maxima; the others are refused, or repeat the latest. -/
example :
    (after {} [.putTestbed ⟨"tb", "", ""⟩, .createRun ⟨"app", "net", "tb", "access"⟩ "t",
      .appendStatus ⟨1, .obtainedTests, false, "t0"⟩,
      .appendStatus ⟨1, .environmentSetup, true, "t1"⟩,
      .appendStatus ⟨1, .obtainedTests, false, "t2"⟩, .appendStatus ⟨1, .testEnded, true, "t3"⟩,
      .appendStatus ⟨1, .testEnded, false, "t4"⟩]).statusLog 1 =
      .ok [⟨1, 0, .obtainedTests, false, "t0"⟩, ⟨1, 1, .testEnded, true, "t3"⟩] := by
  rfl

end Store
end PipelineManager
