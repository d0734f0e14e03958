import PipelineManager.Proofs.Service.Requests

/-!
# Services that are settled

A service is settled in a world when it gives the same result whenever it is carried out there, and
leaves what it found. Neither the time nor what the agents remember of inquiries counts. Services
are settled in parts: what only reads is, and so is a call that changes nothing more.
-/

namespace PipelineManager

/-! ## Worlds that callbacks cannot tell apart -/

namespace World

/-- Whether the agents of two worlds are the same to who asks for a log. -/
structure SameAgents (w again : World) : Prop where
  agent : ∀ id, (answer (.agent id) again).1 = (answer (.agent id) w).1
  lastBuildNumber : ∀ agent name,
    (answer (.lastBuildNumber agent name) again).1 = (answer (.lastBuildNumber agent name) w).1
  log : ∀ agent name build,
    (answer (.fetchLog agent name build) again).1 = (answer (.fetchLog agent name build) w).1

/-- Whether a world is another one again for callbacks: the store, the files, the calls that
fail and what agents tell of builds are the same. The time and what the agents were asked to
do may differ. -/
structure Resembles (w again : World) : Prop extends SameAgents w again where
  store : again.store = w.store
  warehouse : again.warehouse = w.warehouse
  broken : again.broken = w.broken

/-- The agents of a world are the same as its own. -/
theorem SameAgents.refl (w : World) : SameAgents w w :=
  ⟨fun _ => rfl, fun _ _ => rfl, fun _ _ _ => rfl⟩

/-- What is the same as the same is the same. -/
theorem SameAgents.trans {w w' w'' : World} (h : SameAgents w w') (h' : SameAgents w' w'') :
    SameAgents w w'' where
  agent id := (h'.agent id).trans (h.agent id)
  lastBuildNumber agent name := (h'.lastBuildNumber agent name).trans (h.lastBuildNumber agent name)
  log agent name build := (h'.log agent name build).trans (h.log agent name build)

/-- Agents are the same either way. -/
theorem SameAgents.symm {w w' : World} (h : SameAgents w w') : SameAgents w' w where
  agent id := (h.agent id).symm
  lastBuildNumber agent name := (h.lastBuildNumber agent name).symm
  log agent name build := (h.log agent name build).symm

/-- A world resembles itself. -/
theorem Resembles.refl (w : World) : Resembles w w := ⟨SameAgents.refl w, rfl, rfl, rfl⟩

/-- Worlds resemble each other. -/
theorem Resembles.symm {w w' : World} (h : Resembles w w') : Resembles w' w :=
  ⟨h.toSameAgents.symm, h.store.symm, h.warehouse.symm, h.broken.symm⟩

/-- What resembles a world that resembles another one resembles that. -/
theorem Resembles.trans {w w' w'' : World} (h : Resembles w w') (h' : Resembles w' w'') :
    Resembles w w'' :=
  ⟨h.toSameAgents.trans h'.toSameAgents, h'.store.trans h.store, h'.warehouse.trans h.warehouse,
    h'.broken.trans h.broken⟩

/-- A call on the fleet is refused or answered as the fleet answers. -/
theorem ofFleet_fst {α : Type} (w : World) (call : AgentCall) (r : α × Fleet) :
    (w.ofFleet call r).1 = if w.fleet.refusing.contains call then .error (.refused call)
      else .ok r.1 := by
  unfold ofFleet
  split <;> rfl

/-- Agents that only remember other requests are the same. -/
theorem sameAgents_of_fleet {w again : World} {requests : List LogRequest}
    (h : again.fleet = { w.fleet with logRequests := requests }) : SameAgents w again where
  agent id := by simp only [answer, ofFleet_fst, h, Fleet.agent?]
  lastBuildNumber agent name := by simp only [answer, ofFleet_fst, h]
  log agent name build := by simp only [answer, ofFleet_fst, h]

/-- The agents of one fleet are the same. -/
theorem sameAgents_of_fleet_eq {w again : World} (h : again.fleet = w.fleet) : SameAgents w again :=
  sameAgents_of_fleet h

/-- What agents tell does not depend on the store. -/
theorem Resembles.withStore {w again : World} (h : Resembles w again) (s : Store) :
    Resembles { w with store := s } { again with store := s } where
  toSameAgents :=
    have hw : SameAgents { w with store := s } w := sameAgents_of_fleet_eq rfl
    (hw.trans h.toSameAgents).trans (sameAgents_of_fleet_eq rfl)
  store := rfl
  warehouse := h.warehouse
  broken := h.broken

/-- What agents tell does not depend on the files. -/
theorem Resembles.withWarehouse {w again : World} (h : Resembles w again) (W : Warehouse) :
    Resembles { w with warehouse := W } { again with warehouse := W } where
  toSameAgents :=
    have hw : SameAgents { w with warehouse := W } w := sameAgents_of_fleet_eq rfl
    (hw.trans h.toSameAgents).trans (sameAgents_of_fleet_eq rfl)
  store := h.store
  warehouse := rfl
  broken := h.broken

end World

namespace Call

/-- Whether the time is nothing to a call that callbacks make. -/
def IsTimeless : Call → Prop
  | run _ | runTests _ | download _ | agent _ | lastBuildNumber _ _ | fetchLog _ _ _ => True
  | recordTestResult _ _ _ _ | setResultLocations _ _ _ | upload _ _ => True
  | _ => False

/-- To a call that only reads the time is nothing. -/
theorem IsReading.isTimeless {c : Call} (h : c.IsReading) : c.IsTimeless := by
  cases c <;> trivial

end Call

namespace World

/-- After an inquiry, the agents at most remember one more request. -/
theorem answer_inquiry {c : Call} (hc : c.IsInquiry) (w : World) :
    ∃ requests, (answer c w).2 = { w with fleet := { w.fleet with logRequests := requests } } := by
  cases c with
  | agent id =>
    rcases w.ofFleet_cases .agent (w.fleet.agent? id, w.fleet) with ⟨e, h⟩ | h <;>
      exact ⟨_, (congrArg Prod.snd h :)⟩
  | lastBuildNumber agent name =>
    rcases w.ofFleet_cases .lastBuildNumber (w.fleet.lastBuild, w.fleet) with ⟨e, h⟩ | h <;>
      exact ⟨_, (congrArg Prod.snd h :)⟩
  | fetchLog agent name build =>
    let request : LogRequest := { agentId := agent.id, jobName := name, build }
    rcases w.ofFleet_cases .fetchLog
      (w.fleet.log, { w.fleet with logRequests := w.fleet.logRequests ++ [request] })
      with ⟨e, h⟩ | h <;> exact ⟨_, (congrArg Prod.snd h :)⟩
  | _ => exact hc.elim

/-- An inquiry leaves a world that resembles the one before. -/
theorem resembles_answer_inquiry {c : Call} (hc : c.IsInquiry) (w : World) :
    Resembles w (answer c w).2 := by
  obtain ⟨requests, h⟩ := answer_inquiry hc w
  rw [h]
  exact ⟨sameAgents_of_fleet rfl, rfl, rfl, rfl⟩

/-- Reading leaves the world as it was. -/
theorem resembles_answer {c : Call} (hc : c.IsReading) (w : World) :
    Resembles w (answer c w).2 := by
  by_cases hinquiry : c.IsInquiry
  · exact resembles_answer_inquiry hinquiry w
  · cases c with
    | run id => rw [answer_run]; exact Resembles.refl w
    | runTests runId => rw [answer_runTests]; exact Resembles.refl w
    | download path => exact Resembles.refl w
    | agent _ | lastBuildNumber _ _ | fetchLog _ _ _ => exact absurd trivial hinquiry
    | _ => exact hc.elim

/-- What is asked of agents that are the same has the same answer. -/
theorem SameAgents.answer_fst {w again : World} (h : SameAgents w again) {c : Call}
    (hc : c.IsInquiry) :
    (answer c again).1 = (answer c w).1 := by
  cases c with
  | agent id => exact h.agent id
  | lastBuildNumber agent name => exact h.lastBuildNumber agent name
  | fetchLog agent name build => exact h.log agent name build
  | _ => exact hc.elim

/-- A verdict is recorded unless the store is broken. -/
theorem answer_recordTestResult (w : World) (id : Int) (success : Bool)
    (startedAt endedAt : Option String) :
    answer (.recordTestResult id success startedAt endedAt) w =
      if RunCall.recordTestResult ∈ w.broken then (.error (.broken .recordTestResult), w)
      else (.ok (), { w with store := w.store.recordTestResult id success startedAt endedAt }) := by
  simp [answer, ofStore]

/-- The places of log and results are recorded unless the store is broken. -/
theorem answer_setResultLocations (w : World) (id : Int) (log results : String) :
    answer (.setResultLocations id log results) w =
      if RunCall.setResultLocations ∈ w.broken then (.error (.broken .setResultLocations), w)
      else (.ok (), { w with store := w.store.setResultLocations id log results }) := by
  simp [answer, ofStore]

/-- A file is uploaded to the warehouse. -/
theorem answer_upload (w : World) (path : String) (contents : ByteArray) :
    answer (.upload path contents) w =
      ((w.warehouse.upload path contents).2.mapError .warehouse,
        { w with warehouse := (w.warehouse.upload path contents).1 }) := rfl

/-- Worlds that resemble each other answer such calls alike, and still resemble each other then. -/
theorem Resembles.answer {w again : World} (h : Resembles w again) {c : Call} (hc : c.IsTimeless) :
    (World.answer c w).1 = (World.answer c again).1 ∧
      Resembles (World.answer c w).2 (World.answer c again).2 := by
  by_cases hinquiry : c.IsInquiry
  · have hw := resembles_answer_inquiry hinquiry w
    have hagain := resembles_answer_inquiry hinquiry again
    exact ⟨(h.answer_fst hinquiry).symm, (hw.symm.trans h).trans hagain⟩
  · cases c with
    | run id => rw [answer_run, answer_run, h.store, h.broken]; exact ⟨rfl, h⟩
    | runTests runId => rw [answer_runTests, answer_runTests, h.store, h.broken]; exact ⟨rfl, h⟩
    | download path =>
      exact ⟨congrArg (fun W : Warehouse => (W.download path).mapError Fault.warehouse)
        h.warehouse.symm, h⟩
    | recordTestResult id success startedAt endedAt =>
      rw [answer_recordTestResult, answer_recordTestResult, h.store]
      by_cases hbroken : RunCall.recordTestResult ∈ w.broken
      · rw [if_pos hbroken, if_pos (h.broken ▸ hbroken)]
        exact ⟨rfl, h⟩
      · rw [if_neg hbroken, if_neg (h.broken ▸ hbroken)]
        exact ⟨rfl, h.withStore _⟩
    | setResultLocations id log results =>
      rw [answer_setResultLocations, answer_setResultLocations, h.store]
      by_cases hbroken : RunCall.setResultLocations ∈ w.broken
      · rw [if_pos hbroken, if_pos (h.broken ▸ hbroken)]
        exact ⟨rfl, h⟩
      · rw [if_neg hbroken, if_neg (h.broken ▸ hbroken)]
        exact ⟨rfl, h.withStore _⟩
    | upload path contents =>
      rw [answer_upload, answer_upload, h.warehouse]
      exact ⟨rfl, h.withWarehouse _⟩
    | agent _ | lastBuildNumber _ _ | fetchLog _ _ _ => exact absurd trivial hinquiry
    | _ => exact hc.elim

end World

/-! ## Services that are settled -/

namespace Service

open World (SameAgents Resembles)

variable {α β : Type} {w : World}

/-- Whether a service gives a result in every world that resembles a world, and leaves such
a world. -/
def Settled (p : Service α) (r : Except ServiceError α) (w : World) : Prop :=
  ∀ again, Resembles w again →
    (exec World.answer p again).1 = r ∧ Resembles w (exec World.answer p again).2

/-- What is settled is followed by what is settled for its result. -/
theorem Settled.bind {p : Service α} {a : α} {next : α → Service β} {r : Except ServiceError β}
    (hp : p.Settled (.ok a) w) (hnext : (next a).Settled r w) : (p >>= next).Settled r w := by
  intro again hagain
  obtain ⟨hresult, hleft⟩ := hp again hagain
  rw [exec_bind]
  rcases hexec : exec World.answer p again with ⟨result, left⟩
  rw [hexec] at hresult hleft
  obtain rfl : result = .ok a := hresult
  exact hnext left hleft

/-- What fails for good is not followed by anything. -/
theorem Settled.bind_error {p : Service α} {e : ServiceError} {next : α → Service β}
    (hp : p.Settled (.error e) w) : (p >>= next).Settled (.error e) w := by
  intro again hagain
  obtain ⟨hresult, hleft⟩ := hp again hagain
  rw [exec_bind]
  rcases hexec : exec World.answer p again with ⟨result, left⟩
  rw [hexec] at hresult hleft
  obtain rfl : result = .error e := hresult
  exact ⟨rfl, hleft⟩

/-- What leaves a world as it is, is settled there. -/
theorem settled_of_resembles {p : Service α} (hp : Asks Call.IsTimeless p)
    (hleft : Resembles w (exec World.answer p w).2) : p.Settled (exec World.answer p w).1 w := by
  intro again hagain
  obtain ⟨hresult, hresembles⟩ :=
    Program.Asks.run_related (fun _ _ _ hc hst => hst.answer hc) hp hagain
  exact ⟨hresult.symm, hleft.trans hresembles⟩

/-- A call that changes nothing is settled. -/
theorem settled_ask {c : Call} {a : c.Answer} (h : World.answer c w = (a, w)) (hc : c.IsTimeless) :
    (ask c).Settled (.ok a) w := by
  have hsettled := settled_of_resembles (p := ask c) (w := w) (asks_ask hc)
    (by rw [exec_ask, h]; exact Resembles.refl w)
  rwa [exec_ask, h] at hsettled

/-- A service that only gives a result gives it again. -/
theorem settled_pure (a : α) : (pure a : Service α).Settled (.ok a) w :=
  fun _ hagain => ⟨rfl, hagain⟩

/-- A service that fails without a call fails again. -/
theorem settled_throw (e : ServiceError) : (throw e : Service α).Settled (.error e) w :=
  fun _ hagain => ⟨rfl, hagain⟩

/-- What the store has answered is gone on with again. -/
theorem settled_stored (r : Except Fault α) : (stored r).Settled (r.mapError .storage) w := by
  intro again hagain
  rw [exec_stored]
  exact ⟨rfl, hagain⟩

/-- A requirement is met or refused again. -/
theorem settled_require (holds : Bool) (e : ServiceError) :
    (require holds e).Settled (if holds then .ok () else .error e) w := by
  intro again hagain
  rw [exec_require]
  exact ⟨rfl, hagain⟩

/-- What only reads is settled. -/
theorem settled_of_reading {p : Service α} (hp : Asks Call.IsReading p) (w : World) :
    p.Settled (exec World.answer p w).1 w :=
  settled_of_resembles (hp.mono fun _ => Call.IsReading.isTimeless)
    (hp.run_invariant (fun _ s hc hs => hs.trans (World.resembles_answer hc s)) (Resembles.refl w))

/-- What only asks agents gives the same in every world that has the same agents. -/
theorem settled_of_inquiries {p : Service α} (hp : Asks Call.IsInquiry p) {w' : World}
    (h : SameAgents w w') :
    p.Settled (exec World.answer p w).1 w' := by
  have hstep : ∀ c s t, Call.IsInquiry c → SameAgents s t →
      (World.answer c s).1 = (World.answer c t).1 ∧
          SameAgents (World.answer c s).2 (World.answer c t).2 := by
    intro c s t hc hst
    have hs := (World.resembles_answer_inquiry hc s).toSameAgents.symm
    exact ⟨(hst.answer_fst hc).symm,
      (hs.trans hst).trans (World.resembles_answer_inquiry hc t).toSameAgents⟩
  have hresult : (exec World.answer p w).1 = (exec World.answer p w').1 :=
    (hp.run_related hstep h).1
  rw [hresult]
  exact settled_of_reading (hp.mono fun _ => Call.IsInquiry.isReading) w'

end Service

end PipelineManager
