import PipelineManager.Proofs.Service.Names
import PipelineManager.Proofs.Service.Requests
import PipelineManager.Proofs.Service.Steps

/-!
# What sessions keep of a run

A submission settles for good by which token its run is known, which tests are registered for it and
which credentials bear its name. `World.factsOf` shows these facts of a run. A call is about at most
one run, and an event of a session makes at most one run, whose facts were blank before. So the
facts of a run are those that its submission left, whatever comes later.
-/

namespace PipelineManager

/-! ## Facts of a run -/

/-- What was registered of a test. -/
def RunTest.registered (t : RunTest) : NewRunTest where
  fullName := t.fullName
  description := t.description
  developerDefined := t.developerDefined
  artifactPath := t.artifactPath

/-- What a session never changes of a run once it is submitted: its communication token, if there is
the run, its registered tests by their identifiers, and the credentials of its name on any agent. -/
structure RunFacts where
  token : Option (Option String)
  tests : List (Int × NewRunTest)
  credentials : List Credential

/-- The facts of a run that is not there. -/
def RunFacts.blank : RunFacts := ⟨none, [], []⟩

/-- The facts of the run of an identifier. -/
def World.factsOf (w : World) (runId : Int) : RunFacts where
  token := (w.store.run? runId).map (·.communicationToken)
  tests := (w.store.testsOfRun runId).map fun t => (t.id, t.registered)
  credentials := w.fleet.credentials.filter fun c => c.name = tokenCredential runId

/-- Whether a call leaves the facts of a run. -/
def Call.Spares (runId : Int) : Call → Prop
  | createRun _ => False
  | setCommunicationToken id _ | addRunTest id _ => id ≠ runId
  | createCredential _ name _ _ => name ≠ tokenCredential runId
  | _ => True

/-- A follow-up of a request leaves the facts of every run. -/
theorem Call.IsFollowUp.spares {c : Call} (h : c.IsFollowUp) (runId : Int) : c.Spares runId := by
  cases c <;> first
    | exact h.elim
    | trivial

/-- A call that only looks leaves the facts of every run. -/
theorem Call.IsLook.spares {c : Call} (h : c.IsLook) (runId : Int) : c.Spares runId := by
  cases c <;> first
    | exact h.elim
    | trivial

/-- A call that completes one run leaves the facts of the others. -/
theorem Call.Completes.spares {id runId : Int} {c : Call} (h : c.Completes id) (hne : id ≠ runId) :
    c.Spares runId := by
  cases c with
  | createRun new => exact absurd h (by simp [Completes, Prepares])
  | setCommunicationToken i token =>
    obtain rfl : i = id := h
    exact hne
  | addRunTest i new =>
    obtain rfl : i = id := h
    exact hne
  | createCredential agent name value description =>
    obtain rfl : name = tokenCredential id := h
    exact fun heq => hne (tokenCredential_injective heq)
  | _ => trivial

/-! ## Calls -/

namespace Store

variable {s : Store} {runId : Int}

/-- An update keeps the token of a run unless it is of that run and changes it. -/
theorem token_updateRun {id : Int} {change : Run → Run} (hid : ∀ r, (change r).id = r.id)
    (htoken : id = runId → ∀ r, (change r).communicationToken = r.communicationToken) :
    ((s.updateRun id change).run? runId).map (·.communicationToken) =
      (s.run? runId).map (·.communicationToken) := by
  rw [s.run?_updateRun id hid, Option.map_map]
  refine Option.map_congr fun r hr => ?_
  have hrun : r.id = runId := by simpa using List.find?_some hr
  rw [Function.comp]
  split
  · next h => exact htoken (h.symm.trans hrun) r
  · rfl

/-- A test that is added to one run leaves the tests of the others. -/
theorem testsOfRun_addRunTest {id : Int} {new : NewRunTest} {s' : Store} {t : RunTest}
    (h : s.addRunTest id new = .ok (s', t)) (hne : id ≠ runId) :
    s'.testsOfRun runId = s.testsOfRun runId := by
  unfold addRunTest at h
  split at h
  · obtain ⟨rfl, rfl⟩ := Prod.mk.inj (Except.ok.inj h)
    simp [testsOfRun, hne]
  · cases h

/-- A test that is added leaves the runs. -/
theorem run?_addRunTest {id : Int} {new : NewRunTest} {s' : Store} {t : RunTest}
    (h : s.addRunTest id new = .ok (s', t)) : s'.run? runId = s.run? runId := by
  unfold addRunTest at h
  split at h
  · obtain ⟨rfl, rfl⟩ := Prod.mk.inj (Except.ok.inj h)
    rfl
  · cases h

/-- A result that is recorded leaves what is registered. -/
theorem registered_recordTestResult (s : Store) (id : Int) (success : Bool)
    (startedAt endedAt : Option String) :
    ((s.recordTestResult id success startedAt endedAt).testsOfRun runId).map
      (fun t => (t.id, t.registered)) =
      (s.testsOfRun runId).map fun t => (t.id, t.registered) := by
  have hrun : ((fun t : RunTest => decide (t.runId = runId)) ∘ fun t =>
      if t.id = id then { t with success := some success, startedAt, endedAt } else t) =
        fun t => decide (t.runId = runId) := by
    funext t
    by_cases h : t.id = id <;> simp [h]
  rw [testsOfRun, recordTestResult, List.filter_map, hrun, List.map_map]
  refine List.map_congr_left fun t _ => ?_
  by_cases h : t.id = id <;> simp [h, RunTest.registered]

/-- Nothing of another run changes when a run is created. -/
theorem run?_createRun {new : NewRun} {now : Timestamp} {s' : Store} {r : Run}
    (h : s.createRun new now = .ok (s', r)) (hne : runId ≠ nextId s.runs) :
    s'.run? runId = s.run? runId ∧ s'.testsOfRun runId = s.testsOfRun runId := by
  unfold createRun at h
  split at h
  · obtain ⟨rfl, rfl⟩ := Prod.mk.inj (Except.ok.inj h)
    exact ⟨by simp [run?, List.find?_append, Ne.symm hne], rfl⟩
  · cases h

end Store

namespace World

variable {runId : Int}

/-- A call on the store leaves the facts of a run when the store does. -/
theorem factsOf_ofStore {α : Type} {w : World} {call : RunCall} {r : Except StoreFault (Store × α)}
    (h : ∀ s a, r = .ok (s, a) →
      (s.run? runId).map (·.communicationToken) = (w.store.run? runId).map (·.communicationToken) ∧
        (s.testsOfRun runId).map (fun t => (t.id, t.registered)) =
          (w.store.testsOfRun runId).map fun t => (t.id, t.registered)) :
    (w.ofStore call r).2.factsOf runId = w.factsOf runId := by
  rcases w.ofStore_cases call r with ⟨e, hw⟩ | ⟨s, a, hr, hw⟩ <;> rw [hw]
  obtain ⟨htoken, htests⟩ := h s a hr
  simp only [factsOf, htoken, htests]

/-- A call to an agent leaves the facts of a run if it leaves its credentials. -/
theorem factsOf_ofFleet {α : Type} {w : World} {call : AgentCall} {r : α × Fleet}
    (h : r.2.credentials.filter (fun c => c.name = tokenCredential runId) =
      w.fleet.credentials.filter fun c => c.name = tokenCredential runId) :
    (w.ofFleet call r).2.factsOf runId = w.factsOf runId := by
  rcases w.ofFleet_cases call r with ⟨e, hw⟩ | hw <;> rw [hw]
  simp only [factsOf, h]

/-- A call that spares a run leaves its facts. -/
theorem factsOf_answer {c : Call} (hc : c.Spares runId) (w : World) :
    (answer c w).2.factsOf runId = w.factsOf runId := by
  cases c with
  | createRun new => exact hc.elim
  | appendStatus id state success =>
    rw [answer_appendStatus rfl]
    rcases w.store.request_store ⟨id, state, success, w.now⟩ with h | ⟨-, row, -, h⟩ <;> rw [h]
    rfl
  | run id => rw [answer_run]
  | runTests id => rw [answer_runTests]
  | setRunAgent id agentId =>
    refine factsOf_ofStore fun s a h => ?_
    simp only [Store.setRunAgent] at h
    split at h
    · obtain ⟨rfl, -⟩ := Prod.mk.inj (Except.ok.inj h)
      exact ⟨Store.token_updateRun (fun _ => rfl) fun _ _ => rfl, rfl⟩
    · cases h
  | setCommunicationToken id token =>
    refine factsOf_ofStore fun s a h => ?_
    obtain ⟨rfl, -⟩ := Prod.mk.inj (Except.ok.inj h)
    exact ⟨Store.token_updateRun (fun _ => rfl) fun heq => absurd heq hc, rfl⟩
  | setJob id jobName build =>
    refine factsOf_ofStore fun s a h => ?_
    obtain ⟨rfl, -⟩ := Prod.mk.inj (Except.ok.inj h)
    exact ⟨Store.token_updateRun (fun _ => rfl) fun _ _ => rfl, rfl⟩
  | setResultLocations id log results =>
    refine factsOf_ofStore fun s a h => ?_
    obtain ⟨rfl, -⟩ := Prod.mk.inj (Except.ok.inj h)
    exact ⟨Store.token_updateRun (fun _ => rfl) fun _ _ => rfl, rfl⟩
  | addRunTest id new =>
    refine factsOf_ofStore fun s t h => ?_
    rw [Store.testsOfRun_addRunTest h hc, Store.run?_addRunTest h]
    exact ⟨rfl, rfl⟩
  | recordTestResult id success startedAt endedAt =>
    refine factsOf_ofStore fun s a h => ?_
    obtain ⟨rfl, -⟩ := Prod.mk.inj (Except.ok.inj h)
    exact ⟨rfl, w.store.registered_recordTestResult id success startedAt endedAt⟩
  | createCredential agent name value description =>
    refine factsOf_ofFleet ?_
    have hname : name ≠ tokenCredential runId := hc
    simpa using hname
  | agentsOf _ | agent _ | submitJob _ _ _ | startJob _ _ | lastBuildNumber _ _ | fetchLog _ _ _ =>
    exact factsOf_ofFleet rfl
  | _ => rfl

/-- A call that spares a run leaves its facts, also when it goes wrong. -/
theorem factsOf_answerWith (mishap : Option Mishap) {c : Call} (hc : c.Spares runId) (w : World) :
    (w.answerWith mishap c).2.factsOf runId = w.factsOf runId := by
  rcases w.answerWith_snd_cases mishap c with h | h <;> rw [h]
  exact factsOf_answer hc w

/-- A run that is created leaves the facts of the others. -/
theorem factsOf_createRun (mishap : Option Mishap) (new : NewRun) {w : World}
    (hne : runId ≠ Store.nextId w.store.runs) :
    (w.answerWith mishap (.createRun new)).2.factsOf runId = w.factsOf runId := by
  rcases w.answerWith_snd_cases mishap (.createRun new) with h | h <;> rw [h]
  refine factsOf_ofStore fun s r hcreated => ?_
  obtain ⟨hrun, htests⟩ := Store.run?_createRun hcreated hne
  rw [hrun, htests]
  exact ⟨rfl, rfl⟩

/-- A run that is there stays there, whatever is called. -/
theorem isSome_run?_answerWith (mishap : Option Mishap) (c : Call) {w : World}
    (h : (w.store.run? runId).isSome) : ((w.answerWith mishap c).2.store.run? runId).isSome := by
  rcases w.answerWith_snd_cases mishap c with hw | hw <;> rw [hw]
  · exact h
  · rcases store_answer c w with hstore | ⟨op, -, hstore⟩ <;> rw [hstore]
    · exact h
    · rw [Store.isSome_run?_iff] at h ⊢
      rcases w.store.runIds_perform op with hids | hids <;> rw [hids]
      · exact h
      · exact List.mem_append_left _ h

/-! ## Events -/

/-- Whether the facts of a run in a world are those of an earlier world, in which the run may have
been the next to be made. -/
def KeepsFacts (runId : Int) (w w' : World) : Prop :=
  w'.factsOf runId = w.factsOf runId ∨
    runId = Store.nextId w.store.runs ∧ (w'.store.run? runId).isSome

variable {plan : Nat → Option Mishap} {t : Trial}

/-- When a run is created, the facts of other runs are kept until the submission ends. -/
theorem ends_completed (m : Manager) (d : Descriptor) (tests : List ExecutedTest) (new : NewRun)
    (runId : Int) :
    Service.Ends (Trial.answer plan) (do
      let run ← Service.stored (← Service.ask (.createRun new))
      m.completeRun d tests run) t
      (fun _ t' => KeepsFacts runId t.world t'.world)
        fun _ t' => KeepsFacts runId t.world t'.world := by
  rw [Service.ends_ask_bind]
  have hfst := Trial.answer_fst plan (.createRun new) t
  have hworld := Trial.world_answer plan (.createRun new) t
  rcases answerWith_createRun (plan t.past.length) new t.world with
    ⟨cause, h⟩ | ⟨run, w', h, hrun⟩ <;>
    rw [h] at hfst <;> rw [hfst]
  · rw [h] at hworld
    exact .inl (by rw [hworld])
  · by_cases hid : runId = run.id
    · have hthere : ((Trial.answer plan (.createRun new) t).2.world.store.run? runId).isSome := by
        rw [Store.isSome_run?_iff, hworld, h, hrun.runs, hid]
        simp
      have hstep : ∀ c mishap (w : World), True → (w.store.run? runId).isSome →
          ((w.answerWith mishap c).2.store.run? runId).isSome :=
        fun c mishap w _ hw => isSome_run?_answerWith mishap c hw
      have hends :=
        Trial.ends_of_asks plan (Program.asks_true (m.completeRun d tests run).run) hstep hthere
      exact hends.mono (fun _ _ hlater => .inr ⟨hid.trans hrun.isNext, hlater⟩)
        fun _ _ hlater => .inr ⟨hid.trans hrun.isNext, hlater⟩
    · have hsame :
          (Trial.answer plan (.createRun new) t).2.world.factsOf runId = t.world.factsOf runId := by
        rw [hworld]
        exact factsOf_createRun _ new (hrun.isNext ▸ hid)
      have hstep : ∀ c mishap (w : World),
        c.Completes run.id → w.factsOf runId = t.world.factsOf runId →
          (w.answerWith mishap c).2.factsOf runId = t.world.factsOf runId :=
        fun c mishap w hc hw => (factsOf_answerWith mishap (hc.spares (Ne.symm hid)) w).trans hw
      have hends := Trial.ends_of_asks plan (m.asks_completeRun d tests run) hstep hsame
      exact hends.mono (fun _ _ => .inl) fun _ _ => .inl

/-- A call that only looks leaves the world, also when it goes wrong. -/
theorem answerWith_look {c : Call} (hc : c.IsLook) (mishap : Option Mishap) (w : World) :
    (w.answerWith mishap c).2 = w := by
  rcases w.answerWith_snd_cases mishap c with h | h <;> rw [h]
  exact (Trial.answer_look (fun _ => none) hc { world := w }).2.2

/-- A submission keeps the facts of every run but the one that it makes. -/
theorem attempt_submitDescriptor (m : Manager) (d : Descriptor) (w : World) (runId : Int) :
    KeepsFacts runId w (w.attempt plan (m.submitDescriptor d)).2 := by
  have hends : Service.Ends (Trial.answer plan) (m.submitDescriptor d) { world := w }
      (fun _ t => KeepsFacts runId w t.world) fun _ t => KeepsFacts runId w t.world := by
    have hlook : ∀ c mishap (v : World), c.IsLook → v = w → (v.answerWith mishap c).2 = w := by
      rintro c mishap v hc rfl
      exact answerWith_look hc mishap v
    have hcheck := Trial.ends_of_asks (t := { world := w }) plan (m.asks_check d) hlook rfl
    rw [Manager.submitDescriptor, Service.ends_bind]
    refine hcheck.mono ?_ fun _ t ht => .inl (by rw [ht])
    rintro tests t rfl
    rw [Manager.dispatch_eq, Service.ends_ask_bind]
    have haccess : (Trial.answer plan .newAccessToken t).2.world = t.world := by
      rw [Trial.world_answer, Trial.answerWith_of_failing?_eq_none fun _ => rfl]
      rfl
    rw [← haccess]
    exact ends_completed m d tests _ runId
  exact Service.ends_iff.mp hends

/-- The facts of runs do not depend on the catalogue and the registered agents. -/
theorem factsOf_of_runs {w w' : World} (hruns : w'.store.runs = w.store.runs)
    (htests : w'.store.runTests = w.store.runTests) (hfleet : w'.fleet = w.fleet) (runId : Int) :
    w'.factsOf runId = w.factsOf runId := by
  simp only [factsOf, Store.run?, Store.testsOfRun, hruns, htests, hfleet]

/-- An import of the catalogue leaves the facts of every run. -/
theorem factsOf_importCatalogue (w : World) (testbeds tests : SourceFile) (runId : Int) :
    (w.perform (.importCatalogue testbeds tests)).factsOf runId = w.factsOf runId := by
  let same (s : Store) : Prop := s.runs = w.store.runs ∧ s.runTests = w.store.runTests
  have hkept : same (w.store.importCatalogue testbeds tests).1 := by
    have htestbed : ∀ s t, same s → same (s.putTestbed t) := fun _ _ hs => hs
    refine Store.importCatalogue_invariant htestbed (fun s e s' hput hs => ?_) ⟨rfl, rfl⟩ testbeds
      tests
    unfold Store.putTest at hput
    split at hput
    · obtain rfl := Except.ok.inj hput
      exact hs
    · cases hput
  refine factsOf_of_runs ?_ ?_ ?_ runId
  exacts [hkept.1, hkept.2, rfl]

/-- An agent that is added leaves the facts of every run. -/
theorem factsOf_addAgent (w : World) (testbedId url username password : String) (runId : Int) :
    (w.perform (.addAgent testbedId url username password)).factsOf runId = w.factsOf runId := by
  have hkept : (w.store.perform (.addAgent testbedId url username password)).runs = w.store.runs ∧
      (w.store.perform (.addAgent testbedId url username password)).runTests =
          w.store.runTests := by
    simp only [Store.perform, Store.addAgent]
    split
    · exact ⟨rfl, rfl⟩
    · split <;> exact ⟨rfl, rfl⟩
  refine factsOf_of_runs ?_ ?_ ?_ runId
  exacts [hkept.1, hkept.2, rfl]

/-- An event makes at most one run, and keeps the facts of all others. -/
theorem keepsFacts_perform (w : World) (e : Event) (runId : Int) :
    KeepsFacts runId w (w.perform e) := by
  cases e with
  | request q plan =>
    by_cases hq : ∃ m d, q = .submit m d
    · obtain ⟨m, d, rfl⟩ := hq
      exact w.attempt_submitDescriptor m d runId
    · have hasks := q.asks_service fun m d h => hq ⟨m, d, h⟩
      have hstep : ∀ c mishap (v : World),
        c.FollowsUp q.reported? → v.factsOf runId = w.factsOf runId →
          (v.answerWith mishap c).2.factsOf runId = w.factsOf runId :=
        fun c mishap v hc hv => (factsOf_answerWith mishap (hc.isFollowUp.spares runId) v).trans hv
      exact .inl (attempt_invariant hasks hstep rfl plan)
  | importCatalogue testbeds tests => exact .inl (w.factsOf_importCatalogue testbeds tests runId)
  | addAgent testbedId url username password =>
    exact .inl (w.factsOf_addAgent testbedId url username password runId)
  | meanwhile x => exact .inl rfl

/-! ## Sessions -/

/-- Whether a run is there is one of its facts. -/
theorem isSome_run?_of_factsOf_eq {w w' : World} (h : w'.factsOf runId = w.factsOf runId) :
    (w'.store.run? runId).isSome = (w.store.run? runId).isSome := by
  have htoken := congrArg (fun facts => facts.token.isSome) h
  simpa [factsOf] using htoken

/-- The facts of a run that is there are kept for the rest of a session. -/
theorem Reachable.factsOf_after {w : World} (hw : w.Reachable) (hrun : (w.store.run? runId).isSome)
    (events : List Event) : (w.after events).factsOf runId = w.factsOf runId := by
  induction events generalizing w with
  | nil => rfl
  | cons e rest ih =>
    have hkept : (w.perform e).factsOf runId = w.factsOf runId := by
      rcases w.keepsFacts_perform e runId with h | ⟨rfl, -⟩
      · exact h
      · exact absurd ((w.store.isSome_run?_iff _).mp hrun) hw.store.consistent.nextId_notMem
    exact (ih (hw.perform e) (by rwa [isSome_run?_of_factsOf_eq hkept])).trans hkept

/-- Nothing is registered for a run that is not there. -/
theorem Reachable.factsOf_of_none {w : World} (hw : w.Reachable)
    (hrun : w.store.run? runId = none) :
    w.factsOf runId = .blank := by
  induction hw with
  | start _ hruns htests hcredentials _ =>
    simp [factsOf, hruns, htests, hcredentials, Store.run?, Store.testsOfRun, RunFacts.blank]
  | @perform w _ e ih =>
    rcases w.keepsFacts_perform e runId with h | ⟨-, h⟩
    · have hnone := isSome_run?_of_factsOf_eq h
      rw [hrun, Option.isSome_none, eq_comm, Option.isSome_eq_false_iff, Option.isNone_iff_eq_none]
        at hnone
      exact h.trans (ih hnone)
    · rw [hrun] at h
      cases h

end World
end PipelineManager
