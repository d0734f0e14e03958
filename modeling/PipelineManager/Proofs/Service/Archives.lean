import PipelineManager.Proofs.Service.Registration
import PipelineManager.Proofs.Service.Retry
import PipelineManager.Proofs.Service.Writes
import PipelineManager.Proofs.Store.Integrity

/-!
# Archives of developer-defined tests

An archive is uploaded for a network application and the name of a test. A pipeline asks for it by
the full name of a test of its run. Whatever happens in between, it gets what was written last: the
row of the test was made for a test of a descriptor of the run's network application, and a full
name tells the name of its test.
-/

namespace PipelineManager

/-! ## Full names -/

/-- The full name of a developer's test. -/
theorem Testcase.fullName_of_developerDefined {t : Testcase} (h : t.kind = .developerDefined) :
    t.fullName = "dev-defined-" ++ t.name ++ "-test-id-" ++ Json.intText t.id := by
  rw [fullName, h]

/-- A full name tells the name of its test. The identifier at its end holds no letter, so the last
letter tells where the identifier begins. -/
theorem name_of_fullName_eq {name name' : String} {id id' : Int}
    (h : "dev-defined-" ++ name ++ "-test-id-" ++ Json.intText id =
      "dev-defined-" ++ name' ++ "-test-id-" ++ Json.intText id') : name = name' := by
  have htext (name : String) (id : Int) :
    ("dev-defined-" ++ name ++ "-test-id-" ++ Json.intText id).toList =
      ("dev-defined-".toList ++ (name.toList ++ "-test-i".toList)) ++ 'd' :: '-' ::
          (Json.intText id).toList := by
    simp
  have hlists := congrArg String.toList h
  rw [htext, htext] at hlists
  rw [eq_of_append_separator (Json.letter_notMem_dash_intText id)
    (Json.letter_notMem_dash_intText id') hlists] at hlists
  have hnames := List.append_cancel_left (List.append_cancel_right hlists)
  exact String.toList_inj.mp (List.append_cancel_right hnames)

/-! ## Rows of executed tests -/

/-- Whether every row of a test was made for a test of a descriptor of the network
application of its run. -/
def Store.RegistersExecuted (s : Store) : Prop :=
  ∀ t ∈ s.runTests, ∃ r test,
    s.run? t.runId = some r ∧ t.registered = .ofExecuted r.netappId (.ofTestcase test)

namespace Store

variable {s : Store}

/-- A row is there already, or it is the one that is added. -/
theorem exists_of_mem_runTests_perform {op : Operation} {t : RunTest}
    (ht : t ∈ (s.perform op).runTests) :
    (∃ t' ∈ s.runTests, t'.runId = t.runId ∧ t'.registered = t.registered) ∨
      op = .addRunTest t.runId t.registered := by
  cases op with
  | addRunTest runId new =>
    simp only [perform, addRunTest] at ht
    split at ht
    · rcases List.mem_append.mp ht with ht | ht
      · exact .inl ⟨t, ht, rfl, rfl⟩
      · rw [List.mem_singleton.mp ht]
        exact .inr rfl
    · exact .inl ⟨t, ht, rfl, rfl⟩
  | recordTestResult id success startedAt endedAt =>
    obtain ⟨t', ht', rfl⟩ := List.mem_map.mp ht
    refine .inl ⟨t', ht', ?_⟩
    split <;> exact ⟨rfl, rfl⟩
  | _ =>
    rw [(s.perform_leaves _).2.2 (by intro h; cases h)] at ht
    exact .inl ⟨t, ht, rfl, rfl⟩

/-- A run stays one of its network application. -/
theorem Reachable.run?_perform (hs : s.Reachable) (op : Operation) {id : Int} {r : Run}
    (hr : s.run? id = some r) :
    ∃ r', (s.perform op).run? id = some r' ∧ r'.netappId = r.netappId := by
  obtain ⟨r', hr', hfixed⟩ := (hs.continues_perform op).run?_eq_some hr
  have hnetapp : r'.fixed.netappId = r.fixed.netappId := congrArg Run.netappId hfixed
  exact ⟨r', hr', hnetapp⟩

/-- Only the rows that are added have to be looked at. -/
theorem RegistersExecuted.perform (h : s.RegistersExecuted) (hs : s.Reachable) {op : Operation}
    (hop : ∀ id new, op = .addRunTest id new →
      ∃ r test, s.run? id = some r ∧ new = .ofExecuted r.netappId (.ofTestcase test)) :
    (s.perform op).RegistersExecuted := by
  intro t ht
  obtain ⟨r, test, hr, hmade⟩ :
      ∃ r test, s.run? t.runId = some r ∧
          t.registered = .ofExecuted r.netappId (.ofTestcase test) := by
    rcases exists_of_mem_runTests_perform ht with ⟨t', ht', hrun, hregistered⟩ | hadded
    · rw [← hrun, ← hregistered]
      exact h t' ht'
    · exact hop _ _ hadded
  obtain ⟨r', hr', hnetapp⟩ := hs.run?_perform op hr
  exact ⟨r', test, hr', by rw [hnetapp, hmade]⟩

end Store

namespace World

variable {w : World}

/-- Registered tests stay executed ones through a call that registers only such tests. -/
theorem registersExecuted_answerWith (h : w.store.RegistersExecuted) (hs : w.store.Reachable)
    {c : Call}
    (hc : ∀ id new, c = .addRunTest id new → ∃ r test,
      w.store.run? id = some r ∧ new = .ofExecuted r.netappId (.ofTestcase test))
    (mishap : Option Mishap) : (w.answerWith mishap c).2.store.RegistersExecuted := by
  rcases w.answerWith_snd_cases mishap c with hw | hw <;> rw [hw]
  · exact h
  · rcases store_answer c w with hstore | ⟨op, hop, hstore⟩ <;> rw [hstore]
    · exact h
    · refine h.perform hs fun id new hadded => hc id new ?_
      subst hadded
      cases c <;> cases hop
      rfl

/-- Whether a world has the run of a descriptor under an identifier. -/
def HasRunOf (d : Descriptor) (id : Int) (w : World) : Prop :=
  ∃ r, w.store.run? id = some r ∧ r.netappId = d.info.netappId

/-- A run of a descriptor stays one through any call. -/
theorem HasRunOf.answerWith {d : Descriptor} {id : Int} (h : HasRunOf d id w)
    (hs : w.store.Reachable) (mishap : Option Mishap) (c : Call) :
    HasRunOf d id (w.answerWith mishap c).2 := by
  obtain ⟨r, hr, hnetapp⟩ := h
  rcases w.answerWith_snd_cases mishap c with hw | hw <;> rw [hw]
  · exact ⟨r, hr, hnetapp⟩
  · rcases store_answer c w with hstore | ⟨op, -, hstore⟩
    · exact ⟨r, by rw [hstore, hr], hnetapp⟩
    · obtain ⟨r', hr', hsame⟩ := hs.run?_perform op hr
      exact ⟨r', by rw [hstore, hr'], hsame.trans hnetapp⟩

/-- What holds of a world while the run of a descriptor is completed. -/
structure Completing (d : Descriptor) (id : Int) (w : World) : Prop where
  reachable : w.store.Reachable
  registers : w.store.RegistersExecuted
  run : HasRunOf d id w

/-- The completion of a run goes on through a call that completes it. -/
theorem Completing.answerWith {d : Descriptor} {id : Int} (h : Completing d id w)
    (mishap : Option Mishap) {c : Call}
    (hc : c.CompletesWith (d.executedTests.map (.ofExecuted d.info.netappId)) id) :
    Completing d id (w.answerWith mishap c).2 where
  reachable := reachable_answerWith h.reachable mishap c
  run := h.run.answerWith h.reachable mishap c
  registers := by
    refine registersExecuted_answerWith h.registers h.reachable (fun i new hadds => ?_) mishap
    subst hadds
    obtain ⟨hid, hnew⟩ := hc
    obtain rfl : i = id := hid
    obtain ⟨x, hx, rfl⟩ := List.mem_map.mp hnew
    obtain ⟨test, -, rfl⟩ := List.mem_map.mp hx
    obtain ⟨r, hr, hnetapp⟩ := h.run
    exact ⟨r, test, hr, by rw [hnetapp]⟩

/-- A run that is created is that of the descriptor. -/
theorem hasRunOf_createRun {d : Descriptor} {mishap : Option Mishap} {accessToken : String}
    {run : Run} (hw : w.store.Reachable)
    (h :
      (w.answerWith mishap
        (.createRun ⟨d.info.netappId, d.info.networkServiceId, d.info.testbedId, accessToken⟩)).1 =
      .ok run) :
    HasRunOf d run.id (w.answerWith mishap
      (.createRun ⟨d.info.netappId, d.info.networkServiceId, d.info.testbedId,
        accessToken⟩)).2 := by
  set new : NewRun := ⟨d.info.netappId, d.info.networkServiceId, d.info.testbedId, accessToken⟩
  have hgained := gained_createRun h
  have hfault : (Call.createRun new).fault? (w.answerWith mishap (.createRun new)).1 = none := by
    rw [h]
    rfl
  refine ⟨run, Store.run?_last hgained.runs (hgained.isNext ▸ hw.consistent.nextId_notMem), ?_⟩
  rcases answerWith_of_fault?_eq_none hfault with hanswer | ⟨⟨a, ha⟩, -⟩
  · rw [hanswer] at h hfault
    obtain ⟨s, r, hcreated, hstored⟩ := ofStore_of_fault?_eq_none hfault
    rw [answer, hstored] at h
    obtain rfl := Except.ok.inj h
    unfold Store.createRun at hcreated
    split at hcreated
    · obtain ⟨-, rfl⟩ := Prod.mk.inj (Except.ok.inj hcreated)
      rfl
    · cases hcreated
  · cases ha

/-- However far a submission comes, it registers tests of its descriptor only. -/
theorem ends_submitDescriptor_registers (m : Manager) (d : Descriptor) (hw : w.store.Reachable)
    (hregisters : w.store.RegistersExecuted) (plan : Nat → Option Mishap) :
    Service.Ends (Trial.answer plan) (m.submitDescriptor d) { world := w }
      (fun _ t => Completing d (Store.nextId w.store.runs) t.world)
        fun _ t => t.world.store.RegistersExecuted := by
  have hlook : ∀ c mishap (v : World), c.IsLook → v = w → (v.answerWith mishap c).2 = w := by
    rintro c mishap v hc rfl
    exact answerWith_look hc mishap v
  have hjudged : Service.Ends (Trial.answer plan) (m.check d) { world := w } _ _ :=
    m.ends_check_judged d w
  have hcheck :=
    hjudged.and (Trial.ends_of_asks (t := { world := w }) plan (m.asks_check d) hlook rfl)
  rw [Manager.submitDescriptor, Service.ends_bind]
  refine hcheck.mono ?_ fun _ t ht => ht.2 ▸ hregisters
  rintro _ t ⟨⟨rfl, -, rfl⟩, -⟩
  rw [Manager.dispatch_eq, Service.ends_ask_bind]
  set t₁ := (Trial.answer plan .newAccessToken t).2 with ht₁
  have hworld : t₁.world = t.world := by
    rw [ht₁, Trial.world_answer, Trial.answerWith_of_failing?_eq_none fun _ => rfl]
    rfl
  rw [← hworld] at hw hregisters ⊢
  rw [Service.ends_ask_bind, Service.ends_bind]
  rcases hcreated : (Trial.answer plan (.createRun _) t₁).1 with e | run
  · exact registersExecuted_answerWith hregisters hw (fun _ _ h => by cases h) _
  · have hbegin : Completing d run.id (Trial.answer plan (.createRun _) t₁).2.world := {
      reachable := reachable_answerWith hw _ _
      registers := registersExecuted_answerWith hregisters hw (fun _ _ h => by cases h) _
      run := hasRunOf_createRun hw hcreated }
    have hstep : ∀ c mishap (v : World),
      c.CompletesWith (d.executedTests.map (.ofExecuted d.info.netappId)) run.id →
        Completing d run.id v → Completing d run.id (v.answerWith mishap c).2 :=
      fun c mishap v hc hv => hv.answerWith mishap hc
    have hends :=
      Trial.ends_of_asks plan (m.asks_completeRun_with d d.executedTests run) hstep hbegin
    rw [← (gained_createRun hcreated).isNext]
    exact hends.mono (fun _ _ h => h) fun _ _ h => h.registers

/-- In a session all rows of tests were made for tests of descriptors. -/
theorem Reachable.registersExecuted (hw : w.Reachable) : w.store.RegistersExecuted := by
  induction hw with
  | start _ _ htests _ _ =>
    intro t ht
    rw [htests] at ht
    cases ht
  | @perform w hw e ih =>
    cases e with
    | request q plan =>
      by_cases hq : ∃ m d, q = .submit m d
      · obtain ⟨m, d, rfl⟩ := hq
        have hends := ends_submitDescriptor_registers m d hw.store ih plan
        exact Service.ends_iff.mp (hends.mono (fun _ _ h => h.registers) fun _ _ h => h)
      · have hasks := q.asks_service fun m d h => hq ⟨m, d, h⟩
        have hstep : ∀ c mishap (v : World), c.FollowsUp q.reported? →
            v.store.Reachable ∧ v.store.RegistersExecuted →
            (v.answerWith mishap c).2.store.Reachable ∧
                (v.answerWith mishap c).2.store.RegistersExecuted := by
          rintro c mishap v hc ⟨hreachable, hv⟩
          refine ⟨reachable_answerWith hreachable mishap c,
            registersExecuted_answerWith hv hreachable ?_ mishap⟩
          rintro id new rfl
          exact hc.isFollowUp.elim
        exact (attempt_invariant hasks hstep ⟨hw.store, ih⟩ plan).2
    | importCatalogue testbeds tests =>
      have hrest := Store.importCatalogue_rest w.store testbeds tests
      have hruns := congrArg Store.runs hrest
      have htests := congrArg Store.runTests hrest
      intro t ht
      rw [World.perform, Store.run?, hruns]
      exact ih t (htests ▸ ht)
    | addAgent testbedId url username password => exact ih.perform hw.store fun _ _ h => by cases h
    | meanwhile x => exact ih

/-! ## Keeping and handing out -/

/-- An archive is kept at its path iff its name is admitted. -/
theorem exec_keepArchive {σ : Type} (answer : (c : Call) → σ → c.Answer × σ) (x : σ)
    (netappId name : String) (archive : ByteArray) :
    Service.exec answer (Manager.keepArchive netappId name archive) x =
      if isTestName name.toList then
        ((answer (.upload (archivePath netappId name) archive) x).1.mapError .storage
          |>.map fun _ =>
            archivePath netappId name,
          (answer (.upload (archivePath netappId name) archive) x).2)
      else (.error (.invalidTestName name), x) := by
  rw [Manager.keepArchive, Service.exec_bind, Service.exec_require]
  by_cases hname : isTestName name.toList
  · rw [if_pos hname, if_pos hname]
    dsimp only
    rw [Service.exec_bind, Service.exec_ask]
    dsimp only
    rw [Service.exec_bind, Service.exec_stored]
    cases (answer (.upload (archivePath netappId name) archive) x).1 <;> rfl
  · rw [if_neg hname, if_neg hname]

/-- An archive of a test with a name is uploaded to its place. Nothing else changes, and nothing
else goes wrong. -/
theorem attempt_keepArchive (w : World) (plan : Nat → Option Mishap) (netappId name : String)
    (archive : ByteArray) :
    w.attempt plan (Manager.keepArchive netappId name archive) =
      if isTestName name.toList then
        ((w.warehouse.upload (archivePath netappId name) archive).2.mapError
          (fun e => .storage (.warehouse e)) |>.map
            fun _ => archivePath netappId name,
          { w with warehouse := (w.warehouse.upload (archivePath netappId name) archive).1 })
      else (.error (.invalidTestName name), w) := by
  have hanswer := w.answerWith_upload (plan 0) (archivePath netappId name) archive
  have hresult :
    (Trial.answer plan (.upload (archivePath netappId name) archive) { world := w }).1 =
      (w.warehouse.upload (archivePath netappId name) archive).2.mapError .warehouse :=
    congrArg Prod.fst hanswer
  have hworld :
    (Trial.answer plan (.upload (archivePath netappId name) archive) { world := w }).2.world =
      { w with warehouse := (w.warehouse.upload (archivePath netappId name) archive).1 } :=
    congrArg Prod.snd hanswer
  rw [attempt, exec_keepArchive]
  by_cases hname : isTestName name.toList
  · rw [if_pos hname, if_pos hname]
    dsimp only
    rw [hresult, hworld]
    cases (w.warehouse.upload (archivePath netappId name) archive).2 <;> rfl
  · rw [if_neg hname, if_neg hname]

/-- An archive that was uploaded lies at its place. -/
theorem file?_keepArchive {netappId name path : String} {archive : ByteArray}
    {plan : Nat → Option Mishap}
    (h : (w.attempt plan (Manager.keepArchive netappId name archive)).1 = .ok path) :
    ∃ location, Location.ofPath (archivePath netappId name) = .ok location ∧
      location.onlyDirectory = false ∧
      (w.perform (.request (.keepArchive netappId name archive) plan)).file? location.parts =
        some archive := by
  have hattempt := w.attempt_keepArchive plan netappId name archive
  rw [hattempt] at h
  split at h
  · next hname =>
    rw [if_pos hname] at hattempt
    have hok : (w.warehouse.upload (archivePath netappId name) archive).2 = .ok () := by
      rcases hresult : (w.warehouse.upload (archivePath netappId name) archive).2 with e | _
      · rw [hresult] at h
        cases h
      · rfl
    obtain ⟨location, hlocation, honly, hfile⟩ := Warehouse.file?_upload_of_ok hok
    refine ⟨location, hlocation, honly, ?_⟩
    rw [perform, ServiceRequest.service, hattempt, file?, hfile, if_pos rfl]
  · cases h

/-- Whether the last write to the place of an archive was an upload of it for a test. -/
def KeptLast (w : World) (events : List Event) (netappId name : String)
    (archive : ByteArray) : Prop :=
  ∃ before plan path later,
    events = before ++ .request (.keepArchive netappId name archive) plan :: later ∧
    ((w.after before).attempt plan (Manager.keepArchive netappId name archive)).1 = .ok path ∧
    ∀ x ∈ ((w.after before).perform (.request (.keepArchive netappId name archive) plan)).written
      later, Location.place? (archivePath netappId name) ≠ some x.1

/-- What was kept last is downloaded. -/
theorem KeptLast.download {events : List Event} {netappId name : String} {archive : ByteArray}
    (h : w.KeptLast events netappId name archive) :
    (w.after events).warehouse.download (archivePath netappId name) = .ok archive := by
  obtain ⟨before, plan, path, later, rfl, hkept, hlater⟩ := h
  obtain ⟨location, hlocation, honly, hfile⟩ := file?_keepArchive hkept
  have hplace : Location.place? (archivePath netappId name) = some location.parts := by
    rw [Location.place?, hlocation]
    rfl
  have hnone : lastWrite? location.parts
      (((w.after before).perform (.request (.keepArchive netappId name archive) plan)).written
          later) = none :=
    lastWrite?_eq_none fun x hx heq => hlater x hx (by rw [hplace, heq])
  have hafter : w.after (before ++ .request (.keepArchive netappId name archive) plan :: later) =
      ((w.after before).perform (.request (.keepArchive netappId name archive) plan)).after later :=
    after_append _ _ _
  have hheld :=
    file?_after ((w.after before).perform (.request (.keepArchive netappId name archive) plan))
      later location.parts
  rw [hnone, Option.none_or, hfile] at hheld
  rw [hafter]
  exact Warehouse.download_of_file? hlocation honly hheld

/-- The holder of the token of a run gets the file of the first test with a full name. -/
theorem carryOut_developerArchive {runId : Int} {token : String} {r : Run}
    (hget : RunCall.getRun ∉ w.broken) (hlist : RunCall.listRunTests ∉ w.broken)
    (hr : w.store.run? runId = some r) (htoken : r.communicationToken = some token)
    (fullName : String) :
    w.carryOut (Manager.developerArchive runId token fullName).run =
      match ((w.store.testsOfRun runId).find? fun t =>
        t.developerDefined ∧ t.fullName = fullName).bind
        (·.artifactPath) with
      | some path => ((w.warehouse.download path).mapError fun e => .storage (.warehouse e), w)
      | none => (.error (.missingArtifact fullName), w) := by
  show Service.exec World.answer (Manager.developerArchive runId token fullName) w = _
  rw [Manager.developerArchive, Service.exec_bind, exec_authorizedRun_of_run hget hr htoken]
  dsimp only
  rw [Service.exec_bind, Service.exec_ask, answer_runTests, if_neg (by simpa using hlist)]
  dsimp only
  rw [Service.exec_bind, Service.exec_stored]
  dsimp only [Except.mapError]
  cases ((w.store.testsOfRun runId).find? fun t => t.developerDefined ∧ t.fullName = fullName).bind
    (·.artifactPath) with
  | none => rfl
  | some path =>
    dsimp only
    rw [Service.exec_bind, Service.exec_ask]
    dsimp only [World.answer]
    rw [Service.exec_stored]
    cases w.warehouse.download path <;> rfl

/-- Whether a session submitted a descriptor and got a receipt. -/
def Accepts (w : World) (events : List Event) (d : Descriptor) (receipt : Receipt) : Prop :=
  ∃ before m plan later, events = before ++ .request (.submit m d) plan :: later ∧
    ((w.after before).attempt plan (m.submitDescriptor d)).1 = .ok receipt

/-- A run of a descriptor stays one through any events. -/
theorem HasRunOf.after {d : Descriptor} {id : Int} (hw : w.Reachable) (h : HasRunOf d id w)
    (events : List Event) :
    HasRunOf d id (w.after events) := by
  induction events generalizing w with
  | nil => exact h
  | cons e rest ih =>
    refine ih (hw.perform e) ?_
    cases e with
    | request q plan =>
      have hstep : ∀ c mishap (v : World), True → v.store.Reachable ∧ HasRunOf d id v →
          (v.answerWith mishap c).2.store.Reachable ∧ HasRunOf d id (v.answerWith mishap c).2 :=
        fun c mishap v _ hv => ⟨reachable_answerWith hv.1 mishap c, hv.2.answerWith hv.1 mishap c⟩
      exact (attempt_invariant (Program.asks_true q.service.run) hstep ⟨hw.store, h⟩ plan).2
    | importCatalogue testbeds tests =>
      have hruns := congrArg Store.runs (Store.importCatalogue_rest w.store testbeds tests)
      rw [HasRunOf, World.perform, Store.run?, hruns]
      exact h
    | addAgent testbedId url username password =>
      obtain ⟨r, hr, hnetapp⟩ := h
      obtain ⟨r', hr', hsame⟩ :=
        hw.store.run?_perform (.addAgent testbedId url username password) hr
      exact ⟨r', hr', hsame.trans hnetapp⟩
    | meanwhile x => exact h

/-- A run that was submitted stays one of its network application, with the tests that its
descriptor executes. -/
theorem Accepts.registered {events : List Event} {d : Descriptor} {receipt : Receipt}
    (hw : w.Reachable) (h : w.Accepts events d receipt) :
    HasRunOf d receipt.runId (w.after events) ∧
      ((w.after events).store.testsOfRun receipt.runId).map (·.registered) =
        d.executedTests.map (.ofExecuted d.info.netappId) := by
  obtain ⟨before, m, plan, later, rfl, haccepted⟩ := h
  have hw₁ := hw.after before
  have hattempt : (w.after before).attempt plan (m.submitDescriptor d) =
      (.ok receipt, ((w.after before).attempt plan (m.submitDescriptor d)).2) :=
    Prod.ext haccepted rfl
  have hw₂ := hw₁.submitted hattempt
  obtain ⟨run, agent, rows, script, hsubmitted⟩ := exists_submitted hw₁.store.consistent hattempt
  have hcompleted :=
    (ends_submitDescriptor_registers m d hw₁.store hw₁.registersExecuted plan).of_result haccepted
  have hrun : HasRunOf d receipt.runId
      ((w.after before).attempt plan (m.submitDescriptor d)).2 := by
    rw [hsubmitted.runId, hsubmitted.gained.isNext]
    exact hcompleted.run
  have hafter : w.after (before ++ .request (.submit m d) plan :: later) =
      ((w.after before).attempt plan (m.submitDescriptor d)).2.after later := after_append _ _ _
  rw [hafter]
  refine ⟨hrun.after hw₂ later, ?_⟩
  obtain ⟨r, hr, -⟩ := hrun
  have hfacts := congrArg RunFacts.tests (hw₂.factsOf_after (by rw [hr]; rfl) later)
  have hregistered := congrArg (List.map Prod.snd) hfacts
  simp only [factsOf, List.map_map] at hregistered
  refine Eq.trans hregistered ?_
  rw [hsubmitted.runId, hsubmitted.testsOfRun_eq hw₁]
  exact hsubmitted.registered

end World

/-! ## Developer-defined tests -/

/-- Whether a full name is that of a developer-defined test of a run. -/
def Store.HasDeveloperTest (s : Store) (runId : Int) (fullName : String) : Prop :=
  ∃ t ∈ s.testsOfRun runId, t.developerDefined = true ∧ t.fullName = fullName

/-- Whether a full name is that of a developer-defined test that a descriptor executes. -/
def Descriptor.HasDeveloperTest (d : Descriptor) (fullName : String) : Prop :=
  ∃ test ∈ d.executed, test.kind = .developerDefined ∧ test.fullName = fullName

/-- Whether the holder of the token of a run gets the archive that is kept for a name by each full
name of a developer-defined test with the name, and is told that there is none by all but the full
names of such tests. -/
structure World.HandsOut (w : World) (runId : Int) (token : String) (isFullName : String → Prop)
    (isKept : String → ByteArray → Prop) : Prop where
  kept : ∀ name archive, isKept name archive →
    ∀ id, isFullName ("dev-defined-" ++ name ++ "-test-id-" ++ Json.intText id) →
      w.carryOut (Manager.developerArchive runId token
        ("dev-defined-" ++ name ++ "-test-id-" ++ Json.intText id)).run = (.ok archive, w)
  missing : ∀ fullName, ¬ isFullName fullName →
    w.carryOut (Manager.developerArchive runId token fullName).run =
      (.error (.missingArtifact fullName), w)

section HandsOut

variable {w : World} {events : List Event} {runId : Int} {token : String} {r : Run}

/-- The rows of a run tell where the archives of its tests are. -/
theorem Store.RegistersExecuted.artifactPath {s : Store} (h : s.RegistersExecuted)
    (hr : s.run? runId = some r) {t : RunTest} (ht : t ∈ s.testsOfRun runId)
    (hkind : t.developerDefined = true) {name : String} {id : Int}
    (hname : t.fullName = "dev-defined-" ++ name ++ "-test-id-" ++ Json.intText id) :
    t.artifactPath = some (archivePath r.netappId name) := by
  obtain ⟨hmem, hrun⟩ := List.mem_filter.mp ht
  obtain ⟨r', test, hr', hmade⟩ := h t hmem
  rw [of_decide_eq_true hrun, hr] at hr'
  obtain rfl := Option.some.inj hr'
  have hdeveloper : t.developerDefined = (ExecutedTest.ofTestcase test).isDeveloperDefined :=
    congrArg NewRunTest.developerDefined hmade
  have hfull : t.fullName = test.fullName := congrArg NewRunTest.fullName hmade
  have hpath : t.artifactPath = _ := congrArg NewRunTest.artifactPath hmade
  rw [hdeveloper] at hkind
  have hsame : test.name = name :=
    name_of_fullName_eq
      ((Testcase.fullName_of_developerDefined (of_decide_eq_true hkind)).symm.trans
      (hfull.symm.trans hname))
  rw [hpath, ← hsame]
  exact if_pos hkind

/-- Among the rows of a run, those of its developer-defined tests are looked up. -/
theorem World.handsOut_rows (hregisters : w.store.RegistersExecuted)
    {isKept : String → ByteArray → Prop}
    (hkept : ∀ name archive,
      isKept name archive → w.warehouse.download (archivePath r.netappId name) = .ok archive)
    (hget : RunCall.getRun ∉ w.broken) (hlist : RunCall.listRunTests ∉ w.broken)
    (hr : w.store.run? runId = some r) (htoken : r.communicationToken = some token) :
    w.HandsOut runId token (w.store.HasDeveloperTest runId) isKept := by
  constructor
  · rintro name archive harchive id ⟨t, ht, hkind, hname⟩
    have hfound : ((w.store.testsOfRun runId).find? fun t =>
        t.developerDefined ∧
            t.fullName = "dev-defined-" ++ name ++ "-test-id-" ++ Json.intText id).isSome :=
      List.find?_isSome.mpr ⟨t, ht, by simp [hkind, hname]⟩
    obtain ⟨t', ht'⟩ := Option.isSome_iff_exists.mp hfound
    have hsame := List.find?_some ht'
    simp only [decide_eq_true_eq] at hsame
    have hpath := hregisters.artifactPath hr (List.mem_of_find?_eq_some ht') hsame.1 hsame.2
    rw [carryOut_developerArchive hget hlist hr htoken, ht']
    simp only [Option.bind_some, hpath, hkept name archive harchive]
    rfl
  · intro fullName hnot
    have hnone :
        ((w.store.testsOfRun runId).find? fun t => t.developerDefined ∧ t.fullName = fullName) =
            none := by
      refine List.find?_eq_none.mpr fun t ht hsame => hnot ?_
      obtain ⟨hkind, hname⟩ := of_decide_eq_true hsame
      exact ⟨t, ht, hkind, hname⟩
    rw [carryOut_developerArchive hget hlist hr htoken, hnone]
    rfl

/-- The developer-defined tests of a run are those that its descriptor executes. -/
theorem hasDeveloperTest_iff {s : Store} {d : Descriptor}
    (h : (s.testsOfRun runId).map (·.registered) =
      d.executedTests.map (.ofExecuted d.info.netappId))
    (fullName : String) :
    s.HasDeveloperTest runId fullName ↔ d.HasDeveloperTest fullName := by
  have hrows : s.HasDeveloperTest runId fullName ↔ ∃ new ∈ (s.testsOfRun runId).map (·.registered),
      new.developerDefined = true ∧ new.fullName = fullName := by
    simp only [List.mem_map, exists_exists_and_eq_and]
    rfl
  have htests : d.HasDeveloperTest fullName ↔
    ∃ new ∈ d.executedTests.map (NewRunTest.ofExecuted d.info.netappId),
      new.developerDefined = true ∧ new.fullName = fullName := by
    simp only [Descriptor.executedTests, List.mem_map, exists_exists_and_eq_and,
      NewRunTest.ofExecuted,
      ExecutedTest.isDeveloperDefined, ExecutedTest.ofTestcase, decide_eq_true_eq]
    rfl
  rw [hrows, htests, h]

/-- At any point of a session, the pipeline of a run gets the archive whose upload, for the
network application of the run and the name of a test, was the last write to its place: by the
full names of the developer-defined tests of the run that have the name. It is told for any other
full name that there is no archive. The tests of a run that was submitted are those that its
descriptor executes. -/
theorem Manager.archives_are_handed_out (hw : w.Reachable)
    (hget : RunCall.getRun ∉ (w.after events).broken)
    (hlist : RunCall.listRunTests ∉ (w.after events).broken)
    (hr : (w.after events).store.run? runId = some r) (htoken : r.communicationToken = some token) :
    (w.after events).HandsOut runId token ((w.after events).store.HasDeveloperTest runId)
        (w.KeptLast events r.netappId) ∧
      ∀ d receipt, w.Accepts events d receipt → receipt.runId = runId →
        r.netappId = d.info.netappId ∧
          (w.after events).HandsOut runId token d.HasDeveloperTest
            (w.KeptLast events d.info.netappId) := by
  have hrows := World.handsOut_rows (hw.after events).registersExecuted
    (fun _ _ hkept => World.KeptLast.download hkept) hget hlist hr htoken
  refine ⟨hrows, ?_⟩
  rintro d receipt haccepted rfl
  obtain ⟨⟨r', hr', hnetapp⟩, hregistered⟩ := haccepted.registered hw
  obtain rfl := Option.some.inj (hr.symm.trans hr')
  have htests := funext fun fullName => propext (hasDeveloperTest_iff hregistered fullName)
  rw [← htests, ← hnetapp]
  exact ⟨rfl, hrows⟩

/-- A session in which a descriptor is submitted, the archive of its test is uploaded anew, its
results are published, and an archive of the same name is uploaded for another application. -/
def pairSession : List Event :=
  [.request (.submit pairManager pairDescriptor) fun _ => none,
    .request (.keepArchive "app" "own" ⟨#[1, 2]⟩) fun _ => none,
    .request (.callback 1 "communication" (.publishResults "out")) fun _ => none,
    .request (.keepArchive "other" "own" ⟨#[3]⟩) fun _ => none]

/-- The archive of the pair's own test is handed out to its run. -/
theorem Manager.archives_are_handed_out_pair :
    pairWorld.KeptLast pairSession "app" "own" ⟨#[1, 2]⟩ ∧
      ∃ r, pairWorld.Reachable ∧ (pairWorld.after pairSession).store.run? 1 = some r ∧
      r.netappId = "app" ∧
        r.communicationToken = some "communication" ∧
        (pairWorld.after pairSession).HandsOut 1 "communication"
          ((pairWorld.after pairSession).store.HasDeveloperTest 1)
            (pairWorld.KeptLast pairSession r.netappId) ∧
        ∀ d receipt, pairWorld.Accepts pairSession d receipt → receipt.runId = 1 →
          r.netappId = d.info.netappId ∧
            (pairWorld.after pairSession).HandsOut 1 "communication" d.HasDeveloperTest
              (pairWorld.KeptLast pairSession d.info.netappId) := by
  have hreachable : pairWorld.Reachable := .start smallWorld_reachable rfl rfl rfl rfl
  have hrun : ((pairWorld.after pairSession).store.run? 1).map
    (fun r => (r.netappId, r.communicationToken)) =
      some ("app", some "communication") := by
    decide +kernel
  obtain ⟨r, hr, hfacts⟩ := Option.map_eq_some_iff.mp hrun
  obtain ⟨hnetapp, htoken⟩ := Prod.mk.inj hfacts
  have hkept : pairWorld.KeptLast pairSession "app" "own" ⟨#[1, 2]⟩ := by
    have hkeeps : ((pairWorld.after (pairSession.take 1)).attempt (fun _ => none)
        (keepArchive "app" "own" ⟨#[1, 2]⟩)).1.toOption.isSome = true := by
      decide +kernel
    obtain ⟨path, hpath⟩ := Option.isSome_iff_exists.mp hkeeps
    refine ⟨pairSession.take 1, fun _ => none, path, pairSession.drop 2, rfl, ?_, by decide +kernel⟩
    rcases hresult : ((pairWorld.after (pairSession.take 1)).attempt (fun _ => none)
        (keepArchive "app" "own" ⟨#[1, 2]⟩)).1 with e | path' <;> rw [hresult] at hpath
    · cases hpath
    · exact congrArg _ (Option.some.inj hpath)
  have hbroken : (pairWorld.after pairSession).broken = [] := by decide +kernel
  have hworks (call : RunCall) : call ∉ (pairWorld.after pairSession).broken := by simp [hbroken]
  exact ⟨hkept, r, hreachable, hr, hnetapp, htoken,
    archives_are_handed_out hreachable (hworks _) (hworks _) hr htoken⟩

end HandsOut
end PipelineManager
