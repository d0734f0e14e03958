import PipelineManager.Proofs.Pipeline.BuiltinLines
import PipelineManager.Proofs.Service.Authorization
import PipelineManager.Proofs.Service.Submitted

/-!
# The tokens of runs

A submission makes a token for its run. The store keeps the token, the agent of the run gets it as a
credential that is named for the run, and the script has the pipeline read that credential in every
stage. No other run has a credential of that name, so the token stays the one that lets the run's
callbacks in, whatever else is submitted.
-/

namespace PipelineManager

/-! ## Names of distinct runs -/

/-- Whether no two runs share the name of a credential, or could share that of a job. -/
def Store.NamesApart (s : Store) : Prop :=
  s.runs.Pairwise fun r r' => tokenCredential r.id ≠ tokenCredential r'.id ∧
    ∀ info info', jobName info r.id ≠ jobName info' r'.id

/-- The runs of a consistent store have different token credentials. -/
theorem Store.Consistent.namesApart {s : Store} (h : s.Consistent) : s.NamesApart := by
  have hnodup : (s.runs.map (·.id)).Nodup := by
    rw [h.runIds]
    exact List.nodup_range.map fun i j hij => by
      have hsucc : (i : Int) + 1 = j + 1 := hij
      omega
  have hpositive : ∀ r ∈ s.runs, 0 ≤ r.id := by
    intro r hr
    have hid : r.id ∈ s.runs.map (·.id) := List.mem_map_of_mem hr
    rw [h.runIds] at hid
    obtain ⟨i, -, hi⟩ := List.mem_map.mp hid
    omega
  refine (List.pairwise_map.mp hnodup).imp_of_mem fun {r r'} hr hr' hne => ?_
  exact ⟨fun heq => hne (tokenCredential_injective heq),
    jobName_ne (hpositive r hr) (hpositive r' hr') hne⟩

/-! ## What a submission provides -/

/-- A script that is the built-in template, filled for a run. Between its slots it declares in every
stage the credential of the run as token and the run itself, and nothing besides. -/
def IsScriptOf (s : ScriptSettings) (runId : Int) (script : String) : Prop :=
  ∃ blocks outs,
    List.Forall₂ (Template.LineFilled blocks (scriptValues s runId))
      (Text.splitLines Template.builtinText.toList) outs ∧
    script = String.ofList outs.flatten ∧
    Template.declarations (Text.splitLines Template.builtinText.toList) outs =
      Template.pipelineDeclarations (tokenCredential runId) (Json.intText runId)

/-- A script rendered from the built-in template is one of its run. -/
theorem isScriptOf_of_renderScript {template : Template}
    (htemplate : Template.builtin = .ok template) {s : ScriptSettings} {r : ScriptRequest}
    {script : String} (h : renderScript template s r = .ok script) :
    IsScriptOf s r.runId script := by
  obtain ⟨obtained, performed, -, hfill⟩ := renderScript_eq_ok_iff.mp h
  obtain ⟨outs, houts, hscript⟩ := (Template.fill_eq_ok_iff htemplate).mp hfill
  exact ⟨_, outs, houts, hscript, Template.declarations_builtin houts⟩

/-- What a submission provided for its run: one token, for the store and for the agent that was
selected, and a script on that agent that names the token. -/
structure Provided (m : Manager) (w : World) (receipt : Receipt) (w' : World) (agent : Agent)
    (token script : String) : Prop where
  stored : ∃ run, w'.store.run? receipt.runId = some run ∧ run.agentId = some agent.id ∧
    run.communicationToken = some token
  credential : w'.fleet.credentials = w.fleet.credentials ++
    [⟨agent.id, tokenCredential receipt.runId, token, credentialDescription receipt.runId⟩]
  job : w'.fleet.jobs = w.fleet.jobs ++ [⟨agent.id, receipt.jobName, script⟩]
  script : IsScriptOf m.settings receipt.runId script

/-- A world in which a token is the token of a run: it is held by the one credential that is named
for the run, it alone lets callbacks of the run in, and no other run has such names. -/
structure World.HoldsToken (w : World) (runId : Int) (agent : Agent) (token : String) : Prop where
  credential : w.fleet.credentials.filter (fun c => c.name = tokenCredential runId) =
    [⟨agent.id, tokenCredential runId, token, credentialDescription runId⟩]
  authorizes : RunCall.getRun ∉ w.broken →
    ∀ other, (∃ r, (w.carryOut (Manager.authorizedRun runId other).run).1 = .ok r) ↔ other = token
  apart : w.store.NamesApart

section Submissions

variable {m : Manager} {d : Descriptor} {w w' : World} {receipt : Receipt} {run : Run}
  {agent : Agent}
  {rows : List RunTest} {script : String}

/-- A submitted run is provided with its token. -/
theorem Submitted.provided (h : Submitted m d w receipt w' run agent rows script)
    (hw : w.store.Consistent) (htemplate : Template.builtin = .ok m.template) :
    Provided m w receipt w' agent (w.secrets.communication run.id) script where
  stored := by
    rw [h.runId]
    exact ⟨run, h.run?_eq hw, h.agent, h.token⟩
  credential := by
    rw [h.runId]
    exact h.gained.credentials
  job := by
    rw [h.jobName]
    exact h.gained.jobs
  script := by
    rw [h.runId]
    exact isScriptOf_of_renderScript htemplate h.rendered

/-- Before a run is there, no credential has its name. -/
theorem Submitted.credentials_eq (h : Submitted m d w receipt w' run agent rows script)
    (hw : w.Reachable) :
    (w'.factsOf run.id).credentials =
      [runCredential agent run.id (w.secrets.communication run.id)] := by
  have hblank : w.fleet.credentials.filter (fun c => c.name = tokenCredential run.id) = [] :=
    congrArg RunFacts.credentials (h.factsOf_eq_blank hw)
  simp [World.factsOf, h.gained.credentials, hblank, runCredential]

/-- The facts of a run decide which token is its token. -/
theorem World.Reachable.holdsToken (hw : w.Reachable) {runId : Int} {token : String}
    (htoken : (w.factsOf runId).token = some (some token))
    (hcredentials : (w.factsOf runId).credentials = [runCredential agent runId token]) :
    w.HoldsToken runId agent token where
  credential := hcredentials
  authorizes hworks other := by
    obtain ⟨r, hr, hgranted⟩ := Option.map_eq_some_iff.mp htoken
    rw [World.authorizedRun_iff hworks]
    constructor
    · rintro ⟨r', hr', hother⟩
      obtain rfl := Option.some.inj (hr.symm.trans hr')
      exact Option.some.inj (hother.symm.trans hgranted)
    · rintro rfl
      exact ⟨r, hr, hgranted⟩
  apart := hw.store.consistent.namesApart

/-- A submission with the built-in template, at any point of a session, gives one token to the
store, to the agent that was selected and to the script. For the rest of the session that token is
the token of the run. -/
theorem Manager.runs_keep_their_tokens (htemplate : Template.builtin = .ok m.template)
    (hw : w.Reachable) {plan : Nat → Option Mishap}
    (h : w.attempt plan (m.submitDescriptor d) = (.ok receipt, w')) :
    ∃ agent token script, Provided m w receipt w' agent token script ∧
      ∀ events, (w'.after events).HoldsToken receipt.runId agent token := by
  obtain ⟨run, agent, rows, script, hsubmitted⟩ := World.exists_submitted hw.store.consistent h
  refine ⟨agent, _, script, hsubmitted.provided hw.store.consistent htemplate, fun events => ?_⟩
  have hw' := hw.submitted h
  have hrun := hsubmitted.run?_eq hw.store.consistent
  have hfacts : (w'.after events).factsOf run.id = w'.factsOf run.id :=
    hw'.factsOf_after (hrun ▸ rfl) events
  rw [hsubmitted.runId]
  refine (hw'.after events).holdsToken ?_ ?_
  · rw [hfacts, World.factsOf, hrun, Option.map_some, hsubmitted.token]
  · rw [hfacts, hsubmitted.credentials_eq hw]

end Submissions

/-! ## A small submission -/

/-- The request by which the script of the small submission is rendered. -/
def smallRequest (m : Manager) : ScriptRequest :=
  m.scriptRequest smallDescriptor (smallWorld.store.testsOf "tb") smallDescriptor.executedTests 1

/-- A script is rendered for the small submission. -/
theorem exists_smallScript {m : Manager} (htemplate : Template.builtin = .ok m.template) :
    ∃ script, renderScript m.template m.settings (smallRequest m) = .ok script := by
  refine exists_renderScript htemplate (List.forall_mem_singleton.mpr ⟨by decide, fun _ => ?_⟩)
  exact ⟨_, List.mem_singleton.mpr rfl, rfl, rfl⟩

/-- A script is prepared when the tests are registered and it is rendered. -/
theorem Manager.exec_prepareScript {σ : Type} {answer : (c : Call) → σ → c.Answer × σ} {m : Manager}
    {d : Descriptor} {tests : List ExecutedTest} {runId : Int} {s s' : σ} {script : String}
    (hregistered : Service.exec answer (registerTests d.info.netappId runId tests) s = (.ok (), s'))
    (hscript : renderScript m.template m.settings
      (m.scriptRequest d (answer (.tests d.info.testbedId) s').1 tests runId) = .ok script) :
    Service.exec answer (m.prepareScript d tests runId) s =
      (.ok script, (answer (.tests d.info.testbedId) s').2) := by
  rw [prepareScript, Service.exec_bind, hregistered]
  dsimp only
  rw [Service.exec_bind, Service.exec_ask]
  dsimp only
  rw [hscript]
  rfl

/-- The agent of the small world. -/
def smallAgent : Agent := ⟨1, "tb", "http://agent", "user", "password"⟩

/-- The run of the small submission. -/
def smallRun : Run := ⟨1, "app", "net", "tb", none, "access", none, none, none, none, none, "now"⟩

/-- The small world with this run. -/
def smallRunWorld : World :=
  (World.answer (.appendStatus 1 .submittedToManager true)
    (World.answer (.createRun ⟨"app", "net", "tb", "access"⟩) smallWorld).2).2

/-- The only agent is chosen. -/
theorem exec_chooseAgent_small :
    Service.exec World.answer (Manager.chooseAgent smallDescriptor.info 1) smallRunWorld =
      Service.exec World.answer (do
        stage 1 .authenticatedOnAgent
          ((← Service.ask (.setRunAgent 1 smallAgent.id)).mapError .storage)
        markStage 1 .authenticatedOnAgent
        return smallAgent) smallRunWorld := by
  have hselected : selectAgent [(smallAgent, some ⟨true, 0⟩)] = some (smallAgent, ⟨true, 0⟩) := by
    decide +kernel
  rw [Manager.chooseAgent, Service.exec_bind_of_ok (a := .ok [smallAgent]) rfl,
    Service.exec_bind_of_ok (a := [smallAgent]) rfl,
    Service.exec_bind_of_ok (a := [(smallAgent, some ⟨true, 0⟩)]) rfl, hselected]
  rfl

/-- The small submission succeeds if its script is rendered. -/
theorem Manager.exists_small_receipt {m : Manager} {script : String}
    (hscript : renderScript m.template m.settings (smallRequest m) = .ok script) :
    ∃ receipt, (smallWorld.attempt (fun _ => none) (m.submitDescriptor smallDescriptor)).1 =
      .ok receipt := by
  have hcheck : (Service.exec World.answer (m.check smallDescriptor) smallWorld).1 =
      .ok smallDescriptor.executedTests := rfl
  have hchosen :
    (Service.exec World.answer (Manager.chooseAgent smallDescriptor.info 1) smallRunWorld).1 =
      .ok smallAgent := by
    rw [exec_chooseAgent_small]
    rfl
  rw [World.attempt_undisturbed]
  show ∃ receipt,
    (Service.exec World.answer (m.submitDescriptor smallDescriptor) smallWorld).1 = .ok receipt
  rw [submitDescriptor, Service.exec_bind_of_ok hcheck, dispatch_eq,
    Service.exec_bind_of_ok (a := "access") rfl,
    Service.exec_bind_of_ok (a := .ok smallRun) rfl, Service.exec_bind_of_ok (a := smallRun) rfl,
    completeRun, Service.exec_bind_of_ok (a := ()) rfl]
  show ∃ receipt,
    (Service.exec World.answer (Manager.chooseAgent smallDescriptor.info 1 >>= _) smallRunWorld).1
      = _
  rw [Service.exec_bind_of_ok hchosen, exec_chooseAgent_small,
    Service.exec_bind_of_ok (a := ()) rfl, createScript,
    bind_assoc, Service.exec_bind, Service.exec_result, exec_prepareScript rfl hscript]
  exact ⟨⟨1, "tb", jobName smallDescriptor.info 1, 0, "access"⟩, rfl⟩

/-- There is a manager with the built-in template, and its first submission succeeds. -/
theorem Manager.runs_keep_their_tokens_small :
    ∃ m receipt w', Template.builtin = .ok m.template ∧ smallWorld.Reachable ∧
      smallWorld.attempt (fun _ => none) (m.submitDescriptor smallDescriptor) = (.ok receipt, w') ∧
      ∃ agent token script, Provided m smallWorld receipt w' agent token script ∧
        ∀ events, (w'.after events).HoldsToken receipt.runId agent token := by
  obtain ⟨template, htemplate⟩ := Template.exists_builtin
  let m : Manager := { smallManager with template }
  obtain ⟨script, hscript⟩ := exists_smallScript (m := m) htemplate
  obtain ⟨receipt, hreceipt⟩ := exists_small_receipt hscript
  have hreachable : smallWorld.Reachable := .start smallWorld_reachable rfl rfl rfl rfl
  have hattempt :
      smallWorld.attempt (fun _ => none) (m.submitDescriptor smallDescriptor) = (.ok receipt, _) :=
    Prod.ext hreceipt rfl
  exact ⟨m, receipt, _, htemplate, hreachable, hattempt,
    runs_keep_their_tokens htemplate hreachable hattempt⟩

end PipelineManager
