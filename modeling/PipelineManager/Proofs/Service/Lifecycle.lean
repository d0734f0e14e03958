import PipelineManager.Proofs.Pipeline.StageReports
import PipelineManager.Proofs.Service.Reports

/-!
# Lifecycles of runs

The script of a run has the pipeline report in each of its stages, and the manager records a report
only if its state is the next. The two fit: when the pipeline passes its stages in order, and each
posts the report of one of its outcomes, the log of the run becomes the complete lifecycle. A post
may be delivered more than once, since pipelines repeat what they are not sure has arrived. Between
two deliveries anything may happen but another report with the token of the run.
-/

namespace PipelineManager

/-! ## The stages of a script -/

/-- Whether a script is the built-in template, filled for a run, and posts in its stages what
`stages` tells. -/
def HasStages (s : ScriptSettings) (runId : Int) (script : String)
    (stages : List StageReports) : Prop :=
  ∃ blocks outs,
    List.Forall₂ (Template.LineFilled blocks (scriptValues s runId))
      (Text.splitLines Template.builtinText.toList) outs ∧
    script = String.ofList outs.flatten ∧
    stagesOf (Template.readings stageMark? (Text.splitLines Template.builtinText.toList) outs) =
      stages

/-- A rendered script has the stages of the built-in template. -/
theorem IsScriptOf.hasStages {s : ScriptSettings} {runId : Int} {script : String}
    (h : IsScriptOf s runId script) :
    HasStages s runId script builtinStages := by
  obtain ⟨blocks, outs, houts, hscript, -⟩ := h
  exact ⟨blocks, outs, houts, hscript, Template.stagesOf_builtin houts⟩

/-- What a post reports. -/
def StatusPost.mark (post : StatusPost) : RunState × Bool := (post.state, post.success)

/-- The marks of posts are of their states. -/
theorem map_mark_fst (posts : List StatusPost) :
    (posts.map (·.mark)).map (·.1) = posts.map (·.state) := by
  rw [List.map_map]
  rfl

/-- Whether posts are made on a passage through stages: one in each stage, of those that
the stage has. -/
def IsPassage (stages : List StageReports) (posts : List StatusPost) : Prop :=
  List.Forall₂ (fun post stage => post ∈ stage.posts) posts stages

instance (stages : List StageReports) (posts : List StatusPost) :
    Decidable (IsPassage stages posts) := by
  unfold IsPassage
  infer_instance

/-- On a passage, each stage reports its state, if it has only one. -/
theorem IsPassage.map_state {stages : List StageReports} {posts : List StatusPost}
    {states : List RunState} (h : IsPassage stages posts)
    (hstates : List.Forall₂
      (fun (stage : StageReports) state => ∀ post ∈ stage.posts, post.state = state)
      stages states) :
    posts.map (·.state) = states := by
  induction hstates generalizing posts with
  | nil =>
    cases h
    rfl
  | cons hstage _ ih =>
    cases h with
    | cons hpost hrest => rw [List.map_cons, hstage _ hpost, ih hrest]

/-- A passage through the built-in stages reports the states behind those of a submission, in
their order. -/
theorem IsPassage.states {posts : List StatusPost} (h : IsPassage builtinStages posts) :
    posts.map (·.state) = RunState.all.drop 5 := h.map_state (by decide)

/-- A passage has posts on states that agents report. -/
theorem IsPassage.isAgentReported {posts : List StatusPost} (h : IsPassage builtinStages posts) :
    ∀ post ∈ posts, post.state.isAgentReported := by
  have hall : ∀ state ∈ RunState.all.drop 5, state.isAgentReported := by decide
  rw [← h.states] at hall
  exact List.forall_mem_map.mp hall

/-- What a passage reports moves forward from the stages of a submission on. -/
theorem IsPassage.forward {posts : List StatusPost} (h : IsPassage builtinStages posts) :
    (reached 5 ++ posts.map (·.mark)).Pairwise fun a b => a.1.ordinal < b.1.ordinal := by
  have hstates : ((reached 5 ++ posts.map (·.mark)).map (·.1)).Pairwise
      fun a b => a.ordinal < b.ordinal := by
    rw [List.map_append, map_mark_fst, h.states]
    decide
  rwa [List.pairwise_map] at hstates

/-! ## Deliveries -/

/-- A post that was delivered, with the answer to it. -/
structure Delivery where
  post : StatusPost
  answer : Except ServiceError StatusEntry

/-- Whether a post was answered by the entry of its run that tells what it reports. -/
def Delivery.IsAccepted (runId : Int) (x : Delivery) : Prop :=
  ∃ entry, x.answer = .ok entry ∧ entry.runId = runId ∧ entry.state = x.post.state ∧
    entry.success = x.post.success

namespace World

variable {w w' w'' : World} {runId : Int} {token : String} {post : StatusPost}
  {posts : List StatusPost}
  {deliveries : List Delivery} {marks : List (RunState × Bool)}

/-- A post is delivered with a token when some events have passed that are no reports with it. The
run can be looked up then. -/
def Delivers (w : World) (runId : Int) (token : String) (x : Delivery) (w' : World) : Prop :=
  ∃ events, (∀ e ∈ events, ¬ e.ReportsOn runId token) ∧ RunCall.getRun ∉ (w.after events).broken ∧
    (w.after events).carryOut (Manager.recordStatus runId token x.post.state x.post.success).run =
      (x.answer, w')

/-- Posts are delivered in order, each of them at least once and any number of times in a row. -/
inductive Passes (runId : Int) (token : String) :
    World → List StatusPost → List Delivery → World → Prop
  | nil {w : World} : Passes runId token w [] [] w
  | next {w w' w'' : World} {x : Delivery} {posts : List StatusPost} {deliveries : List Delivery}
      (hx : w.Delivers runId token x w') (h : Passes runId token w' posts deliveries w'') :
      Passes runId token w (x.post :: posts) (x :: deliveries) w''
  | again {w w' w'' : World} {x : Delivery} {posts : List StatusPost} {deliveries : List Delivery}
      (hx : w.Delivers runId token x w')
      (h : Passes runId token w' (x.post :: posts) deliveries w'') :
      Passes runId token w (x.post :: posts) (x :: deliveries) w''

/-- A post is accepted when it is the next, and once more when it was delivered before. -/
theorem Delivers.isAccepted {x : Delivery} (hx : w.Delivers runId token x w')
    (hagent : x.post.state.isAgentReported) (hnext : IsNext x.post.state marks)
    (h : w.HasReports runId token marks ∨ w.HasReports runId token (marks ++ [x.post.mark])) :
    x.IsAccepted runId ∧ w'.HasReports runId token (marks ++ [x.post.mark]) := by
  obtain ⟨events, hquiet, hworks, hdelivered⟩ := hx
  have haccepted {entry : StatusEntry} {w₁ : World} (hanswer : (x.answer, w') = (.ok entry, w₁))
      (hmark : entry.mark = (runId, x.post.mark)) : x.IsAccepted runId :=
    ⟨entry, congrArg Prod.fst hanswer, congrArg (·.1) hmark, congrArg (·.2.1) hmark,
      congrArg (·.2.2) hmark⟩
  rcases h with h | h
  · obtain ⟨entry, w₁, hanswer, hmark, hreports⟩ :=
      (h.after hquiet).report hworks hagent hnext x.post.success
    rw [hdelivered] at hanswer
    obtain rfl : w' = w₁ := congrArg Prod.snd hanswer
    exact ⟨haccepted hanswer hmark, hreports⟩
  · obtain ⟨entry, hanswer, hmark⟩ := (h.after hquiet).report_again hworks hagent
    rw [hdelivered] at hanswer
    obtain rfl : w' = w.after events := congrArg Prod.snd hanswer
    exact ⟨haccepted hanswer hmark, h.after hquiet⟩

/-- All deliveries of posts that move forward are accepted, and the posts are recorded behind what
was reported before. The first of them may have been delivered already. -/
theorem Passes.isAccepted (hpasses : w.Passes runId token posts deliveries w')
    (hagent : ∀ post ∈ posts, post.state.isAgentReported)
    (hforward : (marks ++ posts.map (·.mark)).Pairwise fun a b => a.1.ordinal < b.1.ordinal)
    (h : w.HasReports runId token marks ∨
      ∃ post, posts.head? = some post ∧ w.HasReports runId token (marks ++ [post.mark])) :
    (∀ x ∈ deliveries, x.IsAccepted runId) ∧
      w'.HasReports runId token (marks ++ posts.map (·.mark)) := by
  induction hpasses generalizing marks with
  | @nil w =>
    have hreports : w.HasReports runId token marks := by simpa using h
    exact ⟨List.forall_mem_nil _, by simpa using hreports⟩
  | @next w w' w'' x posts deliveries hx hrest ih =>
    have hnext : IsNext x.post.state marks := isNext_of_pairwise hforward
    obtain ⟨hhere, hlater⟩ := List.forall_mem_cons.mp hagent
    obtain ⟨haccepted, hreports⟩ := hx.isAccepted hhere hnext (by simpa using h)
    have hsplit :
        marks ++ (x.post :: posts).map (·.mark) = marks ++ [x.post.mark] ++ posts.map (·.mark) := by
      simp
    rw [hsplit] at hforward ⊢
    obtain ⟨hall, hend⟩ := ih hlater hforward (.inl hreports)
    exact ⟨List.forall_mem_cons.mpr ⟨haccepted, hall⟩, hend⟩
  | @again w w' w'' x posts deliveries hx hrest ih =>
    -- The post stays the first of those to come, and is recorded from here on.
    have hnext : IsNext x.post.state marks := isNext_of_pairwise hforward
    have hhere : x.post.state.isAgentReported := hagent x.post (List.mem_cons_self ..)
    obtain ⟨haccepted, hreports⟩ := hx.isAccepted hhere hnext (by simpa using h)
    obtain ⟨hall, hend⟩ := ih hagent hforward (.inr ⟨x.post, rfl, hreports⟩)
    exact ⟨List.forall_mem_cons.mpr ⟨haccepted, hall⟩, hend⟩

/-! ## Passages -/

/-- What is around a world, when no calls on the store fail. -/
def restored (w : World) : Surroundings where
  agents := w.fleet.agents
  refusing := w.fleet.refusing
  buildNumber := w.fleet.buildNumber
  lastBuild := w.fleet.lastBuild
  log := w.fleet.log
  broken := []
  secrets := w.secrets
  now := w.now

/-- A post can be delivered, well or not. -/
theorem exists_delivers (w : World) (runId : Int) (token : String) (post : StatusPost) :
    ∃ x w', x.post = post ∧ w.Delivers runId token x w' := by
  have hquiet : ∀ e ∈ [Event.meanwhile w.restored], ¬ e.ReportsOn runId token :=
    List.forall_mem_singleton.mpr id
  have hworks : RunCall.getRun ∉ (w.after [.meanwhile w.restored]).broken := List.not_mem_nil
  let r := (w.after [.meanwhile w.restored]).carryOut
    (Manager.recordStatus runId token post.state post.success).run
  exact ⟨⟨post, r.1⟩, r.2, rfl, _, hquiet, hworks, rfl⟩

/-- Posts can be delivered as often as one likes. -/
theorem exists_passes (w : World) (runId : Int) (token : String) (times : List (StatusPost × Nat)) :
    ∃ deliveries w', w.Passes runId token (times.map (·.1)) deliveries w' ∧
      deliveries.map (·.post) = times.flatMap fun x => List.replicate (x.2 + 1) x.1 := by
  induction times generalizing w with
  | nil => exact ⟨[], w, .nil, rfl⟩
  | cons first rest ih =>
    obtain ⟨post, more⟩ := first
    induction more generalizing w with
    | zero =>
      obtain ⟨x, w', rfl, hx⟩ := w.exists_delivers runId token post
      obtain ⟨deliveries, w'', hpasses, hposts⟩ := ih w'
      exact ⟨x :: deliveries, w'', .next hx hpasses, by simp [hposts]⟩
    | succ more ihmore =>
      obtain ⟨x, w', rfl, hx⟩ := w.exists_delivers runId token post
      obtain ⟨deliveries, w'', hpasses, hposts⟩ := ihmore w'
      exact ⟨x :: deliveries, w'', .again hx hpasses, by simp [hposts, List.replicate_succ]⟩

end World

/-- Whether a log is the complete lifecycle of a run: all states in order, counted from 0 on, the
stages of the submission as successes and the others with the outcomes that were posted. -/
structure IsLifecycle (runId : Int) (posts : List StatusPost) (log : List StatusEntry) : Prop where
  run : ∀ entry ∈ log, entry.runId = runId
  seq : log.map (·.seq) = List.range 14
  state : log.map (·.state) = RunState.all
  success : log.map (·.success) = List.replicate 5 true ++ posts.map (·.success)

/-- The log of a run is complete when a passage was reported behind its submission. -/
theorem World.HasReports.exists_lifecycle {w : World} {runId : Int} {token : String}
    {posts : List StatusPost} (h : w.HasReports runId token (reached 5 ++ posts.map (·.mark)))
    (hstates : posts.map (·.state) = RunState.all.drop 5) :
    ∃ log, w.store.statusLog runId = .ok log ∧ IsLifecycle runId posts log := by
  obtain ⟨log, hlog, hseq, hmarks⟩ := h.exists_statusLog
  have hlength : posts.length = 9 := by simpa [RunState.all] using congrArg List.length hstates
  have hmark {β : Type} (f : Int × RunState × Bool → β) :
      log.map (fun entry => f entry.mark) = (reached 5 ++ posts.map (·.mark)).map
          fun mark => f (runId, mark) := by
    have hmapped := congrArg (List.map f) hmarks
    rwa [List.map_map, List.map_map] at hmapped
  refine ⟨log, hlog, ?_, ?_, ?_, ?_⟩
  · intro entry hentry
    have hmem : entry.mark ∈ (reached 5 ++ posts.map (·.mark)).map (runId, ·) := by
      rw [← hmarks]
      exact List.mem_map_of_mem hentry
    obtain ⟨mark, -, heq⟩ := List.mem_map.mp hmem
    exact (congrArg (·.1) heq).symm
  · rw [hseq, List.length_append, List.length_map, hlength]
    rfl
  · have hstate := hmark (·.2.1)
    rw [List.map_append, map_mark_fst, hstates] at hstate
    exact hstate
  · have hsuccess := hmark (·.2.2)
    rw [List.map_append, List.map_map] at hsuccess
    exact hsuccess

/-! ## Submitted runs -/

section Submissions

variable {m : Manager} {d : Descriptor} {w w' : World} {receipt : Receipt}
  {plan : Nat → Option Mishap}

/-- A submission that succeeds has reported its five stages. -/
theorem World.Reachable.hasReports (hw : w.Reachable)
    (h : w.attempt plan (m.submitDescriptor d) = (.ok receipt, w')) {token : String}
    (hgrants : w'.store.Grants receipt.runId token) :
    w'.HasReports receipt.runId token (reached 5) := by
  have hreachable := hw.submitted h
  obtain ⟨hreceipt, rfl⟩ := Prod.mk.inj h
  obtain ⟨run, hwell, hid, -⟩ := (m.ends_submission d hw.store.consistent).of_result hreceipt
  rw [hid] at hgrants ⊢
  refine ⟨hreachable, hgrants, _, ⟨?_, hwell.underway.increasing⟩,
    hwell.underway.records hw.store.consistent⟩
  simp [requestsOf, StatusRequest.mark, Function.comp_def]

/-- When a submission with the built-in template has succeeded, its script has the stages of the
template. However a pipeline passes them in order, and however often each post is delivered in a
row, every delivery is accepted, and the log of the run becomes the complete lifecycle with the
outcomes that were posted. -/
theorem Manager.lifecycle_completes (htemplate : Template.builtin = .ok m.template)
    (hw : w.Reachable) (h : w.attempt plan (m.submitDescriptor d) = (.ok receipt, w')) :
    ∃ agent token script, Provided m w receipt w' agent token script ∧
      HasStages m.settings receipt.runId script builtinStages ∧
      ∀ posts deliveries w'', IsPassage builtinStages posts →
        w'.Passes receipt.runId token posts deliveries w'' →
        (∀ x ∈ deliveries, x.IsAccepted receipt.runId) ∧
          ∃ log, w''.store.statusLog receipt.runId = .ok log ∧
          IsLifecycle receipt.runId posts log := by
  obtain ⟨run, agent, rows, script, hsubmitted⟩ := World.exists_submitted hw.store.consistent h
  have hprovided := hsubmitted.provided hw.store.consistent htemplate
  refine ⟨agent, _, script, hprovided, hprovided.script.hasStages,
    fun posts deliveries w'' hpassage hpasses => ?_⟩
  have hgrants : w'.store.Grants receipt.runId (w.secrets.communication run.id) := by
    obtain ⟨run', hrun', -, htoken⟩ := hprovided.stored
    exact ⟨run', hrun', htoken⟩
  have hreports := hw.hasReports h hgrants
  obtain ⟨haccepted, hend⟩ :=
    hpasses.isAccepted hpassage.isAgentReported hpassage.forward (.inl hreports)
  exact ⟨haccepted, hend.exists_lifecycle hpassage.states⟩

end Submissions

/-! ## A small passage -/

/-- A passage on which the tests cannot be performed, and all other stages succeed. -/
def failingPosts : List StatusPost :=
  Stage.all.map (fun stage =>
    let success := decide (stage.state ≠ .performedTests)
    ⟨some success, stage.state, success⟩) ++ [⟨none, .testEnded, true⟩]

/-- The pipeline of the small submission delivers every post of such a passage twice. -/
theorem Manager.lifecycle_completes_small :
    ∃ m receipt w' agent token script, Template.builtin = .ok m.template ∧ smallWorld.Reachable ∧
      smallWorld.attempt (fun _ => none) (m.submitDescriptor smallDescriptor) = (.ok receipt, w') ∧
      Provided m smallWorld receipt w' agent token script ∧
      ∃ deliveries w'', IsPassage builtinStages failingPosts ∧
        w'.Passes receipt.runId token failingPosts deliveries w'' ∧
        deliveries.map (·.post) = failingPosts.flatMap (List.replicate 2) ∧
        (∀ x ∈ deliveries, x.IsAccepted receipt.runId) ∧
        ∃ log, w''.store.statusLog receipt.runId = .ok log ∧
        IsLifecycle receipt.runId failingPosts log := by
  obtain ⟨template, htemplate⟩ := Template.exists_builtin
  let m : Manager := { smallManager with template }
  obtain ⟨script, hscript⟩ := exists_smallScript (m := m) htemplate
  obtain ⟨receipt, hreceipt⟩ := exists_small_receipt hscript
  have hreachable : smallWorld.Reachable := .start smallWorld_reachable rfl rfl rfl rfl
  have hattempt :
      smallWorld.attempt (fun _ => none) (m.submitDescriptor smallDescriptor) = (.ok receipt, _) :=
    Prod.ext hreceipt rfl
  obtain ⟨agent, token, script, hprovided, -, hcompletes⟩ :=
    lifecycle_completes htemplate hreachable hattempt
  have hpassage : IsPassage builtinStages failingPosts := by decide
  obtain ⟨deliveries, w'', hpasses, hposts⟩ :=
    World.exists_passes _ receipt.runId token (failingPosts.map fun post => (post, 1))
  rw [List.map_map, Function.comp_def, List.map_id'] at hpasses
  rw [List.flatMap_map] at hposts
  exact ⟨m, receipt, _, agent, token, script, htemplate, hreachable, hattempt, hprovided,
    deliveries, w'', hpassage,
    hpasses, hposts, hcompletes failingPosts deliveries w'' hpassage hpasses⟩

end PipelineManager
