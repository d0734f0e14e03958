import PipelineManager.Http.Route
import PipelineManager.Proofs.Service.SideBySide

/-!
# Answers without secrets

A response of the programming interface depends on the secrets of the manager in one way only:
whether the token that comes with the request is right. The submitter of a descriptor is given a
token besides, which was made for the new run.
-/

namespace PipelineManager

namespace Http

/-! ## Tokens that come with requests -/

/-- A token that comes with a request, for what it is taken, and the run that it is for. -/
inductive Presented where
  | communication (runId : Int) (token : String)
  | access (runId : Int) (token : String)

/-- The token in the record of a callback, which starts with the token and the run. -/
def recordToken? (type : RecordType) (r : Request) : Option Presented :=
  match recordOf type r with
  | .ok (.str token :: .int runId :: _) => some (.communication runId token)
  | _ => none

/-- The token in the query for a report. -/
def queryToken? (r : Request) : Option Presented :=
  match queryFields? ["test_id", "access_token"] r.query with
  | some [id, token] => (Decimal.readInteger? id).map fun runId => .access runId token
  | _ => none

/-- The token that comes with a request to a route. The method is not `HEAD`. -/
def Route.presented? (method : String) (r : Request) : Route → Option Presented
  | .testStatus => if method = "POST" then recordToken? statusRecord r else none
  | .testReport => if method = "GET" then queryToken? r else none
  | .publishResults => if method = "POST" then recordToken? publishRecord r else none
  | .downloadArchive => if method = "GET" then recordToken? downloadRecord r else none
  | .health | .newTest | .testsPerTestbed | .uploadArchive _ _ => none

/-- The method that a request is answered by. -/
def Request.verb (r : Request) : String := if r.method = "HEAD" then "GET" else r.method

/-- The token that comes with a request. -/
def Request.presented? (r : Request) : Option Presented :=
  (Route.ofPath? r.path).bind fun route => route.presented? r.verb r

/-- Whether a request submits a descriptor. -/
def Request.IsSubmission (r : Request) : Prop :=
  Route.ofPath? r.path = some .newTest ∧ r.verb = "POST"

end Http

open Http

/-- Whether a token is right. -/
def Store.Accepts (s : Store) : Presented → Prop
  | .communication runId token => s.Grants runId token
  | .access runId token => s.GrantsReport runId token

/-- Whether the token that comes with a request is right in two worlds or wrong in both, and the
token that a submission is given is the same. -/
structure Http.Request.MetAlike (r : Request) (w w' : World) : Prop where
  presented : ∀ x, r.presented? = some x → (w.store.Accepts x ↔ w'.store.Accepts x)
  handedOut : r.IsSubmission → w.MakesSameToken w'

/-! ## Responses side by side -/

namespace Program

/-- Whether two programs that are carried out side by side give the same response. -/
def RespondAlike (plan : Nat → Option Mishap) (p q : Program Response) (s t : Trial) : Prop :=
  (p.run (Trial.answer plan) s).1 = (q.run (Trial.answer plan) t).1 ∧
    (p.run (Trial.answer plan) s).2.Alike (q.run (Trial.answer plan) t).2

variable {plan : Nat → Option Mishap} {s t : Trial}

/-- An answer that is given at once is the same in all worlds. -/
theorem respondAlike_done (h : s.Alike t) (x : Response) :
    RespondAlike plan (done x) (done x) s t := ⟨rfl, h⟩

/-- Programs respond alike if their answers are changed in one way. -/
theorem RespondAlike.map {p q : Program Response} (h : RespondAlike plan p q s t)
    (f : Response → Response) :
    RespondAlike plan (p.bind fun x => done (f x)) (q.bind fun x => done (f x)) s t := by
  rw [RespondAlike, run_bind, run_bind]
  exact ⟨congrArg f h.1, h.2⟩

/-- A choice responds alike if both of its branches do. -/
theorem respondAlike_ite {c : Prop} [Decidable c] {p q : Program Response}
    (hp : c → RespondAlike plan p p s t) (hq : ¬ c → RespondAlike plan q q s t) :
    RespondAlike plan (if c then p else q) (if c then p else q) s t := by
  by_cases hc : c
  · rw [if_pos hc]
    exact hp hc
  · rw [if_neg hc]
    exact hq hc

/-- A service responds with its result or with the answer to its error. -/
theorem run_respond {α σ : Type} (p : Service α) (out : α → Response)
    (answer : (c : Call) → σ → c.Answer × σ) (s : σ) :
    (p.respond out).run answer s =
      (match (Service.exec answer p s).1 with
        | .ok a => out a
        | .error e => e.response, (Service.exec answer p s).2) := by
  have hbind : (p.respond out).run answer s = Program.run answer (Program.bind p.run fun
      | .ok a => done (out a)
      | .error e => done e.response) s := rfl
  rw [hbind, run_bind]
  unfold Service.exec
  rcases Program.run answer p.run s with ⟨e | a, s'⟩ <;> rfl

/-- Services that agree respond alike, if nothing that their results differ in is shown. -/
theorem respondAlike_of_agree {α β : Type} {R : α → β → Prop} {p : Service α} {q : Service β}
    (h : Service.Agree plan R p q s t) {out : α → Response} {out' : β → Response}
    (hout : ∀ a b, R a b → out a = out' b) :
    RespondAlike plan (p.respond out) (q.respond out') s t := by
  obtain ⟨hresult, hafter⟩ := h
  rw [RespondAlike, run_respond, run_respond]
  refine ⟨?_, hafter⟩
  generalize (Service.exec (Trial.answer plan) p s).1 = x at hresult ⊢
  generalize (Service.exec (Trial.answer plan) q t).1 = y at hresult ⊢
  cases hresult with
  | ok hab => exact hout _ _ hab
  | error e => rfl

end Program

/-- A report shows the run without its tokens. -/
theorem RunReport.SameButTokens.toValue_eq {x x' : RunReport} (h : x.SameButTokens x') :
    x.toValue = x'.toValue := by
  obtain ⟨hrun, hstatus, htests⟩ := h
  have hvalue (r : Run) : r.masked.toValue = r.toValue := rfl
  rw [toValue, toValue, ← hvalue x.run, hrun, hvalue, hstatus, htests]

open Program

section Routes

variable {plan : Nat → Option Mishap} {s t : Trial} (h : s.Alike t)
include h

/-- Submissions are answered alike where the same token is made. -/
theorem respondAlike_postDescriptor (m : Manager) (r : Request)
    (htoken : s.world.MakesSameToken t.world) :
    RespondAlike plan (m.postDescriptor r) (m.postDescriptor r) s t := by
  unfold Manager.postDescriptor
  split
  · exact respondAlike_done h _
  split
  · exact respondAlike_done h _
  · exact respondAlike_of_agree (agree_submitText h htoken m _) fun _ _ heq => by rw [heq]

/-- Questions for a status are answered alike. -/
theorem respondAlike_getStatus (r : Request) :
    RespondAlike plan (Manager.getStatus r) (Manager.getStatus r) s t := by
  unfold Manager.getStatus
  split
  · exact respondAlike_of_agree (agree_statusLog h _) fun _ _ heq => by rw [heq]
  · exact respondAlike_done h _

/-- Questions for tests are answered alike. -/
theorem respondAlike_getTests (r : Request) :
    RespondAlike plan (Manager.getTests r) (Manager.getTests r) s t := by
  unfold Manager.getTests
  split
  · exact respondAlike_of_agree (agree_testbedTests h _) fun _ _ heq => by rw [heq]
  · exact respondAlike_done h _

/-- Uploads of archives are answered alike. -/
theorem respondAlike_putArchive (netappId name : List Char) (r : Request) :
    RespondAlike plan (Manager.putArchive netappId name r) (Manager.putArchive netappId name r)
      s t := by
  unfold Manager.putArchive
  split
  · split
    · exact respondAlike_done h _
    split
    · exact respondAlike_done h _
    · exact respondAlike_of_agree (agree_keepArchive h _ _ _) fun _ _ heq => by rw [heq]
  · exact respondAlike_done h _

/-- Reports are answered alike where the same tokens are accepted. -/
theorem respondAlike_getReport (r : Request)
    (hpresented : ∀ x,
      queryToken? r = some x → (s.world.store.Accepts x ↔ t.world.store.Accepts x)) :
    RespondAlike plan (Manager.getReport r) (Manager.getReport r) s t := by
  unfold Manager.getReport
  split
  · next id token hquery =>
    split
    · next runId hid =>
      have htoken := hpresented (.access runId token) (by simp [queryToken?, hquery, hid])
      exact respondAlike_of_agree (agree_report h htoken) fun _ _ hsame => by rw [hsame.toValue_eq]
    · exact respondAlike_done h _
  · exact respondAlike_done h _

/-! ### Callbacks -/

/-- A callback whose token is right in both worlds or wrong in both is responded to alike. -/
theorem respondAlike_withToken {type : RecordType} {r : Request}
    {handle : List Value → Program Response}
    (hpresented : ∀ x,
      recordToken? type r = some x → (s.world.store.Accepts x ↔ t.world.store.Accepts x))
    (hhandle : ∀ vs,
      (∀ token runId rest,
        vs = .str token :: .int runId :: rest →
        (s.world.store.Grants runId token ↔ t.world.store.Grants runId token)) →
      RespondAlike plan (handle vs) (handle vs) s t) :
    RespondAlike plan (withRecord type r handle) (withRecord type r handle) s t := by
  unfold withRecord
  cases hrecord : recordOf type r with
  | error e => exact respondAlike_done h _
  | ok vs =>
    refine hhandle vs ?_
    rintro token runId rest rfl
    exact hpresented (.communication runId token) (by simp [recordToken?, hrecord])

/-- Status reports are answered alike where the same tokens are accepted. -/
theorem respondAlike_postStatus (r : Request)
    (hpresented : ∀ x,
      recordToken? statusRecord r = some x → (s.world.store.Accepts x ↔ t.world.store.Accepts x)) :
    RespondAlike plan (Manager.postStatus r) (Manager.postStatus r) s t := by
  refine respondAlike_withToken h hpresented fun vs htoken => ?_
  split
  · next token runId success name =>
    cases RunState.ofName? name with
    | none => exact respondAlike_done h _
    | some state =>
      exact respondAlike_of_agree (agree_recordStatus h state success (htoken _ _ _ rfl))
        fun _ _ heq => by rw [heq]
  · exact respondAlike_done h _

/-- Publications are answered alike where the same tokens are accepted. -/
theorem respondAlike_postResults (r : Request)
    (hpresented : ∀ x,
      recordToken? publishRecord r = some x → (s.world.store.Accepts x ↔ t.world.store.Accepts x)) :
    RespondAlike plan (Manager.postResults r) (Manager.postResults r) s t := by
  refine respondAlike_withToken h hpresented fun vs htoken => ?_
  split
  · exact respondAlike_of_agree (agree_publishResults h _ (htoken _ _ _ rfl)) fun _ _ heq => by
      rw [heq]
  · exact respondAlike_done h _

/-- Downloads of archives are answered alike where the same tokens are accepted. -/
theorem respondAlike_getArchive (r : Request)
    (hpresented : ∀ x,
      recordToken? downloadRecord r = some x →
      (s.world.store.Accepts x ↔ t.world.store.Accepts x)) :
    RespondAlike plan (Manager.getArchive r) (Manager.getArchive r) s t := by
  refine respondAlike_withToken h hpresented fun vs htoken => ?_
  split
  · exact respondAlike_of_agree (agree_developerArchive h _ (htoken _ _ _ rfl)) fun _ _ heq => by
      rw [heq]
  · exact respondAlike_done h _

/-! ### The whole interface -/

/-- Every route answers alike where the same tokens are accepted and made. -/
theorem respondAlike_respondAt (m : Manager) (now : Timestamp) (r : Request) (method : String)
    (route : Route)
    (hpresented : ∀ x,
      route.presented? method r = some x → (s.world.store.Accepts x ↔ t.world.store.Accepts x))
    (hhandedOut : route = .newTest → method = "POST" → s.world.MakesSameToken t.world) :
    RespondAlike plan (m.respondAt now r method route) (m.respondAt now r method route) s t := by
  have hrefused {c : Prop} (_ : ¬ c) :
      RespondAlike plan (done (.refusal 405)) (done (.refusal 405)) s t :=
    respondAlike_done h _
  cases route with
  | health => exact respondAlike_ite (fun _ => respondAlike_done h _) hrefused
  | newTest =>
    exact respondAlike_ite (fun hpost => respondAlike_postDescriptor h m r (hhandedOut rfl hpost))
      hrefused
  | testStatus =>
    refine respondAlike_ite (fun _ => respondAlike_getStatus h r) fun _ =>
      respondAlike_ite (fun hpost => ?_) hrefused
    refine respondAlike_postStatus h r fun x hx => hpresented x ?_
    rw [Route.presented?, if_pos hpost, hx]
  | testReport =>
    refine respondAlike_ite (fun hget => respondAlike_getReport h r fun x hx => hpresented x ?_)
      hrefused
    rw [Route.presented?, if_pos hget, hx]
  | publishResults =>
    refine respondAlike_ite (fun hpost => respondAlike_postResults h r fun x hx => hpresented x ?_)
      hrefused
    rw [Route.presented?, if_pos hpost, hx]
  | downloadArchive =>
    refine respondAlike_ite (fun hget => respondAlike_getArchive h r fun x hx => hpresented x ?_)
      hrefused
    rw [Route.presented?, if_pos hget, hx]
  | testsPerTestbed => exact respondAlike_ite (fun _ => respondAlike_getTests h r) hrefused
  | uploadArchive netappId name =>
    exact respondAlike_ite (fun _ => respondAlike_putArchive h netappId name r) hrefused

end Routes

/-- The response to a request, while calls go wrong by a plan, and the world after it. -/
def World.serve (w : World) (plan : Nat → Option Mishap) (m : Manager) (r : Request) :
    Response × World :=
  let x := (m.respond w.now r).run (Trial.answer plan) { world := w }
  (x.1, x.2.world)

/-- Worlds that are alike and meet a request alike give the same response, and are alike
afterwards. -/
theorem World.Alike.serve {w w' : World} (h : w.Alike w') {r : Request} (hr : r.MetAlike w w')
    (m : Manager) (plan : Nat → Option Mishap) :
    (w.serve plan m r).1 = (w'.serve plan m r).1 ∧
      (w.serve plan m r).2.Alike (w'.serve plan m r).2 := by
  have hstart : Trial.Alike { world := w } { world := w' } := ⟨h, rfl⟩
  have hresponse :
      RespondAlike plan (m.respond w'.now r) (m.respond w'.now r) { world := w }
          { world := w' } := by
    refine respondAlike_ite (fun _ => respondAlike_done hstart _) fun _ => ?_
    dsimp only
    cases hroute : Route.ofPath? r.path with
    | none => exact respondAlike_done hstart _
    | some route =>
      refine RespondAlike.map (respondAlike_respondAt hstart m w'.now r r.verb route ?_ ?_)
          fun response =>
        if r.method = "HEAD" then response.withoutContent else response
      · exact fun x hx => hr.presented x (by rw [Request.presented?, hroute]; exact hx)
      · rintro rfl hpost
        exact hr.handedOut ⟨hroute, hpost⟩
  rw [World.serve, World.serve, h.now]
  exact ⟨hresponse.1, hresponse.2.world⟩

end PipelineManager
