import PipelineManager.Proofs.CommandLine.Listings
import PipelineManager.Proofs.Http.Secrecy
import PipelineManager.Proofs.Service.Stages
import PipelineManager.Proofs.Text.Utf8

/-!
# Secrets

What the manager answers does not tell its secrets: the access tokens and communication tokens of
the runs and the passwords of the agents. Two worlds that differ in nothing else cannot be told
apart by requests, as long as no token comes with them that is right in one world only, nor by the
listings of the command line.
-/

namespace PipelineManager

open Http CommandLine

/-! ## Conversations -/

/-- The responses to requests one after the other, each with the plan by which calls go wrong, and
the world after them. -/
def World.converse (m : Manager) :
    World → List (Request × (Nat → Option Mishap)) → List Response × World
  | w, [] => ([], w)
  | w, (r, plan) :: rest =>
    let answered := w.serve plan m r
    let others := answered.2.converse m rest
    (answered.1 :: others.1, others.2)

/-- Whether two worlds meet each of some requests alike when its turn comes. -/
inductive World.ConverseAlike (m : Manager) :
    World → World → List (Request × (Nat → Option Mishap)) → Prop
  | nil {w w' : World} : ConverseAlike m w w' []
  | cons {w w' : World} {r : Request} {plan : Nat → Option Mishap}
      {rest : List (Request × (Nat → Option Mishap))}
      (hr : r.MetAlike w w')
      (hrest : ConverseAlike m (w.serve plan m r).2 (w'.serve plan m r).2 rest) :
      ConverseAlike m w w' ((r, plan) :: rest)

/-- No conversation tells worlds apart that are alike. -/
theorem World.Alike.converse {m : Manager} {w w' : World} (h : w.Alike w')
    {requests : List (Request × (Nat → Option Mishap))} (hmet : ConverseAlike m w w' requests) :
    (w.converse m requests).1 = (w'.converse m requests).1 ∧
      (w.converse m requests).2.Alike (w'.converse m requests).2 := by
  induction hmet with
  | nil => exact ⟨rfl, h⟩
  | @cons w w' r plan rest hr _ ih =>
    obtain ⟨hresponse, hafter⟩ := h.serve hr m plan
    obtain ⟨hresponses, hend⟩ := ih hafter
    exact ⟨congrArg₂ List.cons hresponse hresponses, hend⟩

/-! ## Requests and listings -/

/-- Worlds that differ in secrets at most give the same response to any request whose token is right
in both or wrong in both, and differ in secrets at most afterwards. Trees of files that differ in
the stores of these worlds give the same listings of agents, runs and states. -/
theorem Manager.secrets_reach_no_answer {w w' : World} (h : w.Alike w') :
    (∀ (m : Manager) (r : Request) (plan : Nat → Option Mishap), r.MetAlike w w' →
      (w.serve plan m r).1 = (w'.serve plan m r).1 ∧
        (w.serve plan m r).2.Alike (w'.serve plan m r).2) ∧
    ∀ t t' : FileTree, t.DiffersInStores w.store w'.store t' →
      ∀ (fromEnvironment : Option String) (args : List String) (i : Invocation),
        Invocation.read args = .ok i → i.command.IsListing →
        ((run FileTree.access fromEnvironment args).run t).1 =
          ((run FileTree.access fromEnvironment args).run t').1 :=
  ⟨fun m _ plan hr => h.serve hr m plan,
    fun _ _ ht fromEnvironment _ _ hargs hlisting =>
      run_listing_eq ht h.store fromEnvironment hargs hlisting⟩

/-! ### A password and a token that stay secret -/

/-- A world with an agent and a run on it. The password of the agent and the communication token of
the run are secrets. -/
def secretWorld (password token : String) : World where
  store := Store.after {} [
    .putTestbed ⟨"tb", "", ""⟩, .addAgent "tb" "http://agent" "user" password,
    .createRun ⟨"app", "net", "tb", "access"⟩ "now", .setRunAgent 1 1,
    .setCommunicationToken 1 token]
  warehouse := { root := "warehouse" }
  fleet := { agents := [⟨⟨1, "tb", "http://agent", "user", password⟩, some ⟨true, 0⟩⟩] }
  secrets := ⟨fun _ => "access", fun _ => token⟩
  now := "now"

/-- The worlds that differ in a password and a token are alike. -/
theorem alike_secretWorld (password token password' token' : String) :
    (secretWorld password token).Alike (secretWorld password' token') := rfl

/-- A request for the report of the run, with its access token. -/
def secretRequest : Request :=
  ⟨"GET", "/tests/test-report?test_id=1&access_token=access", none, ⟨#[]⟩⟩

/-- The request leads to the report on a test. -/
theorem ofPath?_secretRequest : Route.ofPath? secretRequest.path = some .testReport := by
  decide +kernel

/-- The request presents an access token. -/
theorem presented?_secretRequest : secretRequest.presented? = some (.access 1 "access") := by
  have hquery :
      queryFields? ["test_id", "access_token"] secretRequest.query = some ["1", "access"] := by
    decide +kernel
  have htoken : queryToken? secretRequest = some (.access 1 "access") := by
    rw [queryToken?, hquery]
    rfl
  rw [Request.presented?, ofPath?_secretRequest, Option.bind_some, Route.presented?, htoken]
  rfl

/-- The request meets both worlds alike. -/
theorem metAlike_secretRequest (password token password' token' : String) :
    secretRequest.MetAlike (secretWorld password token) (secretWorld password' token') where
  presented x hx := by
    have hgranted (password token : String) :
        (secretWorld password token).store.Accepts (.access 1 "access") :=
      ⟨_, rfl, rfl⟩
    obtain rfl := Option.some.inj (presented?_secretRequest.symm.trans hx)
    exact iff_of_true (hgranted password token) (hgranted password' token')
  handedOut h := by
    rw [Request.IsSubmission, ofPath?_secretRequest] at h
    cases h.1

/-- The text in which the store of the world is kept. -/
def secretText (password token : String) : String :=
  "\x7b\"agents\":[\x7b\"id\":1,\"password\":\"" ++ password ++
    "\",\"testbed_id\":\"tb\",\"url\":\"http://agent\"," ++
    "\"username\":\"user\"\x7d],\"run_tests\":[]," ++
    "\"runs\":[\x7b\"access_token\":\"access\",\"agent_id\":1,\"communication_token\":\"" ++
    token ++
    "\",\"created_at\":\"now\",\"id\":1,\"netapp_id\":\"app\",\"network_service_id\":\"net\"," ++
    "\"testbed_id\":\"tb\"\x7d],\"statuses\":[]," ++
    "\"testbeds\":[\x7b\"description\":\"\",\"id\":\"tb\",\"name\":\"\"\x7d],\"tests\":[]\x7d"

/-- The text of a store with secrets is that of the store of its world. -/
theorem isText_secretText :
    (secretWorld "first" "one").store.IsText (secretText "first" "one") ∧
      (secretWorld "second" "two").store.IsText (secretText "second" "two") := by
  have htext {a b c d e f g p t : List Char} :
      (String.ofList a ++ String.ofList p ++ String.ofList b ++ String.ofList c ++
        String.ofList d ++ String.ofList t ++ String.ofList e ++ String.ofList f ++
        String.ofList g).toList = a ++ p ++ b ++ c ++ d ++ t ++ e ++ f ++ g := by
    simp only [String.toList_append, String.toList_ofList]
  have hfirst : (secretText "first" "one").toList = _ := htext
  have hsecond : (secretText "second" "two").toList = _ := htext
  rw [Store.IsText, Store.IsText, Json.read?, Json.read?, hfirst, hsecond]
  decide +kernel

/-- A tree of files that keeps the text where it is kept when there is no configuration. -/
def secretTree (password token : String) : FileTree where
  directories := [[], ["data"]]
  files := [(["data", "cicd-manager.db"], (secretText password token).toUTF8)]

/-- The two trees differ in the text of the store alone. -/
theorem differsInStores_secretTree :
    (secretTree "first" "one").DiffersInStores (secretWorld "first" "one").store
      (secretWorld "second" "two").store
      (secretTree "second" "two") where
  directories := rfl
  files names := by
    have hkeeps {password token : String}
        (h : (secretWorld password token).store.IsText (secretText password token)) :
        (secretTree password token).Keeps (secretWorld password token).store
            ["data", "cicd-manager.db"] :=
      ⟨secretText password token, Text.Utf8.strict?_toUTF8 (secretText password token), h⟩
    by_cases hnames : names = ["data", "cicd-manager.db"]
    · subst hnames
      exact .inr ⟨hkeeps isText_secretText.1, hkeeps isText_secretText.2⟩
    · have hnone (password token : String) : (secretTree password token).file? names = none := by
        simp [FileTree.file?, secretTree, Ne.symm hnames]
      exact .inl (by rw [hnone, hnone])

/-- Two worlds with different secrets answer a request and a listing alike. -/
theorem Manager.secrets_reach_no_answer_small :
    (secretWorld "first" "one").Alike (secretWorld "second" "two") ∧
      secretRequest.MetAlike (secretWorld "first" "one") (secretWorld "second" "two") ∧
      ((secretWorld "first" "one").serve (fun _ => none) smallManager secretRequest).1 =
        ((secretWorld "second" "two").serve (fun _ => none) smallManager secretRequest).1 ∧
      (secretTree "first" "one").DiffersInStores (secretWorld "first" "one").store
        (secretWorld "second" "two").store
        (secretTree "second" "two") ∧
      Invocation.read ["agents", "list", "--testbed", "tb"] = .ok ⟨none, .listAgents "tb"⟩ ∧
      (Command.listAgents "tb").IsListing ∧
      ((run FileTree.access none ["agents", "list", "--testbed", "tb"]).run
        (secretTree "first" "one")).1 =
        ((run FileTree.access none ["agents", "list", "--testbed", "tb"]).run
          (secretTree "second" "two")).1 := by
  have halike := alike_secretWorld "first" "one" "second" "two"
  have hmet := metAlike_secretRequest "first" "one" "second" "two"
  have hread :
      Invocation.read ["agents", "list", "--testbed", "tb"] = .ok ⟨none, .listAgents "tb"⟩ := by
    decide +kernel
  obtain ⟨hresponses, hlistings⟩ := secrets_reach_no_answer halike
  exact ⟨halike, hmet, (hresponses smallManager secretRequest _ hmet).1, differsInStores_secretTree,
    hread, trivial, hlistings _ _ differsInStores_secretTree none _ _ hread trivial⟩

end PipelineManager
