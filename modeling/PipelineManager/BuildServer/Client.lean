import PipelineManager.Agent.Basic
import PipelineManager.Agent.Job
import PipelineManager.BuildServer.Answer
import PipelineManager.Document.Json.Writer

/-!
# Clients of a build server

A client has to `connect` before anything else: the server confirms its credentials. Operations
that change the server's state carry a crumb, unless the server has none to give. Credentials are
written with a token that is made for it and revoked afterwards, whatever came of the writing.
-/

namespace PipelineManager.BuildServer

/-- A client of the server at an address. The user is known once the client is connected. -/
structure Client where
  address : String
  username : String
  password : String
  user : Option String := none
deriving DecidableEq, Repr, Inhabited

/-- A dialogue that may fail. -/
abbrev Talk (α : Type) := ExceptT Fault Dialogue α

/-- The outcome of a talk, from which the dialogue goes on. -/
def attempt {α : Type} (t : Talk α) : Talk (Except Fault α) := ExceptT.lift t.run

/-- Goes on with the outcome of an earlier talk. -/
def conclude {α : Type} (outcome : Except Fault α) : Talk α := ExceptT.mk (pure outcome)

namespace Client

/-- The client of an agent. -/
def ofAgent (a : Agent) : Client where
  address := Text.dropEndSlashes a.url
  username := a.username
  password := a.password

/-- Whether the client is connected. -/
def isConnected (c : Client) : Bool := c.user.isSome

/-- Refuses to go on without a connection. -/
def requireConnection (c : Client) : Talk Unit :=
  if c.isConnected then pure () else throw .notConnected

/-! ## Requests -/

/-- The address of a path on the server. -/
def page (c : Client) (path : String) : Address := Address.read (c.address ++ path)

/-- Refuses to make addresses below one that has no host. -/
def requireHost (c : Client) : Talk Unit :=
  if (Address.read c.address).hasHost then pure ()
  else throw (.answer .buildUrl (.noHost c.address))

/-- The address of a job, or of a part of it. -/
def jobAddress (c : Client) (name : String) (rest : List String) : Address :=
  (Address.read c.address).child ("job" :: name :: rest)

/-- The address of an action on a credential. -/
def credentialAddress (c : Client) (name action : String) : Address :=
  (Address.read c.address).child
    ["credentials", "store", "system", "domain", "_", "credential", name, action]

/-- A request to read. -/
def get (c : Client) (address : Address) : Request where
  method := .get
  address := address
  username := c.username
  password := c.password

/-- A request to change something. -/
def post (c : Client) (crumb : Option Crumb) (address : Address) (headers : List (String × String))
    (body : String) : Request where
  method := .post
  address := address
  username := c.username
  password := c.password
  headers := crumb.toList.map Crumb.header ++ headers
  body := body

/-- The header of a body of a type. -/
def contentType (type : String) : String × String := ("content-type", type)

/-- A request to change something by a form. -/
def postForm (c : Client) (crumb : Option Crumb) (address : Address)
    (pairs : List (String × String)) : Request :=
  c.post crumb address [contentType "application/x-www-form-urlencoded"] (form pairs)

/-- The body of the answer to a request. Only a status of success is accepted. -/
def exchange (o : Operation) (r : Request) : Talk (Option ByteArray) := do
  match ← ExceptT.lift (Dialogue.request r) with
  | .answered status _ body => if isSuccess status then return body else throw (.status o status)
  | _ => throw (.noAnswer o)

/-- The document in a body, which must be whole. -/
def document {α : Type} (o : Operation) (d : Document α) (body : Option ByteArray) : Talk α :=
  match body.bind d.read? with
  | some a => return a
  | none => throw (.answer o .unreadable)

/-- The document that a request is answered with. -/
def ask {α : Type} (o : Operation) (d : Document α) (r : Request) : Talk α := do
  document o d (← exchange o r)

/-! ## Operations -/

/-- Confirms the credentials. The connected client knows its user. -/
def connect (c : Client) : Talk Client := do
  let user ← ask .whoAmI userDocument (c.get (c.page "/me/api/json"))
  return { c with user := some user }

/-- How many builds are in progress. -/
def runningBuilds (c : Client) : Talk Nat := do
  c.requireConnection
  let colours ← ask .listJobs jobsDocument (c.get (c.page "/api/json?tree=jobs[color]"))
  return (colours.filter isInProgress).length

/-- The crumb for changes. A server without the page for it needs none. -/
def crumb (c : Client) : Talk (Option Crumb) := do
  match ← ExceptT.lift (Dialogue.request (c.get (c.page "/crumbIssuer/api/json"))) with
  | .answered status _ body =>
    if status = 404 then return none
    else if isSuccess status then return some (← document .crumb crumbDocument body)
    else throw (.status .crumb status)
  | _ => throw (.noAnswer .crumb)

/-- Creates a job with a definition. -/
def createJob (c : Client) (name definition : String) : Talk Unit := do
  c.requireConnection
  let crumb ← c.crumb
  let address := (c.page "/createItem").withForm [("name", name)]
  let _ ← exchange .createJob (c.post crumb address [contentType "application/xml"] definition)

/-- Creates the job of a run that carries out a script. -/
def submitJob (c : Client) (name script : String) : Talk Unit :=
  c.createJob name (Job.definition ("CI/CD manager test run " ++ name) script)

/-- The numbers of the builds of a job. -/
def buildNumbers (c : Client) (name : String) : Talk BuildNumbers := do
  c.requireHost
  ask .jobInfo buildsDocument
    (c.get ((c.jobAddress name ["api", "json"]).withForm
      [("tree", "nextBuildNumber,lastBuild[number]")]))

/-- The number that the next build of a job will get. -/
def nextBuildNumber (c : Client) (name : String) : Talk Nat := do
  c.requireConnection
  match (← c.buildNumbers name).next with
  | some n => return n
  | none => throw (.answer .jobInfo .noNextBuild)

/-- The number of the last build of a job. -/
def lastBuildNumber (c : Client) (name : String) : Talk Nat := do
  c.requireConnection
  match (← c.buildNumbers name).last with
  | some n => return n
  | none => throw (.answer .jobInfo (.noBuilds name))

/-- Queues a build of a job, and tells the number that it will get. -/
def buildJob (c : Client) (name : String) : Talk Nat := do
  let number ← c.nextBuildNumber name
  let crumb ← c.crumb
  let _ ← exchange .buildJob (c.post crumb (c.jobAddress name ["build"]) [] "")
  return number

/-- The log of a build. -/
def consoleText (c : Client) (name : String) (build : Nat) : Talk String := do
  c.requireConnection
  c.requireHost
  match ← exchange .consoleText (c.get (c.jobAddress name [Nat.repr build, "consoleText"])) with
  | some body => return Text.Utf8.lossy body.toList
  | none => throw (.answer .consoleText .unreadable)

/-! ## Credentials -/

/-- The actions on the tokens of the user. -/
def tokenPage : String := "/me/descriptorByName/jenkins.security.ApiTokenProperty/"

/-- Makes a token. -/
def generateToken (c : Client) (crumb : Option Crumb) : Talk ApiToken :=
  ask .generateToken tokenDocument
    (c.postForm crumb (c.page (tokenPage ++ "generateNewToken"))
      [("newTokenName", "communicationToken")])

/-- The client with a token instead of the password. -/
def withToken (c : Client) (t : ApiToken) : Client := { c with password := t.value }

/-- Deletes a credential. There may be none. -/
def deleteCredential (c : Client) (crumb : Option Crumb) (name : String) : Talk Unit := do
  c.requireHost
  let address := c.credentialAddress name "doDelete"
  match ← ExceptT.lift (Dialogue.request (c.post crumb address [] "")) with
  | .answered status _ _ =>
    if isSuccess status || status = 404 then return () else throw (.status .deleteCredential status)
  | _ => throw (.noAnswer .deleteCredential)

/-- The document that describes a secret text. -/
def secretText (name value description : String) : Value :=
  .dict [
    ("", .str "0"),
    ("credentials", .dict [
      ("$class", .str "org.jenkinsci.plugins.plaincredentials.impl.StringCredentialsImpl"),
      ("description", .str description),
      ("id", .str name),
      ("scope", .str "GLOBAL"),
      ("secret", .str value)])]

/-- Stores a credential that is not there yet. -/
def storeCredential (c : Client) (crumb : Option Crumb) (name value description : String) :
    Talk Unit := do
  let address := c.page "/credentials/store/system/domain/_/createCredentials"
  let _ ← exchange .createCredential
    (c.postForm crumb address [("json", Json.text (secretText name value description))])

/-- Puts a credential in the place of one with its name. -/
def replaceCredential (c : Client) (crumb : Option Crumb) (name value description : String) :
    Talk Unit := do
  c.deleteCredential crumb name
  c.storeCredential crumb name value description

/-- Revokes a token. -/
def revokeToken (c : Client) (crumb : Option Crumb) (t : ApiToken) : Talk Unit := do
  let _ ← exchange .revokeToken
    (c.postForm crumb (c.page (tokenPage ++ "revoke")) [("tokenUuid", t.uuid)])

/-- Replaces a credential with the help of a token. A failure to write it counts more than a
failure to revoke the token. -/
def createCredential (c : Client) (name value description : String) : Talk Unit := do
  c.requireConnection
  let crumb ← c.crumb
  let token ← c.generateToken crumb
  let written ← attempt ((c.withToken token).replaceCredential crumb name value description)
  let revoked ← attempt (c.revokeToken crumb token)
  conclude written
  conclude revoked

end Client

/-! ## Agents as build servers -/

/-- A talk with the server of an agent, by a client that connects for it. -/
def withAgent {α : Type} (a : Agent) (talk : Client → Talk α) : Talk α := do
  talk (← (Client.ofAgent a).connect)

/-- The answer to the probe of an agent. One that fails in any way is not reachable. -/
def probe (a : Agent) : Dialogue Probe := do
  match ← (withAgent a Client.runningBuilds).run with
  | .ok active => return ⟨true, active⟩
  | .error _ => return .unreachable

end PipelineManager.BuildServer
