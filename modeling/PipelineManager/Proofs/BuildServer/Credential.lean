import Mathlib.Data.List.Basic
import PipelineManager.Proofs.BuildServer.Replacement

/-!
# Credentials written with a token

A credential is replaced with the help of a token that the server makes for it. Whatever the server
answers, wherever it redirects to, and whether it answers at all, the token is revoked by the last
request and by no other, nothing is written without a token, and the outcome tells of the first
step that failed, of the writing before the revocation.
-/

namespace PipelineManager.BuildServer

/-! ## Whatever the server answers -/

/-- Whether a request of some kind is sent in an exchange, on whichever hop. -/
def Exchange.Sends (x : Exchange) (P : Request → Prop) : Prop :=
  P x.request ∨ ∃ h ∈ x.hops, P h.request

/-- Whether a crumb is asked for first, and then a token, with the crumb that the server gives; if
it gives none that can be carried, nothing more is asked for. -/
def Client.AsksFirst (c : Client) (new : List Exchange) : Prop :=
  ∃ x rest, new = x :: rest ∧ c.AsksForCrumb x.request ∧
    (∀ crumb, x.reply.GivesCrumb crumb → CanCarry crumb →
      ∃ y later, rest = y :: later ∧ c.MakesToken y.request ∧ y.request.Carries crumb) ∧
    ((∀ crumb, x.reply.GivesCrumb crumb → ¬ CanCarry crumb) → rest = [])

/-- Whether a credential was written by some exchanges: the deletion was answered by success or
found nothing, and the creation by success. -/
def Client.Writes (c : Client) (name value description : String) (new : List Exchange) : Prop :=
  (∃ x ∈ new, c.Deletes name x.request ∧ x.reply.HasStatus isDeleted) ∧
    ∃ x ∈ new, c.Stores name value description x.request ∧ x.reply.HasStatus isSuccess

/-- Whether the writing of a credential failed first by something: there is no address for it, or
the deletion failed, or it was done and the creation failed. -/
def Client.FailsToWrite (c : Client) (name value description : String) (new : List Exchange)
    (e : Fault) : Prop :=
  (¬ c.HasHost ∧ e = c.addressFault) ∨
  (∃ x ∈ new, c.Deletes name x.request ∧
    x.reply.fault? .deleteCredential isDeleted = some e) ∨
  (∃ x ∈ new, c.Deletes name x.request ∧ x.reply.HasStatus isDeleted) ∧
    ∃ x ∈ new, c.Stores name value description x.request ∧
      x.reply.fault? .createCredential isSuccess = some e

/-- Whether a replacement cleans up behind itself and tells how it went. Nothing is sent without a
connection. With one, a crumb is asked for, and then a token, unless the server gives no crumb that
can be carried. A token that was obtained is revoked by the last request, and no other request
revokes one. Without a token nothing is written, and with one it is used for the writing. The
outcome is a success exactly if every step was one, and else the failure of the first step that was
none, where the deletion comes before the creation, and both before the revocation. -/
structure Client.CleansUp (c : Client) (name value description : String) (new : List Exchange)
    (outcome : Except Fault Unit) : Prop where
  conveyed : ∀ x ∈ new, x.IsConveyed
  offline : c.isConnected = false → new = [] ∧ outcome = .error .notConnected
  asks : c.isConnected = true → c.AsksFirst new
  revoked : ∀ t, (∃ x ∈ new, c.Obtains t x) → ∃ before last, new = before ++ [last] ∧
    c.Revokes t.uuid last.request ∧ ∀ x ∈ before, ∀ uuid, ¬ x.Sends (c.Revokes uuid)
  used : ∀ x ∈ new, (∃ name, x.Sends (c.Deletes name)) ∨
      (∃ name value description, x.Sends (c.Stores name value description)) →
    ∃ t, (∃ y ∈ new, c.Obtains t y) ∧ c.Uses t x.request
  unwritten : (∀ x ∈ new, ∀ t, ¬ c.Obtains t x) → (∃ e, outcome = .error e) ∧ ∀ x ∈ new,
    (∀ name, ¬ x.Sends (c.Deletes name)) ∧
      (∀ name value description, ¬ x.Sends (c.Stores name value description)) ∧
      ∀ uuid, ¬ x.Sends (c.Revokes uuid)
  succeeds : outcome = .ok () ↔ c.Writes name value description new ∧
    ∃ t, (∃ x ∈ new, c.Obtains t x) ∧
      ∃ x ∈ new, c.Revokes t.uuid x.request ∧ x.reply.HasStatus isSuccess
  fails : ∀ t, (∃ x ∈ new, c.Obtains t x) → ∀ e, outcome = .error e ↔
    c.FailsToWrite name value description new e ∨ c.Writes name value description new ∧
      ∃ x ∈ new, c.Revokes t.uuid x.request ∧ x.reply.fault? .revokeToken isSuccess = some e

/-- A request that changes something is sent on no hop of a request with another mark. -/
theorem Exchange.IsConveyed.mark_eq {x : Exchange} (hx : x.IsConveyed) {P : Request → Prop}
    (h : x.Sends P) {m : Option Char} (hP : ∀ r, P r → r.mark = some m) :
    x.request.mark = some m := by
  rcases h with h | ⟨g, hg, h⟩
  · exact hP _ h
  have hmark := hP _ h
  rcases (hx.stands g hg).content with ⟨hmethod, hbody⟩ | ⟨hmethod, -⟩
  · rwa [Request.mark, ← hmethod, ← hbody]
  · cases (Request.mark_of_get hmethod).symm.trans hmark

namespace Client

variable {c : Client} {name value description : String} {t t' : ApiToken}
  {new written : List Exchange} {a x y last : Exchange} {fault : Option Fault} {e : Fault}
  {outcome : Except Fault Unit} {P : Exchange → Prop}

/-- A reply gives one token. -/
theorem Obtains.unique (h : c.Obtains t x) (h' : c.Obtains t' x) : t = t' := by
  obtain ⟨-, _, _, _, hreply, -, hread⟩ := h
  obtain ⟨-, _, _, _, hreply', -, hread'⟩ := h'
  obtain ⟨-, -, rfl⟩ := Reply.answered.inj (hreply.symm.trans hreply')
  exact Option.some.inj (hread.symm.trans hread')

/-- A request that only reads gives no token. -/
theorem AsksForCrumb.not_obtains (h : c.AsksForCrumb x.request) (t : ApiToken) :
    ¬ c.Obtains t x :=
  fun hobtains => by cases h.method.symm.trans hobtains.request.method

/-! ### The writing -/

/-- Every request of a writing deletes or stores, with the token. -/
theorem Replaces.mark_and_uses (h : c.Replaces t name value description written fault)
    (hy : y ∈ written) :
    (y.request.mark = some none ∨ y.request.mark = some (some 'j')) ∧ c.Uses t y.request := by
  cases h with
  | hostless => cases hy
  | undeleted _ deletes uses => exact List.mem_singleton.mp hy ▸ ⟨.inl deletes.mark, uses⟩
  | deleted _ deletes uses _ stores uses' =>
    rcases List.mem_pair.mp hy with rfl | rfl
    · exact ⟨.inl deletes.mark, uses⟩
    · exact ⟨.inr stores.mark, uses'⟩

/-- A writing that does not fail has deleted and stored the credential. -/
theorem Replaces.eq_none_iff (h : c.Replaces t name value description written fault) :
    fault = none ↔ c.Writes name value description written := by
  cases h with
  | hostless => simp [Writes]
  | undeleted _ deletes _ hfault =>
    have hstatus :=
      mt Reply.fault?_eq_none_iff.mpr (by rw [hfault]; exact Option.some_ne_none _)
    simp [Writes, hstatus]
  | deleted _ deletes _ done stores _ =>
    simp [Writes, deletes, done, stores, deletes.not_stores, Reply.fault?_eq_none_iff]

/-- A writing fails by its first step that does. -/
theorem Replaces.eq_some_iff (h : c.Replaces t name value description written fault) :
    fault = some e ↔ c.FailsToWrite name value description written e := by
  cases h with
  | hostless host => simp [FailsToWrite, host, eq_comm]
  | undeleted host deletes _ hfault =>
    simp [FailsToWrite, host, deletes, deletes.not_stores, hfault]
  | deleted host deletes _ done stores _ =>
    simp [FailsToWrite, host, deletes, done, stores, deletes.not_stores, stores.not_deletes,
      Reply.fault?_eq_none_iff.mpr done]

/-! ### Finding requests -/

section Found

variable (hasks : c.AsksForCrumb a.request) (hobtains : c.Obtains t x)
  (hreplaces : c.Replaces t name value description written fault)

include hasks hobtains hreplaces

/-- What is exchanged until a token is revoked, by the marks of the requests. -/
theorem mark_cases_before (hy : y ∈ a :: x :: written) :
    y.request.mark = none ∨ y = x ∧ y.request.mark = some (some 'n') ∨
      y ∈ written ∧ (y.request.mark = some none ∨ y.request.mark = some (some 'j')) := by
  rcases List.mem_cons.mp hy with rfl | hy
  · exact .inl (Request.mark_of_get hasks.method)
  rcases List.mem_cons.mp hy with rfl | hy
  · exact .inr (.inl ⟨rfl, hobtains.request.mark⟩)
  · exact .inr (.inr ⟨hy, (hreplaces.mark_and_uses hy).1⟩)

variable (hrevokes : c.Revokes t.uuid last.request)

include hrevokes

/-- What is exchanged with a token, by the marks of the requests. -/
theorem mark_cases (hy : y ∈ a :: x :: (written ++ [last])) :
    y.request.mark = none ∨ y = x ∧ y.request.mark = some (some 'n') ∨
      y ∈ written ∧ (y.request.mark = some none ∨ y.request.mark = some (some 'j')) ∨
        y = last ∧ y.request.mark = some (some 't') := by
  rw [← List.cons_append, ← List.cons_append, List.mem_append] at hy
  rcases hy with hy | hy
  · exact (mark_cases_before hasks hobtains hreplaces hy).imp_right (Or.imp_right .inl)
  · obtain rfl := List.mem_singleton.mp hy
    exact .inr (.inr (.inr ⟨rfl, hrevokes.mark⟩))

/-- A request for a token is the one that obtains it. -/
theorem exists_token_iff (hP : ∀ y, P y → y.request.mark = some (some 'n')) :
    (∃ y ∈ a :: x :: (written ++ [last]), P y) ↔ P x := by
  refine ⟨fun ⟨y, hy, hp⟩ => ?_, fun hp => ⟨x, by simp, hp⟩⟩
  have hmark := hP y hp
  rcases mark_cases hasks hobtains hreplaces hrevokes hy with h | ⟨rfl, -⟩ | ⟨-, h | h⟩ | ⟨-, h⟩
  · cases h.symm.trans hmark
  · exact hp
  all_goals exact absurd (h.symm.trans hmark) (by decide)

/-- A deletion or creation is one of the writing. -/
theorem exists_written_iff
    (hP : ∀ y, P y → y.request.mark = some none ∨ y.request.mark = some (some 'j')) :
    (∃ y ∈ a :: x :: (written ++ [last]), P y) ↔ ∃ y ∈ written, P y := by
  refine ⟨fun ⟨y, hy, hp⟩ => ?_, fun ⟨y, hy, hp⟩ => ⟨y, by simp [hy], hp⟩⟩
  rcases mark_cases hasks hobtains hreplaces hrevokes hy with h | ⟨-, h⟩ | ⟨hy, -⟩ | ⟨-, h⟩
  · rcases hP y hp with hmark | hmark <;> cases h.symm.trans hmark
  · rcases hP y hp with hmark | hmark <;> exact absurd (h.symm.trans hmark) (by decide)
  · exact ⟨y, hy, hp⟩
  · rcases hP y hp with hmark | hmark <;> exact absurd (h.symm.trans hmark) (by decide)

/-- A revocation is the last request. -/
theorem exists_revocation_iff (hP : ∀ y, P y → y.request.mark = some (some 't')) :
    (∃ y ∈ a :: x :: (written ++ [last]), P y) ↔ P last := by
  refine ⟨fun ⟨y, hy, hp⟩ => ?_, fun hp => ⟨last, by simp, hp⟩⟩
  have hmark := hP y hp
  rcases mark_cases hasks hobtains hreplaces hrevokes hy with h | ⟨-, h⟩ | ⟨-, h | h⟩ | ⟨rfl, -⟩
  · cases h.symm.trans hmark
  · exact absurd (h.symm.trans hmark) (by decide)
  · exact absurd (h.symm.trans hmark) (by decide)
  · exact absurd (h.symm.trans hmark) (by decide)
  · exact hp

/-- What was written is told by all exchanges. -/
theorem writes_iff : c.Writes name value description (a :: x :: (written ++ [last])) ↔
    c.Writes name value description written := by
  rw [Writes, exists_written_iff hasks hobtains hreplaces hrevokes fun _ h => .inl h.1.mark,
    exists_written_iff hasks hobtains hreplaces hrevokes fun _ h => .inr h.1.mark, Writes]

/-- How the writing failed is told by all exchanges. -/
theorem failsToWrite_iff :
    c.FailsToWrite name value description (a :: x :: (written ++ [last])) e ↔
      c.FailsToWrite name value description written e := by
  rw [FailsToWrite, exists_written_iff hasks hobtains hreplaces hrevokes fun _ h => .inl h.1.mark,
    exists_written_iff hasks hobtains hreplaces hrevokes fun _ h => .inl h.1.mark,
    exists_written_iff hasks hobtains hreplaces hrevokes fun _ h => .inr h.1.mark, FailsToWrite]

end Found

/-! ### Courses -/

/-- Without a request that changes anything but the tokens, nothing is written and nothing
revoked. -/
theorem not_sends_of_mark (hx : x.IsConveyed)
    (h : x.request.mark = none ∨ x.request.mark = some (some 'n')) :
    (∀ name, ¬ x.Sends (c.Deletes name)) ∧
      (∀ name value description, ¬ x.Sends (c.Stores name value description)) ∧
      ∀ uuid, ¬ x.Sends (c.Revokes uuid) := by
  have hother {m : Option Char} (hm : m ≠ some 'n') (hsame : x.request.mark = some m) : False := by
    rcases h with h | h
    · cases h.symm.trans hsame
    · exact hm (Option.some.inj (hsame.symm.trans h))
  exact ⟨fun _ h => hother (by decide) (hx.mark_eq h fun _ h => h.mark),
    fun _ _ _ h => hother (by decide) (hx.mark_eq h fun _ h => h.mark),
    fun _ h => hother (by decide) (hx.mark_eq h fun _ h => h.mark)⟩

/-- A replacement without a token writes nothing. -/
theorem cleansUp_of_unobtained (hconveyed : ∀ x ∈ new, x.IsConveyed)
    (hconnected : c.isConnected = true)
    (hmark : ∀ x ∈ new, x.request.mark = none ∨ x.request.mark = some (some 'n'))
    (hnone : ∀ x ∈ new, ∀ t, ¬ c.Obtains t x)
    (hasks : c.AsksFirst new) :
    c.CleansUp name value description new (.error e) := by
  have hsilent (x : Exchange) (hx : x ∈ new) :=
    not_sends_of_mark (c := c) (hconveyed x hx) (hmark x hx)
  constructor
  case conveyed => exact hconveyed
  case offline => exact fun h => by cases hconnected.symm.trans h
  case asks => exact fun _ => hasks
  case revoked =>
    rintro t ⟨x, hx, h⟩
    exact absurd h (hnone x hx t)
  case used =>
    rintro x hx (⟨name, h⟩ | ⟨name, value, description, h⟩)
    · exact absurd h ((hsilent x hx).1 name)
    · exact absurd h ((hsilent x hx).2.1 name value description)
  case unwritten => exact fun _ => ⟨⟨e, rfl⟩, hsilent⟩
  case succeeds =>
    constructor
    · intro h
      cases h
    · rintro ⟨⟨⟨x, hx, h, -⟩, -⟩, -⟩
      exact absurd (.inl h) ((hsilent x hx).1 name)
  case fails =>
    rintro t ⟨x, hx, h⟩
    exact absurd h (hnone x hx t)

/-- A replacement that obtains a token cleans up. -/
theorem cleansUp_of_tokened {crumb : Option Crumb}
    (hconveyed : ∀ y ∈ a :: x :: (written ++ [last]), y.IsConveyed)
    (hconnected : c.isConnected = true) (hasks : c.AsksForCrumb a.request)
    (hgives : a.reply.GivesCrumb crumb) (hcarry : CanCarry crumb) (hobtains : c.Obtains t x)
    (hcarries : x.request.Carries crumb)
    (hreplaces : c.Replaces t name value description written fault)
    (hrevokes : c.Revokes t.uuid last.request) :
    c.CleansUp name value description (a :: x :: (written ++ [last]))
      (outcomeOf (fault.or (last.reply.fault? .revokeToken isSuccess))) := by
  have htoken {t' : ApiToken} :
      (∃ y ∈ a :: x :: (written ++ [last]), c.Obtains t' y) ↔ t' = t := by
    rw [exists_token_iff hasks hobtains hreplaces hrevokes fun _ h => h.request.mark]
    exact ⟨fun h => h.unique hobtains, fun h => h ▸ hobtains⟩
  have hrevoked {P : Exchange → Prop} :
      (∃ y ∈ a :: x :: (written ++ [last]), c.Revokes t.uuid y.request ∧ P y) ↔ P last := by
    rw [exists_revocation_iff hasks hobtains hreplaces hrevokes fun _ h => h.1.mark]
    exact and_iff_right hrevokes
  constructor
  case conveyed => exact hconveyed
  case offline => exact fun h => by cases hconnected.symm.trans h
  case asks =>
    refine fun _ => ⟨a, _, rfl, hasks, fun crumb' hgives' _ => ?_, fun h => ?_⟩
    · exact ⟨x, _, rfl, hobtains.request, hgives.unique hgives' ▸ hcarries⟩
    · exact absurd hcarry (h crumb hgives)
  case revoked =>
    intro t' ht'
    obtain rfl := htoken.mp ht'
    refine ⟨a :: x :: written, last, rfl, hrevokes, fun y hy uuid h => ?_⟩
    have hmark := (hconveyed y (List.mem_append_left [last] hy)).mark_eq h fun _ h => h.mark
    rcases mark_cases_before hasks hobtains hreplaces hy with h | ⟨-, h⟩ | ⟨-, h | h⟩
    · cases h.symm.trans hmark
    all_goals exact absurd (h.symm.trans hmark) (by decide)
  case used =>
    intro y hy hwrites
    have hmark : y.request.mark = some none ∨ y.request.mark = some (some 'j') :=
      hwrites.imp (fun ⟨_, h⟩ => (hconveyed y hy).mark_eq h fun _ h => h.mark)
        fun ⟨_, _, _, h⟩ => (hconveyed y hy).mark_eq h fun _ h => h.mark
    obtain ⟨_, hwritten, rfl⟩ := (exists_written_iff (P := fun z => z = y) hasks hobtains
      hreplaces hrevokes fun z h => h ▸ hmark).mp ⟨y, hy, rfl⟩
    exact ⟨t, htoken.mpr rfl, (hreplaces.mark_and_uses hwritten).2⟩
  case unwritten =>
    intro hnone
    obtain ⟨y, hy, h⟩ := htoken.mpr rfl
    exact absurd h (hnone y hy t)
  case succeeds =>
    rw [outcomeOf_eq_ok_iff, Option.or_eq_none_iff, hreplaces.eq_none_iff,
      writes_iff hasks hobtains hreplaces hrevokes, Reply.fault?_eq_none_iff]
    simp only [htoken, exists_eq_left, hrevoked]
  case fails =>
    intro t' ht' e
    obtain rfl := htoken.mp ht'
    rw [outcomeOf_eq_error_iff, Option.or_eq_some_iff, hreplaces.eq_some_iff,
      hreplaces.eq_none_iff, failsToWrite_iff hasks hobtains hreplaces hrevokes,
      writes_iff hasks hobtains hreplaces hrevokes, hrevoked]

/-- Whatever the course of a replacement, it cleans up. -/
theorem Course.cleansUp (h : c.Course name value description new outcome)
    (hconveyed : ∀ x ∈ new, x.IsConveyed) : c.CleansUp name value description new outcome := by
  cases h with
  | offline hoffline =>
    constructor
    case offline => exact fun _ => ⟨rfl, rfl⟩
    case asks => exact fun h => by cases hoffline.symm.trans h
    case unwritten => exact fun _ => ⟨⟨_, rfl⟩, List.forall_mem_nil _⟩
    all_goals simp [Writes]
  | @uncrumbed x e hconnected hasks hnone =>
    refine cleansUp_of_unobtained hconveyed hconnected ?_ ?_ ⟨x, [], rfl, hasks, ?_, fun _ => rfl⟩
    · exact List.forall_mem_singleton.mpr (.inl (Request.mark_of_get hasks.method))
    · exact List.forall_mem_singleton.mpr hasks.not_obtains
    · exact fun crumb hgives hcarry => absurd hcarry (hnone crumb hgives)
  | @untokened x y crumb e hconnected hasks hgives hcarry hmakes hcarries hnone =>
    refine cleansUp_of_unobtained hconveyed hconnected ?_ ?_ ⟨x, [y], rfl, hasks, ?_, ?_⟩
    · simp [Request.mark_of_get hasks.method, hmakes.mark]
    · simp [hasks.not_obtains, hnone]
    · exact fun crumb' hgives' _ => ⟨y, [], rfl, hmakes, hgives.unique hgives' ▸ hcarries⟩
    · exact fun h => absurd hcarry (h crumb hgives)
  | tokened hconnected hasks hgives hcarry hobtains hcarries hreplaces hrevokes =>
    exact cleansUp_of_tokened hconveyed hconnected hasks hgives hcarry hobtains hcarries hreplaces
      hrevokes

/-- Whichever server a client writes a credential on, and whatever that has answered before, a token
that it gives is revoked in the end, and the outcome is that of the writing and of the
revocation. -/
theorem createCredential_cleansUp (server : Server) (past : Record) (c : Client)
    (name value description : String) :
    ∃ new, ((c.createCredential name value description).run.hold server past).2.exchanges =
        past.exchanges ++ new ∧
      c.CleansUp name value description new
        ((c.createCredential name value description).run.hold server past).1 := by
  obtain ⟨new, hnew, hcourse⟩ := c.ends_createCredential name value description server past
  obtain ⟨new', hnew', hconveyed⟩ :=
    Dialogue.isConveyed_hold server (c.createCredential name value description).run past
  obtain rfl := List.append_cancel_left (hnew.symm.trans hnew')
  exact ⟨new, hnew, hcourse.cleansUp hconveyed⟩

end Client

/-- A server that needs no crumb, gives a token and fails to delete anything. -/
def stubbornServer : Server where
  reply _ r :=
    if r.method = .get then .answered 404 [] none
    else if r.body = "" then .answered 500 [] none
    else .answered 200 []
      (some "\x7b\"data\": \x7b\"tokenUuid\": \"a\", \"tokenValue\": \"b\"\x7d\x7d".toUTF8)
  lead _ _ := .nowhere

/-- A client that is connected. -/
def someClient : Client :=
  { address := "http://agent", username := "u", password := "p", user := some "u" }

/-- The token is revoked, with the password, although nothing could be written. -/
theorem createCredential_cleansUp_stubborn :
    let run := (someClient.createCredential "n" "v" "d").run.hold stubbornServer {}
    run.1 = .error (.status .deleteCredential 500) ∧
      (run.2.requests.map fun r => (r.password, r.body)) =
        [("p", ""), ("p", "newTokenName=communicationToken"), ("b", ""), ("p", "tokenUuid=a")] ∧
      someClient.CleansUp "n" "v" "d" run.2.exchanges run.1 := by
  obtain ⟨new, hnew, hcleansUp⟩ :=
    Client.createCredential_cleansUp stubbornServer {} someClient "n" "v" "d"
  rw [← List.nil_append new, ← hnew] at hcleansUp
  exact ⟨by decide +kernel, by decide +kernel, hcleansUp⟩

/-- A server that sends the client to another page when something is to be changed. -/
def divertingServer : Server where
  reply _ r :=
    if r.address.path = "/done" then .answered 200 [] none
    else .answered 302 [("Location", "/done")] none
  lead a _ := .to { a with path := "/done" }

/-- A deletion is done when what it is redirected to is answered by success. -/
example : ((someClient.deleteCredential none "n").run.hold divertingServer {}).1 = .ok () ∧
    (((someClient.deleteCredential none "n").run.hold divertingServer {}).2.received.map
      fun r => (r.method, r.address.path, r.isSigned)) =
      [(.post, "/credentials/store/system/domain/_/credential/n/doDelete", true),
        (.get, "/done", true)] := by decide +kernel

end PipelineManager.BuildServer
