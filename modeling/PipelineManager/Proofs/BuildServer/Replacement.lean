import PipelineManager.Proofs.BuildServer.Dialogue

/-!
# The course of a replacement

A credential is replaced by a request for a crumb, one for a token, the writing with that token and
the revocation. What is exchanged for it is described by cases, one for each way in which it ends.
-/

namespace PipelineManager.BuildServer

/-! ## Requests of a replacement -/

/-- Whether a request asks for a crumb. -/
structure Client.AsksForCrumb (c : Client) (r : Request) : Prop where
  method : r.method = .get
  address : r.address = c.page "/crumbIssuer/api/json"

/-- Whether a request asks for a token. -/
structure Client.MakesToken (c : Client) (r : Request) : Prop where
  method : r.method = .post
  address : r.address = c.page (tokenPage ++ "generateNewToken")
  body : r.body = form [("newTokenName", "communicationToken")]

/-- Whether a request deletes the credential of a name. -/
structure Client.Deletes (c : Client) (name : String) (r : Request) : Prop where
  method : r.method = .post
  address : r.address = c.credentialAddress name "doDelete"
  body : r.body = ""

/-- Whether a request stores a credential. -/
structure Client.Stores (c : Client) (name value description : String) (r : Request) : Prop where
  method : r.method = .post
  address : r.address = c.page "/credentials/store/system/domain/_/createCredentials"
  body : r.body = form [("json", Json.text (secretText name value description))]

/-- Whether a request revokes the token with an identifier. -/
structure Client.Revokes (c : Client) (uuid : String) (r : Request) : Prop where
  method : r.method = .post
  address : r.address = c.page (tokenPage ++ "revoke")
  body : r.body = form [("tokenUuid", uuid)]

/-- Whether a request is made with a token instead of the password. -/
structure Client.Uses (c : Client) (t : ApiToken) (r : Request) : Prop where
  username : r.username = c.username
  password : r.password = t.value
  signed : r.isSigned = true

/-- Whether a request carries a crumb, if there is one. -/
def Request.Carries (r : Request) (crumb : Option Crumb) : Prop :=
  ∀ h ∈ crumb.toList.map Crumb.header, h ∈ r.headers

/-- Whether a crumb can be sent along. -/
def CanCarry (crumb : Option Crumb) : Prop :=
  ∀ h ∈ crumb.toList.map Crumb.header, isSendable h = true

/-- Whether a reply gives a crumb, or tells that none is needed. -/
def Reply.GivesCrumb (reply : Reply) (crumb : Option Crumb) : Prop :=
  ∃ status headers body, reply = .answered status headers body ∧
    if status = 404 then crumb = none
    else isSuccess status = true ∧ ∃ c, body.bind crumbDocument.read? = some c ∧ crumb = some c

/-- Whether an exchange gives a token. -/
structure Client.Obtains (c : Client) (t : ApiToken) (x : Exchange) : Prop where
  request : c.MakesToken x.request
  reply : ∃ status headers body, x.reply = .answered status headers body ∧
    isSuccess status = true ∧ body.bind tokenDocument.read? = some t

/-- Whether a status is one with which a deletion is done: there may have been nothing to delete. -/
def isDeleted (status : Nat) : Bool := isSuccess status || status = 404

/-- The failure to make the address of a credential. -/
def Client.addressFault (c : Client) : Fault := .answer .buildUrl (.noHost c.address)

/-- Whether the addresses of credentials can be made. -/
def Client.HasHost (c : Client) : Prop := (Address.read c.address).hasHost = true

/-! ## Telling requests apart -/

/-- The first character of what a request changes; nothing for one that only reads. The addresses of
different requests may be the same, when the address of the server has a part that is no part of a
path. -/
def Request.mark (r : Request) : Option (Option Char) :=
  if r.method = .get then none else some r.body.toList.head?

section Marks

variable {c : Client} {r : Request} {name value description uuid : String}

/-- A form starts with the name of its first field. -/
theorem head?_form (key text : String) :
    (form [(key, text)]).toList.head? = some ((formText key).head?.getD '=') := by
  rw [form, String.toList_ofList]
  cases h : formText key <;> simp [Text.joinParts, h]

/-- A request that only reads has no mark. -/
theorem Request.mark_of_get (h : r.method = .get) : r.mark = none := if_pos h

/-- The mark of a request for a token. -/
theorem Client.MakesToken.mark (h : c.MakesToken r) : r.mark = some (some 'n') := by
  rw [Request.mark, h.method, if_neg (by decide), h.body, head?_form]
  rfl

/-- The mark of a deletion. -/
theorem Client.Deletes.mark (h : c.Deletes name r) : r.mark = some none := by
  rw [Request.mark, h.method, if_neg (by decide), h.body]
  rfl

/-- The mark of a creation. -/
theorem Client.Stores.mark (h : c.Stores name value description r) : r.mark = some (some 'j') := by
  rw [Request.mark, h.method, if_neg (by decide), h.body, head?_form]
  rfl

/-- The mark of a revocation. -/
theorem Client.Revokes.mark (h : c.Revokes uuid r) : r.mark = some (some 't') := by
  rw [Request.mark, h.method, if_neg (by decide), h.body, head?_form]
  rfl

/-- A deletion stores nothing. -/
theorem Client.Deletes.not_stores (h : c.Deletes name r) (name' value description : String) :
    ¬ c.Stores name' value description r := by
  intro h'
  cases h.mark.symm.trans h'.mark

/-- A creation deletes nothing. -/
theorem Client.Stores.not_deletes (h : c.Stores name value description r) (name' : String) :
    ¬ c.Deletes name' r :=
  fun h' => h'.not_stores _ _ _ h

end Marks

/-! ## The parts of a replacement -/

/-- The outcome of an operation that may fail. -/
def outcomeOf : Option Fault → Except Fault Unit
  | none => .ok ()
  | some e => .error e

/-- An operation without a failure is a success. -/
theorem outcomeOf_eq_ok_iff {fault : Option Fault} : outcomeOf fault = .ok () ↔ fault = none := by
  cases fault <;> simp [outcomeOf]

/-- An operation fails by its failure. -/
theorem outcomeOf_eq_error_iff {fault : Option Fault} {e : Fault} :
    outcomeOf fault = .error e ↔ fault = some e := by
  cases fault <;> simp [outcomeOf]

/-- Whether a credential is replaced with a token by some exchanges, and how it fails: it is
deleted, if there is an address for it, and stored if that was done. -/
inductive Client.Replaces (c : Client) (t : ApiToken) (name value description : String) :
    List Exchange → Option Fault → Prop
  | hostless (host : ¬ c.HasHost) : Replaces c t name value description [] (some c.addressFault)
  | undeleted {x : Exchange} {e : Fault} (host : c.HasHost) (deletes : c.Deletes name x.request)
      (uses : c.Uses t x.request) (fault : x.reply.fault? .deleteCredential isDeleted = some e) :
      Replaces c t name value description [x] (some e)
  | deleted {x y : Exchange} (host : c.HasHost) (deletes : c.Deletes name x.request)
      (uses : c.Uses t x.request) (done : x.reply.HasStatus isDeleted)
      (stores : c.Stores name value description y.request) (uses' : c.Uses t y.request) :
      Replaces c t name value description [x, y] (y.reply.fault? .createCredential isSuccess)

/-- The exchanges of a replacement and its outcome: none without a connection, a request for a crumb
alone if that gives none that can be carried, with one for a token if that gives none, and otherwise
a replacement and the revocation behind it. -/
inductive Client.Course (c : Client) (name value description : String) :
    List Exchange → Except Fault Unit → Prop
  | offline (connected : c.isConnected = false) :
      Course c name value description [] (.error .notConnected)
  | uncrumbed {x : Exchange} {e : Fault} (connected : c.isConnected = true)
      (asks : c.AsksForCrumb x.request)
      (none : ∀ crumb, x.reply.GivesCrumb crumb → ¬ CanCarry crumb) :
      Course c name value description [x] (.error e)
  | untokened {x y : Exchange} {crumb : Option Crumb} {e : Fault} (connected : c.isConnected = true)
      (asks : c.AsksForCrumb x.request) (gives : x.reply.GivesCrumb crumb)
      (carry : CanCarry crumb) (makes : c.MakesToken y.request)
      (carries : y.request.Carries crumb) (none : ∀ t, ¬ c.Obtains t y) :
      Course c name value description [x, y] (.error e)
  | tokened {x y last : Exchange} {written : List Exchange} {crumb : Option Crumb} {t : ApiToken}
      {fault : Option Fault} (connected : c.isConnected = true) (asks : c.AsksForCrumb x.request)
      (gives : x.reply.GivesCrumb crumb) (carry : CanCarry crumb) (obtains : c.Obtains t y)
      (carries : y.request.Carries crumb)
      (replaces : c.Replaces t name value description written fault)
      (revokes : c.Revokes t.uuid last.request) :
      Course c name value description (x :: y :: (written ++ [last]))
        (outcomeOf (fault.or (last.reply.fault? .revokeToken isSuccess)))

section Parts

variable {c : Client} {crumb : Option Crumb} {t : ApiToken} {name value description : String}

/-- Without a connection nothing is exchanged. -/
theorem Client.ends_requireConnection (c : Client) :
    Talk.Ends c.requireConnection fun new outcome => new = [] ∧
      (c.isConnected = true ∧ outcome = .ok () ∨
        c.isConnected = false ∧ outcome = .error .notConnected) := by
  rw [requireConnection]
  cases h : c.isConnected with
  | true => exact Talk.ends_pure ⟨rfl, .inl ⟨rfl, rfl⟩⟩
  | false => exact Talk.ends_throw ⟨rfl, .inr ⟨rfl, rfl⟩⟩

/-- Without a host nothing is exchanged. -/
theorem Client.ends_requireHost (c : Client) :
    Talk.Ends c.requireHost fun new outcome => new = [] ∧
      (c.HasHost ∧ outcome = .ok () ∨ ¬ c.HasHost ∧ outcome = .error c.addressFault) := by
  rw [requireHost, HasHost]
  by_cases h : (Address.read c.address).hasHost = true
  · rw [if_pos h]
    exact Talk.ends_pure ⟨rfl, .inl ⟨h, rfl⟩⟩
  · rw [if_neg h]
    exact Talk.ends_throw ⟨rfl, .inr ⟨h, rfl⟩⟩

/-- A reply gives one crumb. -/
theorem Reply.GivesCrumb.unique {reply : Reply} {crumb' : Option Crumb}
    (h : reply.GivesCrumb crumb) (h' : reply.GivesCrumb crumb') : crumb = crumb' := by
  obtain ⟨status, headers, body, hreply, hgives⟩ := h
  obtain ⟨_, _, _, hreply', hgives'⟩ := h'
  obtain ⟨rfl, -, rfl⟩ := Reply.answered.inj (hreply.symm.trans hreply')
  by_cases hstatus : status = 404
  · rw [if_pos hstatus] at hgives hgives'
    rw [hgives, hgives']
  · rw [if_neg hstatus] at hgives hgives'
    obtain ⟨-, d, hread, rfl⟩ := hgives
    obtain ⟨-, d', hread', rfl⟩ := hgives'
    exact hread.symm.trans hread'

/-- What a reply gives that has a status and perhaps a body. -/
theorem Reply.givesCrumb_answered_iff {status : Nat} {headers : List (String × String)}
    {body : Option ByteArray} : (Reply.answered status headers body).GivesCrumb crumb ↔
      if status = 404 then crumb = none
      else isSuccess status = true ∧
        ∃ c, body.bind crumbDocument.read? = some c ∧ crumb = some c := by
  constructor
  · rintro ⟨_, _, _, ⟨⟩, h⟩
    exact h
  · exact fun h => ⟨status, headers, body, rfl, h⟩

/-- Whether a crumb is asked for by one request, and is what the reply gives. -/
def Client.HearsCrumb (c : Client) (new : List Exchange) (outcome : Except Fault (Option Crumb)) :
    Prop :=
  ∃ x, new = [x] ∧ c.AsksForCrumb x.request ∧
    ∀ crumb, outcome = .ok crumb ↔ x.reply.GivesCrumb crumb

/-- A crumb is what the reply to the request for it gives. -/
theorem Client.ends_crumb (c : Client) : Talk.Ends c.crumb c.HearsCrumb := by
  rw [crumb]
  refine (Talk.ends_request (S := fun new outcome => ∃ x, new = [x] ∧ c.AsksForCrumb x.request ∧
    outcome = .ok x.reply) ?_ ?_).bind ?_ ?_
  · intro _ x hx
    exact ⟨x, rfl, by rw [hx]; exact ⟨rfl, rfl⟩, rfl⟩
  · exact fun hunsent => absurd (List.forall_mem_nil _) hunsent
  · rintro _ _ ⟨_, _, _, h⟩
    cases h
  rintro _ reply ⟨x, rfl, hx, ⟨⟩⟩
  have hends {outcome : Except Fault (Option Crumb)}
      (h : ∀ crumb, outcome = .ok crumb ↔ x.reply.GivesCrumb crumb) :
      c.HearsCrumb ([x] ++ []) outcome := ⟨x, rfl, hx, h⟩
  cases hreply : x.reply with
  | unreached => exact Talk.ends_throw (hends (by simp [hreply, Reply.GivesCrumb]))
  | lost => exact Talk.ends_throw (hends (by simp [hreply, Reply.GivesCrumb]))
  | answered status headers body =>
    simp only [hreply, Reply.givesCrumb_answered_iff] at hends
    dsimp only
    by_cases hmissing : status = 404
    · simp only [if_pos hmissing] at hends ⊢
      exact Talk.ends_pure (hends (by simp [eq_comm]))
    by_cases hsuccess : isSuccess status = true
    · simp only [if_neg hmissing, if_pos hsuccess] at hends ⊢
      refine (ends_document (Q := fun later outcome => later = [] ∧
        ∀ d, outcome = .ok d ↔ body.bind crumbDocument.read? = some d) ?_ ?_).bind ?_ ?_
      · exact fun d hread => ⟨rfl, by simp [hread]⟩
      · exact fun hread => ⟨rfl, by simp [hread]⟩
      · rintro _ e ⟨rfl, hread⟩
        exact hends (by simp [← hread])
      · rintro _ d ⟨rfl, hread⟩
        exact Talk.ends_pure (hends (by simp [← hread, hsuccess, eq_comm]))
    · simp only [if_neg hmissing, if_neg hsuccess] at hends ⊢
      exact Talk.ends_throw (hends (by simp [hsuccess]))

/-- A request to change something can be sent if its crumb can. -/
theorem Client.canBeSent_post_iff {c : Client} {crumb : Option Crumb} {address : Address}
    {headers : List (String × String)} {body : String}
    (hheaders : ∀ h ∈ headers, isSendable h = true) :
    (c.post crumb address headers body).CanBeSent ↔ CanCarry crumb := by
  rw [Request.CanBeSent, post, List.forall_mem_append]
  exact and_iff_left hheaders

/-- A form can be sent if its crumb can. -/
theorem Client.canBeSent_postForm_iff {c : Client} {crumb : Option Crumb} {address : Address}
    {pairs : List (String × String)} :
    (c.postForm crumb address pairs).CanBeSent ↔ CanCarry crumb :=
  canBeSent_post_iff (List.forall_mem_singleton.mpr (by decide))

/-- A request to change something carries its crumb. -/
theorem Client.carries_post {c : Client} {crumb : Option Crumb} {address : Address}
    {headers : List (String × String)} {body : String} :
    (c.post crumb address headers body).Carries crumb :=
  fun _ h => List.mem_append_left _ h

/-- A request for a token gives one, or there is none; it is not sent with a crumb that cannot be
carried. -/
theorem Client.ends_generateToken (c : Client) (crumb : Option Crumb) :
    Talk.Ends (c.generateToken crumb) fun new outcome =>
      (¬ CanCarry crumb ∧ new = [] ∧ ∃ e, outcome = .error e) ∨
        CanCarry crumb ∧ ∃ x, new = [x] ∧ c.MakesToken x.request ∧ x.request.Carries crumb ∧
          ((∃ t, c.Obtains t x ∧ outcome = .ok t) ∨
            ∃ e, outcome = .error e ∧ ∀ t, ¬ c.Obtains t x) := by
  have hmakes {x : Exchange} (hx : x.request = c.postForm crumb
      (c.page (tokenPage ++ "generateNewToken")) [("newTokenName", "communicationToken")]) :
      c.MakesToken x.request ∧ x.request.Carries crumb :=
    hx ▸ ⟨⟨rfl, rfl, rfl⟩, carries_post⟩
  rw [generateToken, ask]
  refine (ends_exchange (Q := fun new outcome =>
    (¬ CanCarry crumb ∧ new = [] ∧ ∃ e, outcome = .error e) ∨
      CanCarry crumb ∧ ∃ x, new = [x] ∧ c.MakesToken x.request ∧ x.request.Carries crumb ∧
        ((∃ body, outcome = .ok body ∧ ∃ status headers,
            x.reply = .answered status headers body ∧ isSuccess status = true) ∨
          ∃ e, outcome = .error e ∧ ∀ t, ¬ c.Obtains t x)) ?_ ?_ ?_).bind ?_ ?_
  · intro hsend x hx status headers body hreply hsuccess
    exact .inr ⟨canBeSent_postForm_iff.mp hsend, x, rfl, (hmakes hx).1, (hmakes hx).2,
      .inl ⟨body, rfl, status, headers, hreply, hsuccess⟩⟩
  · intro hsend x hx e hfault
    refine .inr ⟨canBeSent_postForm_iff.mp hsend, x, rfl, (hmakes hx).1, (hmakes hx).2,
      .inr ⟨e, rfl, ?_⟩⟩
    rintro t ⟨-, status, headers, body, hreply, hsuccess, -⟩
    rw [Reply.fault?_eq_none_iff.mpr ⟨status, headers, body, hreply, hsuccess⟩] at hfault
    cases hfault
  · exact fun hunsent => .inl ⟨mt canBeSent_postForm_iff.mpr hunsent, rfl, _, rfl⟩
  · rintro new e (⟨hcarry, rfl, -⟩ | ⟨hcarry, x, rfl, hx, hcarries, ⟨_, h, -⟩ | ⟨_, ⟨⟩, hnone⟩⟩)
    · exact .inl ⟨hcarry, rfl, e, rfl⟩
    · cases h
    · exact .inr ⟨hcarry, x, rfl, hx, hcarries, .inr ⟨e, rfl, hnone⟩⟩
  · rintro new body (⟨-, -, _, h⟩ |
      ⟨hcarry, x, rfl, hx, hcarries, ⟨_, ⟨⟩, status, headers, hreply, hsuccess⟩ | ⟨_, h, -⟩⟩)
    · cases h
    · refine ends_document (fun t hread => ?_) fun hread => ?_
      · exact .inr ⟨hcarry, x, rfl, hx, hcarries,
          .inl ⟨t, ⟨hx, status, headers, body, hreply, hsuccess, hread⟩, rfl⟩⟩
      · refine .inr ⟨hcarry, x, rfl, hx, hcarries, .inr ⟨_, rfl, ?_⟩⟩
        rintro t ⟨-, _, _, _, hreply', -, hread'⟩
        obtain ⟨-, -, rfl⟩ := Reply.answered.inj (hreply.symm.trans hreply')
        cases hread.symm.trans hread'
    · cases h

/-- A deletion is done when the credential is gone, whether or not there was one. -/
theorem Client.ends_deleteCredential (hcarry : CanCarry crumb) (name : String) :
    Talk.Ends ((c.withToken t).deleteCredential crumb name) fun new outcome =>
      (¬ c.HasHost ∧ new = [] ∧ outcome = .error c.addressFault) ∨
        c.HasHost ∧ ∃ x, new = [x] ∧ c.Deletes name x.request ∧ c.Uses t x.request ∧
          outcome = outcomeOf (x.reply.fault? .deleteCredential isDeleted) := by
  rw [deleteCredential]
  refine (c.withToken t).ends_requireHost.bind ?_ ?_
  · rintro _ e ⟨rfl, ⟨-, h⟩ | ⟨hhost, ⟨⟩⟩⟩
    · cases h
    · exact .inl ⟨hhost, rfl, rfl⟩
  rintro _ _ ⟨rfl, ⟨hhost, -⟩ | ⟨-, h⟩⟩
  case inr => cases h
  refine (Talk.ends_request (S := fun new outcome => ∃ x, new = [x] ∧ c.Deletes name x.request ∧
    c.Uses t x.request ∧ outcome = .ok x.reply) ?_ ?_).bind ?_ ?_
  · intro _ x hx
    exact ⟨x, rfl, hx ▸ ⟨rfl, rfl, rfl⟩, hx ▸ ⟨rfl, rfl, rfl⟩, rfl⟩
  · exact fun hunsent => absurd ((canBeSent_post_iff (List.forall_mem_nil _)).mpr hcarry) hunsent
  · rintro _ _ ⟨_, _, _, _, h⟩
    cases h
  · rintro new reply ⟨x, rfl, hdeletes, huses, ⟨⟩⟩
    have hends {outcome : Except Fault Unit}
        (h : outcome = outcomeOf (x.reply.fault? .deleteCredential isDeleted)) :
        (¬ c.HasHost ∧ [x] = [] ∧ outcome = .error c.addressFault) ∨
          c.HasHost ∧ ∃ y, [x] = [y] ∧ c.Deletes name y.request ∧ c.Uses t y.request ∧
            outcome = outcomeOf (y.reply.fault? .deleteCredential isDeleted) :=
      .inr ⟨hhost, x, rfl, hdeletes, huses, h⟩
    cases hreply : x.reply with
    | unreached => exact Talk.ends_throw (hends (hreply ▸ rfl))
    | lost => exact Talk.ends_throw (hends (hreply ▸ rfl))
    | answered status headers body =>
      rw [hreply, Reply.fault?, isDeleted] at hends
      dsimp only
      by_cases hdone : (isSuccess status || decide (status = 404)) = true
      · rw [if_pos hdone] at hends ⊢
        exact Talk.ends_pure (hends rfl)
      · rw [if_neg hdone] at hends ⊢
        exact Talk.ends_throw (hends rfl)

/-- A form that is posted is answered by success, or the operation fails. -/
theorem Client.ends_exchange_postForm {o : Operation} {address : Address}
    {pairs : List (String × String)} (hcarry : CanCarry crumb) :
    Talk.Ends (do let _ ← exchange o (c.postForm crumb address pairs)) fun new outcome =>
      ∃ x : Exchange, new = [x] ∧ x.request = c.postForm crumb address pairs ∧
        outcome = outcomeOf (x.reply.fault? o isSuccess) := by
  refine (ends_exchange (Q := fun new outcome => ∃ x : Exchange, new = [x] ∧
    x.request = c.postForm crumb address pairs ∧
      outcome.map (fun _ => ()) = outcomeOf (x.reply.fault? o isSuccess)) ?_ ?_ ?_).bind ?_ ?_
  · intro _ x hx status headers body hreply hsuccess
    refine ⟨x, rfl, hx, ?_⟩
    rw [Reply.fault?_eq_none_iff.mpr ⟨status, headers, body, hreply, hsuccess⟩]
    rfl
  · intro _ x hx e hfault
    refine ⟨x, rfl, hx, ?_⟩
    rw [hfault]
    rfl
  · exact fun hunsent => absurd (canBeSent_postForm_iff.mpr hcarry) hunsent
  · exact fun _ _ h => h
  · rintro _ body ⟨x, rfl, hx, houtcome⟩
    exact Talk.ends_pure ⟨x, rfl, hx, houtcome⟩

/-- A token changes no address. -/
theorem Client.withToken_page (c : Client) (t : ApiToken) (path : String) :
    (c.withToken t).page path = c.page path := by
  rw [page, withToken, page]

/-- A creation is one request with the token. -/
theorem Client.ends_storeCredential (hcarry : CanCarry crumb) (name value description : String) :
    Talk.Ends ((c.withToken t).storeCredential crumb name value description) fun new outcome =>
      ∃ x, new = [x] ∧ c.Stores name value description x.request ∧ c.Uses t x.request ∧
        outcome = outcomeOf (x.reply.fault? .createCredential isSuccess) := by
  rw [storeCredential, withToken_page]
  refine (ends_exchange_postForm hcarry).mono ?_
  rintro _ outcome ⟨x, rfl, hx, houtcome⟩
  exact ⟨x, rfl, hx ▸ ⟨rfl, rfl, rfl⟩, hx ▸ ⟨rfl, rfl, rfl⟩, houtcome⟩

/-- A revocation is one request. -/
theorem Client.ends_revokeToken (hcarry : CanCarry crumb) :
    Talk.Ends (c.revokeToken crumb t) fun new outcome =>
      ∃ x, new = [x] ∧ c.Revokes t.uuid x.request ∧
        outcome = outcomeOf (x.reply.fault? .revokeToken isSuccess) := by
  refine (ends_exchange_postForm hcarry).mono ?_
  rintro _ outcome ⟨x, rfl, hx, houtcome⟩
  exact ⟨x, rfl, hx ▸ ⟨rfl, rfl, rfl⟩, houtcome⟩

/-- A replacement is a deletion with a creation behind it. -/
theorem Client.ends_replaceCredential (hcarry : CanCarry crumb) (name value description : String) :
    Talk.Ends ((c.withToken t).replaceCredential crumb name value description) fun new outcome =>
      ∃ fault, c.Replaces t name value description new fault ∧ outcome = outcomeOf fault := by
  rw [replaceCredential]
  refine (ends_deleteCredential hcarry name).bind ?_ ?_
  · rintro _ e (⟨hhost, rfl, ⟨⟩⟩ | ⟨hhost, x, rfl, hdeletes, huses, houtcome⟩)
    · exact ⟨_, .hostless hhost, rfl⟩
    · have hfault := outcomeOf_eq_error_iff.mp houtcome.symm
      exact ⟨some e, .undeleted hhost hdeletes huses hfault, rfl⟩
  · rintro _ _ (⟨-, -, h⟩ | ⟨hhost, x, rfl, hdeletes, huses, houtcome⟩)
    · cases h
    · have hdone := Reply.fault?_eq_none_iff.mp (outcomeOf_eq_ok_iff.mp houtcome.symm)
      refine (ends_storeCredential hcarry name value description).mono ?_
      rintro _ outcome ⟨y, rfl, hstores, huses', houtcome'⟩
      exact ⟨_, .deleted hhost hdeletes huses hdone hstores huses', houtcome'⟩

/-- What is exchanged for a credential, and how that ends. -/
theorem Client.ends_createCredential (c : Client) (name value description : String) :
    Talk.Ends (c.createCredential name value description) (c.Course name value description) := by
  rw [createCredential]
  refine c.ends_requireConnection.bind ?_ ?_
  · rintro _ _ ⟨rfl, ⟨-, h⟩ | ⟨hoffline, ⟨⟩⟩⟩
    · cases h
    · exact .offline hoffline
  rintro _ _ ⟨rfl, ⟨hconnected, -⟩ | ⟨-, h⟩⟩
  case inr => cases h
  refine c.ends_crumb.bind ?_ ?_
  · rintro _ e ⟨x, rfl, hasks, hcrumb⟩
    refine .uncrumbed hconnected hasks fun crumb h => ?_
    cases (hcrumb crumb).mpr h
  rintro _ crumb ⟨x, rfl, hasks, hcrumb⟩
  have hgives := (hcrumb crumb).mp rfl
  refine (c.ends_generateToken crumb).bind ?_ ?_
  · rintro _ e (⟨hcarry, rfl, -⟩ |
      ⟨hcarry, y, rfl, hmakes, hcarries, ⟨_, -, h⟩ | ⟨_, -, hnone⟩⟩)
    · refine .uncrumbed hconnected hasks fun crumb' h => ?_
      cases (hcrumb crumb').mpr h
      exact hcarry
    · cases h
    · exact .untokened hconnected hasks hgives hcarry hmakes hcarries hnone
  rintro _ t (⟨-, -, _, h⟩ | ⟨hcarry, y, rfl, -, hcarries, ⟨_, hobtains, ⟨⟩⟩ | ⟨_, h, -⟩⟩)
  case inl => cases h
  case inr.inr => cases h
  refine ((ends_replaceCredential hcarry name value description).attempt
    (P := fun new outcome => ∃ fault, c.Replaces t name value description new fault ∧
      outcome = .ok (outcomeOf fault)) ?_).bind ?_ ?_
  · exact fun _ _ ⟨fault, hreplaces, houtcome⟩ => ⟨fault, hreplaces, congrArg Except.ok houtcome⟩
  · rintro _ _ ⟨_, _, h⟩
    cases h
  rintro written _ ⟨fault, hreplaces, ⟨⟩⟩
  refine ((ends_revokeToken hcarry).attempt (P := fun new outcome => ∃ last, new = [last] ∧
    c.Revokes t.uuid last.request ∧
      outcome = .ok (outcomeOf (last.reply.fault? .revokeToken isSuccess))) ?_).bind ?_ ?_
  · exact fun _ _ ⟨last, hnew, hrevokes, houtcome⟩ =>
      ⟨last, hnew, hrevokes, congrArg Except.ok houtcome⟩
  · rintro _ _ ⟨_, _, _, h⟩
    cases h
  rintro _ _ ⟨last, rfl, hrevokes, ⟨⟩⟩
  have hcourse := Course.tokened hconnected hasks hgives hcarry hobtains hcarries hreplaces
    hrevokes
  have hnew : x :: y :: (written ++ [last]) =
      [] ++ ([x] ++ ([y] ++ (written ++ ([last] ++ [])))) := by simp
  rw [hnew] at hcourse
  cases fault with
  | none =>
    refine (Talk.ends_conclude (Q := fun new outcome => new = [] ∧ outcome = .ok ())
      ⟨rfl, rfl⟩).bind ?_ ?_
    · rintro _ _ ⟨-, h⟩
      cases h
    · rintro _ _ ⟨rfl, -⟩
      exact Talk.ends_conclude hcourse
  | some e =>
    refine (Talk.ends_conclude (Q := fun new outcome => new = [] ∧ outcome = .error e)
      ⟨rfl, rfl⟩).bind ?_ ?_
    · rintro _ _ ⟨rfl, ⟨⟩⟩
      exact hcourse
    · rintro _ _ ⟨-, h⟩
      cases h

end Parts

end PipelineManager.BuildServer
