import PipelineManager.BuildServer.Client

/-!
# Talks with any server

A talk is known by the exchanges that it makes and by how it ends. What is said of a talk here
holds whatever the server answers, whether requests get there or not, wherever they are redirected
and whatever was exchanged before. The rules follow the ways in which talks are put together, so
that what a part of a talk says to the server is looked at once.
-/

namespace PipelineManager.BuildServer

/-! ## Replies -/

/-- Whether a server has answered with one of some statuses. -/
def Reply.HasStatus (accepts : Nat → Bool) (reply : Reply) : Prop :=
  ∃ status headers body, reply = .answered status headers body ∧ accepts status = true

/-- The failure of an operation that a reply tells of, when only some statuses are accepted. -/
def Reply.fault? (o : Operation) (accepts : Nat → Bool) : Reply → Option Fault
  | .answered status _ _ => if accepts status then none else some (.status o status)
  | _ => some (.noAnswer o)

/-- An operation fails by a reply unless that has an accepted status. -/
theorem Reply.fault?_eq_none_iff {o : Operation} {accepts : Nat → Bool} {reply : Reply} :
    reply.fault? o accepts = none ↔ reply.HasStatus accepts := by
  cases reply with
  | unreached => simp [fault?, HasStatus]
  | lost => simp [fault?, HasStatus]
  | answered status headers body => simp [fault?, HasStatus]

/-- Whether all headers of a request can be sent. -/
def Request.CanBeSent (r : Request) : Prop := ∀ h ∈ r.headers, isSendable h = true

/-! ## Hops -/

/-- Whether a request stands for another one on some hop: it says the same, or nothing and only
reads, for the same sender, whose credentials go to the origin of the other request alone. -/
structure Request.StandsFor (r' r : Request) : Prop where
  content : r'.method = r.method ∧ r'.body = r.body ∨ r'.method = .get ∧ r'.body = ""
  username : r'.username = r.username
  password : r'.password = r.password
  signed : r'.isSigned = true → r'.address.origin = r.address.origin

namespace Request.StandsFor

variable {r r₀ : Request}

/-- A request stands for itself. -/
theorem refl (r : Request) : r.StandsFor r := ⟨.inl ⟨rfl, rfl⟩, rfl, rfl, fun _ => rfl⟩

/-- Cookies change nothing of what a request stands for. -/
theorem withCookies (h : r.StandsFor r₀) (cookies : List (String × String)) :
    (r.withCookies cookies).StandsFor r₀ :=
  ⟨h.content, h.username, h.password, h.signed⟩

/-- A redirected request stands for what the request stood for. -/
theorem redirected (h : r.StandsFor r₀) (kind : Redirection) (address : Address) :
    (r.redirected kind address).StandsFor r₀ := by
  refine ⟨?_, h.username, h.password, fun hsigned => ?_⟩
  · cases kind with
    | anew => exact .inr ⟨rfl, rfl⟩
    | again => exact h.content
  · obtain ⟨hsigned, hsame⟩ := Bool.and_eq_true_iff.mp hsigned
    exact (of_decide_eq_true hsame).trans (h.signed hsigned)

end Request.StandsFor

/-- Whether the hops of an exchange are those of its request. It is sent where it is addressed, and
on any other hop by a request that stands for it. What came of it came back from the last hop,
unless a redirection could not be followed. -/
structure Exchange.IsConveyed (x : Exchange) : Prop where
  first : ∃ h rest cookies, x.hops = h :: rest ∧ h.request = x.request.withCookies cookies
  stands : ∀ h ∈ x.hops, h.request.StandsFor x.request
  bounded : x.hops.length ≤ maxRedirections + 1
  reply : x.reply = .lost ∨ ∃ h, x.hops.getLast? = some h ∧ x.reply = h.reply

namespace Server

variable {server : Server} {origin : String} {past : List Hop} {r r₀ r' : Request}
  {reply reply' : Reply}

/-- What comes of a request is the reply, or nothing when a redirection leads to what cannot be
requested. -/
theorem eq_or_eq_lost_of_react (h : server.react r reply = .settle reply') :
    reply' = reply ∨ reply' = .lost := by
  unfold react at h
  repeat' split at h
  all_goals cases h
  all_goals simp

/-- A request is sent on as it is redirected. -/
theorem exists_redirected_of_react (h : server.react r reply = .follow r') :
    ∃ kind address, r' = r.redirected kind address := by
  unfold react at h
  repeat' split at h
  all_goals cases h
  exact ⟨_, _, rfl⟩

/-- A hop is made by what a request stands for. -/
theorem standsFor_hop (h : r.StandsFor r₀) (trail : Trail) :
    (server.hop origin past trail r).request.StandsFor r₀ := by
  unfold hop
  dsimp only
  split
  · exact h.withCookies _
  · exact h

section Travel

variable {trail : Trail} {left : Nat}

/-- A reply that settles a request ends its hops. -/
theorem travel_of_settle
    (h : server.react r (server.hop origin past trail r).reply = .settle reply) :
    server.travel origin past left trail r =
      (trail.extend origin (server.hop origin past trail r), reply) := by
  unfold travel
  simp only [h]

/-- A redirection too many ends the hops of a request. -/
theorem travel_zero_of_follow
    (h : server.react r (server.hop origin past trail r).reply = .follow r') :
    server.travel origin past 0 trail r =
      (trail.extend origin (server.hop origin past trail r), .lost) := by
  unfold travel
  simp only [h]

/-- A redirection that is followed takes one of those left. -/
theorem travel_succ_of_follow
    (h : server.react r (server.hop origin past trail r).reply = .follow r') :
    server.travel origin past (left + 1) trail r =
      server.travel origin past left (trail.extend origin (server.hop origin past trail r)) r' := by
  conv => lhs; unfold travel
  simp only [h]

end Travel

/-- Whether a trail and a reply come of a hop behind others, with so many redirections left. -/
def GoesOn (r₀ : Request) (left : Nat) (before : List Hop) (h : Hop) (result : Trail × Reply) :
    Prop :=
  ∃ rest, result.1.hops = before ++ h :: rest ∧ (∀ g ∈ rest, g.request.StandsFor r₀) ∧
    rest.length ≤ left ∧
    (result.2 = .lost ∨ ∃ g, (h :: rest).getLast? = some g ∧ result.2 = g.reply)

/-- A hop may be the last one. -/
theorem goesOn_extend {trail : Trail} {h : Hop} (hreply : reply = h.reply ∨ reply = .lost)
    (left : Nat) : GoesOn r₀ left trail.hops h (trail.extend origin h, reply) :=
  ⟨[], rfl, List.forall_mem_nil _, Nat.zero_le _, hreply.symm.imp_right fun h => ⟨_, rfl, h⟩⟩

/-- The hops that a request takes, by the redirections that are left. -/
theorem goesOn_travel (server : Server) (origin : String) (past : List Hop) (h : r.StandsFor r₀)
    (left : Nat) (trail : Trail) :
    GoesOn r₀ left trail.hops (server.hop origin past trail r)
      (server.travel origin past left trail r) := by
  -- The induction is on the redirections that are left, with any trail so far.
  induction left generalizing trail r with
  | zero =>
    cases hreact : server.react r (server.hop origin past trail r).reply with
    | settle reply =>
      rw [travel_of_settle hreact]
      exact goesOn_extend (eq_or_eq_lost_of_react hreact) 0
    | follow r' =>
      rw [travel_zero_of_follow hreact]
      exact goesOn_extend (.inr rfl) 0
  | succ left ih =>
    cases hreact : server.react r (server.hop origin past trail r).reply with
    | settle reply =>
      rw [travel_of_settle hreact]
      exact goesOn_extend (eq_or_eq_lost_of_react hreact) (left + 1)
    | follow r' =>
      rw [travel_succ_of_follow hreact]
      obtain ⟨kind, address, rfl⟩ := exists_redirected_of_react hreact
      have h' := h.redirected kind address
      obtain ⟨rest, hhops, hstands, hlength, hreply⟩ :=
        ih h' (trail.extend origin (server.hop origin past trail r))
      refine ⟨_ :: rest, hhops.trans (List.append_assoc ..), ?_, Nat.succ_le_succ hlength, ?_⟩
      · exact List.forall_mem_cons.mpr ⟨standsFor_hop h' _, hstands⟩
      · rw [List.getLast?_cons_cons]
        exact hreply

/-- The exchange that a request makes is conveyed. -/
theorem isConveyed_travel (server : Server) (past : List Hop) (cookies : List (String × String))
    (r : Request) :
    Exchange.IsConveyed ⟨r, (server.travel r.address.origin past maxRedirections { cookies } r).2,
      (server.travel r.address.origin past maxRedirections { cookies } r).1.hops⟩ := by
  obtain ⟨rest, hhops, hstands, hlength, hreply⟩ :=
    goesOn_travel server r.address.origin past (.refl r) maxRedirections { cookies }
  have hfirst : (server.hop r.address.origin past { cookies } r).request =
      r.withCookies cookies := by
    rw [hop, if_pos rfl]
  rw [List.nil_append] at hhops
  constructor
  case first => exact ⟨_, rest, cookies, hhops, hfirst⟩
  case stands =>
    rw [hhops]
    exact List.forall_mem_cons.mpr ⟨standsFor_hop (.refl r) _, hstands⟩
  case bounded =>
    rw [hhops]
    exact Nat.succ_le_succ hlength
  case reply =>
    rw [hhops]
    exact hreply

end Server

/-- Every exchange of a dialogue is conveyed. -/
theorem Dialogue.isConveyed_hold {α : Type} (server : Server) (d : Dialogue α) (past : Record) :
    ∃ new, (d.hold server past).2.exchanges = past.exchanges ++ new ∧
      ∀ x ∈ new, x.IsConveyed := by
  induction d generalizing past with
  | done a => exact ⟨[], (List.append_nil past.exchanges).symm, List.forall_mem_nil _⟩
  | send r next ih =>
    obtain ⟨new, hnew, hconveyed⟩ := ih _ _
    exact ⟨_ :: new, hnew.trans (List.append_assoc ..),
      List.forall_mem_cons.mpr ⟨server.isConveyed_travel past.hops past.cookies r, hconveyed⟩⟩

namespace Talk

variable {α β : Type} {t : Talk α} {next : α → Talk β}
  {Q Q' : List Exchange → Except Fault α → Prop} {R : List Exchange → Except Fault β → Prop}

/-- Whether a talk ends so that its exchanges and its outcome are as said, whatever the server. -/
def Ends (t : Talk α) (Q : List Exchange → Except Fault α → Prop) : Prop :=
  ∀ (server : Server) (past : Record), ∃ new,
    (t.run.hold server past).2.exchanges = past.exchanges ++ new ∧ Q new (t.run.hold server past).1

/-- A talk ends in any way that is less precise. -/
theorem Ends.mono (h : Ends t Q) (himp : ∀ new outcome, Q new outcome → Q' new outcome) :
    Ends t Q' := by
  intro server past
  obtain ⟨new, hnew, hq⟩ := h server past
  exact ⟨new, hnew, himp _ _ hq⟩

/-- A talk that is over exchanges nothing. -/
theorem ends_pure {a : α} (h : Q [] (.ok a)) : Ends (pure a : Talk α) Q :=
  fun _ past => ⟨[], (List.append_nil past.exchanges).symm, h⟩

/-- A talk that has failed exchanges nothing more. -/
theorem ends_throw {e : Fault} (h : Q [] (.error e)) : Ends (throw e : Talk α) Q :=
  fun _ past => ⟨[], (List.append_nil past.exchanges).symm, h⟩

/-- A talk goes on behind a part of it that ends well, and ends where the part fails. -/
theorem Ends.bind (h : Ends t Q) (hfailed : ∀ new e, Q new (.error e) → R new (.error e))
    (hnext : ∀ new a, Q new (.ok a) → Ends (next a) fun later outcome => R (new ++ later) outcome) :
    Ends (t >>= next) R := by
  intro server past
  obtain ⟨new, hnew, hq⟩ := h server past
  have hhold : (t >>= next).run.hold server past =
      (ExceptT.bindCont next (t.run.hold server past).1).hold server
        (t.run.hold server past).2 :=
    Dialogue.hold_bind server t.run _ past
  rw [hhold]
  rcases houtcome : t.run.hold server past with ⟨e | a, record⟩
  · rw [houtcome] at hnew hq
    exact ⟨new, hnew, hfailed new e hq⟩
  · rw [houtcome] at hnew hq
    obtain ⟨later, hlater, hr⟩ := hnext new a hq server record
    refine ⟨new ++ later, ?_, hr⟩
    rw [← List.append_assoc, ← hnew]
    exact hlater

/-- The outcome of an attempt is that of the talk, and no failure of the attempt. -/
theorem Ends.attempt {P : List Exchange → Except Fault (Except Fault α) → Prop} (h : Ends t Q)
    (himp : ∀ new outcome, Q new outcome → P new (.ok outcome)) : Ends (attempt t) P := by
  intro server past
  obtain ⟨new, hnew, hq⟩ := h server past
  have hhold : (BuildServer.attempt t).run.hold server past =
      (.ok (t.run.hold server past).1, (t.run.hold server past).2) :=
    Dialogue.hold_bind server t.run _ past
  rw [hhold]
  exact ⟨new, hnew, himp _ _ hq⟩

/-- To go on with an earlier outcome exchanges nothing. -/
theorem ends_conclude {outcome : Except Fault α} (h : Q [] outcome) : Ends (conclude outcome) Q :=
  fun _ past => ⟨[], (List.append_nil past.exchanges).symm, h⟩

/-! ## Requests -/

variable {r : Request} {S : List Exchange → Except Fault Reply → Prop}

/-- A request makes one exchange, or none if it cannot be sent. -/
theorem ends_request
    (hsent : r.CanBeSent → ∀ x : Exchange, x.request = r → S [x] (.ok x.reply))
    (hunsent : ¬ r.CanBeSent → S [] (.ok .unreached)) :
    Ends (ExceptT.lift (Dialogue.request r)) S := by
  intro server past
  have hhold : (ExceptT.lift (Dialogue.request r) : Talk Reply).run.hold server past =
      (.ok ((Dialogue.request r).hold server past).1,
        ((Dialogue.request r).hold server past).2) :=
    Dialogue.hold_bind server (Dialogue.request r) _ past
  rw [hhold, Dialogue.request]
  by_cases hsendable : r.headers.all isSendable = true
  · rw [if_pos hsendable]
    exact ⟨[⟨r, _, _⟩], rfl, hsent (List.all_eq_true.mp hsendable) _ rfl⟩
  · rw [if_neg hsendable]
    exact ⟨[], (List.append_nil past.exchanges).symm,
      hunsent fun h => hsendable (List.all_eq_true.mpr h)⟩

end Talk

namespace Client

variable {α : Type} {o : Operation}

/-- An operation is answered by success, or fails by its reply, or its request cannot be sent. -/
theorem ends_exchange {r : Request} {Q : List Exchange → Except Fault (Option ByteArray) → Prop}
    (hok : r.CanBeSent → ∀ x : Exchange, x.request = r → ∀ status headers body,
      x.reply = .answered status headers body → isSuccess status = true → Q [x] (.ok body))
    (hfailed : r.CanBeSent → ∀ x : Exchange, x.request = r → ∀ e,
      x.reply.fault? o isSuccess = some e → Q [x] (.error e))
    (hunsent : ¬ r.CanBeSent → Q [] (.error (.noAnswer o))) : Talk.Ends (exchange o r) Q := by
  refine (Talk.ends_request (S := fun new outcome =>
    (r.CanBeSent ∧ ∃ x : Exchange, x.request = r ∧ new = [x] ∧ outcome = .ok x.reply) ∨
      ¬ r.CanBeSent ∧ new = [] ∧ outcome = .ok .unreached) ?_ ?_).bind ?_ ?_
  · exact fun hsend x hx => .inl ⟨hsend, x, hx, rfl, rfl⟩
  · exact fun hunsent => .inr ⟨hunsent, rfl, rfl⟩
  · rintro _ _ (⟨-, _, -, -, h⟩ | ⟨-, -, h⟩) <;> cases h
  · rintro _ _ (⟨hsend, x, hx, rfl, ⟨⟩⟩ | ⟨hno, rfl, ⟨⟩⟩)
    · have hfail {e : Fault} (h : x.reply.fault? o isSuccess = some e) := hfailed hsend x hx e h
      cases hreply : x.reply with
      | unreached => exact Talk.ends_throw (hfail (by rw [hreply]; rfl))
      | lost => exact Talk.ends_throw (hfail (by rw [hreply]; rfl))
      | answered status headers body =>
        by_cases hsuccess : isSuccess status = true
        · simp only [hsuccess, if_true]
          exact Talk.ends_pure (hok hsend x hx status headers body hreply hsuccess)
        · simp only [hsuccess]
          exact Talk.ends_throw (hfail (by rw [hreply, Reply.fault?, if_neg hsuccess]))
    · exact Talk.ends_throw (hunsent hno)

/-- A body is a document of the kind asked for, or the operation fails. -/
theorem ends_document {d : Document α} {body : Option ByteArray}
    {Q : List Exchange → Except Fault α → Prop}
    (hok : ∀ a, body.bind d.read? = some a → Q [] (.ok a))
    (hfailed : body.bind d.read? = none → Q [] (.error (.answer o .unreadable))) :
    Talk.Ends (document o d body) Q := by
  rw [document]
  cases hread : body.bind d.read? with
  | none => exact Talk.ends_throw (hfailed hread)
  | some a => exact Talk.ends_pure (hok a hread)

end Client
end PipelineManager.BuildServer
