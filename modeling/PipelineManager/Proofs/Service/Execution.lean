import PipelineManager.Service.Submission
import PipelineManager.Service.World

/-!
# How services are carried out

A service is carried out call by call against a state that answers them. The equations below
follow the way services are put together, so that a service is carried out stage by stage without
taking its program apart. Two ways of answering that agree on the calls a program asks for carry
it out alike.
-/

namespace PipelineManager

variable {α β σ τ : Type}

namespace Program

/-- A program that is followed by nothing is the program. -/
theorem bind_done (p : Program α) : p.bind done = p := by
  induction p with
  | done a => rfl
  | call c next ih => exact congrArg (call c) (funext ih)

/-- It makes no difference where a chain of programs is cut. -/
theorem bind_assoc {γ : Type} (p : Program α) (f : α → Program β) (g : β → Program γ) :
    (p.bind f).bind g = p.bind fun a => (f a).bind g := by
  induction p with
  | done a => rfl
  | call c next ih => exact congrArg (call c) (funext ih)

instance : LawfulMonad Program := LawfulMonad.mk' Program bind_done (fun _ _ => rfl) bind_assoc

/-! ## What a program asks for -/

/-- Whether a program asks only for calls with a property, whatever the answers are. -/
def Asks (P : Call → Prop) : Program α → Prop
  | done _ => True
  | call c next => P c ∧ ∀ r, (next r).Asks P

variable {P Q : Call → Prop}

/-- A program with another one behind it asks what both ask. -/
theorem Asks.bind {p : Program α} {next : α → Program β} (hp : p.Asks P)
    (hnext : ∀ a, (next a).Asks P) :
    (p.bind next).Asks P := by
  induction p with
  | done a => exact hnext a
  | call c answered ih => exact ⟨hp.1, fun r => ih r (hp.2 r)⟩

/-- What is asked by a program may be described more loosely. -/
theorem Asks.mono {p : Program α} (hp : p.Asks P) (h : ∀ c, P c → Q c) : p.Asks Q := by
  induction p with
  | done a => trivial
  | call c next ih => exact ⟨h c hp.1, fun r => ih r (hp.2 r)⟩

/-- A program asks something or other. -/
theorem asks_true (p : Program α) : p.Asks fun _ => True := by
  induction p with
  | done a => trivial
  | call c next ih => exact ⟨trivial, ih⟩

/-- A relation between states that every call keeps, with equal answers, is kept by a program. -/
theorem Asks.run_related {answer : (c : Call) → σ → c.Answer × σ}
    {answer' : (c : Call) → τ → c.Answer × τ} {related : σ → τ → Prop}
    (hstep : ∀ c s t,
      P c → related s t → (answer c s).1 = (answer' c t).1 ∧ related (answer c s).2 (answer' c t).2)
    {p : Program α} (hp : p.Asks P) {s : σ} {t : τ} (hst : related s t) :
    (p.run answer s).1 = (p.run answer' t).1 ∧ related (p.run answer s).2 (p.run answer' t).2 := by
  induction p generalizing s t with
  | done a => exact ⟨rfl, hst⟩
  | call c next ih =>
    obtain ⟨hanswer, hnext⟩ := hstep c s t hp.1 hst
    rw [run_call, run_call, hanswer]
    exact ih _ (hp.2 _) hnext

/-- What every call keeps, a program keeps. -/
theorem Asks.run_invariant {answer : (c : Call) → σ → c.Answer × σ} {holds : σ → Prop}
    (hstep : ∀ c s, P c → holds s → holds (answer c s).2) {p : Program α} (hp : p.Asks P) {s : σ}
    (hs : holds s) : holds (p.run answer s).2 := by
  induction p generalizing s with
  | done a => exact hs
  | call c next ih => exact ih _ (hp.2 _) (hstep c s hp.1 hs)

/-! ## What a program gives -/

/-- Whether every result of a program has a property, whatever the answers are. -/
def Gives (P : α → Prop) : Program α → Prop
  | done a => P a
  | call _ next => ∀ r, (next r).Gives P

/-- A program with another one behind it gives what that gives for its results. -/
theorem Gives.bind {R : α → Prop} {S : β → Prop} {p : Program α} {next : α → Program β}
    (hp : p.Gives R) (hnext : ∀ a, R a → (next a).Gives S) : (p.bind next).Gives S := by
  induction p with
  | done a => exact hnext a hp
  | call c answered ih => exact fun r => ih r (hp r)

/-- What a program gives whatever the answers are, it gives when it is carried out. -/
theorem Gives.run {R : α → Prop} {p : Program α} (hp : p.Gives R)
    (answer : (c : Call) → σ → c.Answer × σ) (s : σ) : R (p.run answer s).1 := by
  induction p generalizing s with
  | done a => exact hp
  | call c next ih => exact ih _ (hp _) _

end Program

namespace Service

/-! ## Equations -/

/-- Carries out a service. -/
def exec (answer : (c : Call) → σ → c.Answer × σ) (p : Service α) (s : σ) :
    Except ServiceError α × σ :=
  Program.run answer p.run s

variable (answer : (c : Call) → σ → c.Answer × σ) (s : σ)

/-- A call is answered, and its answer is the result. -/
@[simp] theorem exec_ask (c : Call) :
    exec answer (ask c) s = (.ok (answer c s).1, (answer c s).2) := rfl

/-- What follows is carried out after a success, and left out after a failure. -/
@[simp] theorem exec_bind (p : Service α) (next : α → Service β) :
    exec answer (p >>= next) s =
      match exec answer p s with
      | (.ok a, s') => exec answer (next a) s'
      | (.error e, s') => (.error e, s') := by
  have hbind : exec answer (p >>= next) s =
      Program.run answer (Program.bind p.run (ExceptT.bindCont next)) s := rfl
  rw [hbind, Program.run_bind]
  unfold exec
  rcases hp : Program.run answer p.run s with ⟨e | a, s'⟩ <;> rfl

/-- A service whose result is taken whole does not fail. -/
@[simp] theorem exec_result (p : Service α) :
    exec answer (result p) s = (.ok (exec answer p s).1, (exec answer p s).2) := by
  have hbind : exec answer (result p) s =
      Program.run answer (Program.bind p.run fun r => .done (.ok r)) s := rfl
  rw [hbind, Program.run_bind]
  rfl

/-- The result of a call on the store is gone on with, or is an error of the storage. -/
theorem exec_stored (r : Except Fault α) : exec answer (stored r) s = (r.mapError .storage, s) := by
  cases r <;> rfl

/-- A requirement that does not hold is an error. -/
theorem exec_require (holds : Bool) (e : ServiceError) :
    exec answer (require holds e) s = (if holds then .ok () else .error e, s) := by
  cases holds <;> rfl

/-! ## How a service ends -/

/-- What holds when a service has been carried out: `ok` after a success, `failed` after a
failure. -/
def Ends (answer : (c : Call) → σ → c.Answer × σ) (p : Service α) (s : σ) (ok : α → σ → Prop)
    (failed : ServiceError → σ → Prop) : Prop :=
  match exec answer p s with
  | (.ok a, s') => ok a s'
  | (.error e, s') => failed e s'

section Ends

variable {answer s} {ok : α → σ → Prop} {failed : ServiceError → σ → Prop}

/-- After a success, what follows is carried out. -/
theorem exec_bind_of_ok {p : Service α} {next : α → Service β} {a : α}
    (h : (exec answer p s).1 = .ok a) :
    exec answer (p >>= next) s = exec answer (next a) (exec answer p s).2 := by
  rcases hp : exec answer p s with ⟨_, s'⟩
  rw [hp] at h
  obtain rfl : _ = Except.ok a := h
  rw [exec_bind, hp]

/-- A service ends somehow. -/
theorem ends_true {p : Service α} : Ends answer p s (fun _ _ => True) fun _ _ => True := by
  unfold Ends
  split <;> trivial

/-- A service that only gives a result ends where it began. -/
theorem ends_pure {a : α} : Ends answer (pure a) s ok failed ↔ ok a s := Iff.rfl

/-- A service that begins with a call goes on where the call is answered. -/
theorem ends_ask_bind {c : Call} {next : c.Answer → Service α} :
    Ends answer (ask c >>= next) s ok failed ↔
      Ends answer (next (answer c s).1) (answer c s).2 ok failed := by
  rw [Ends, exec_bind, exec_ask]
  rfl

/-- A service with another one behind it ends where that does, or where it has failed itself. -/
theorem ends_bind {p : Service β} {next : β → Service α} :
    Ends answer (p >>= next) s ok failed ↔
      Ends answer p s (fun b s' => Ends answer (next b) s' ok failed) failed := by
  rw [Ends, Ends, exec_bind]
  rcases exec answer p s with ⟨e | b, s'⟩ <;> rfl

/-- A service whose result is taken whole is gone on with in either case. -/
theorem ends_result_bind {p : Service β} {next : Except ServiceError β → Service α} :
    Ends answer (result p >>= next) s ok failed ↔
      Ends answer p s (fun b s' => Ends answer (next (.ok b)) s' ok failed)
        (fun e s' => Ends answer (next (.error e)) s' ok failed) := by
  rw [Ends, Ends, exec_bind, exec_result]
  rcases exec answer p s with ⟨e | b, s'⟩ <;> rfl

/-- A stage that has gone well is gone on from. -/
theorem ends_stage_ok {runId : Int} {state : RunState} {a : α} :
    Ends answer (stage runId state (.ok a)) s ok failed ↔ ok a s := Iff.rfl

/-- A stage that has failed is reported as failed. -/
theorem ends_stage_error {runId : Int} {state : RunState} {e : ServiceError} :
    Ends answer (stage runId state (.error e)) s ok failed ↔
      Ends answer (failStage runId state e) s ok failed := Iff.rfl

/-- What the store has answered is gone on with. -/
theorem ends_stored_ok {a : α} : Ends answer (stored (.ok a)) s ok failed ↔ ok a s := Iff.rfl

/-- A requirement is met and gone on from, or it is where the service fails. -/
theorem ends_require_bind {holds : Bool} {e : ServiceError} {next : Unit → Service α}
    (h : holds = true → Ends answer (next ()) s ok failed) (hfailed : holds = false → failed e s) :
    Ends answer (require holds e >>= next) s ok failed := by
  cases holds with
  | true => exact h rfl
  | false => exact hfailed rfl

/-- How a service ends may be described more loosely. -/
theorem Ends.mono {p : Service α} {ok' : α → σ → Prop} {failed' : ServiceError → σ → Prop}
    (h : Ends answer p s ok failed) (hok : ∀ a s', ok a s' → ok' a s')
    (hfailed : ∀ e s', failed e s' → failed' e s') : Ends answer p s ok' failed' := by
  unfold Ends at *
  rcases hexec : exec answer p s with ⟨e | a, s'⟩ <;> rw [hexec] at h
  · exact hfailed e s' h
  · exact hok a s' h

/-- Two descriptions of how a service ends hold together. -/
theorem Ends.and {p : Service α} {ok' : α → σ → Prop} {failed' : ServiceError → σ → Prop}
    (h : Ends answer p s ok failed) (h' : Ends answer p s ok' failed') :
    Ends answer p s (fun a s' => ok a s' ∧ ok' a s') fun e s' => failed e s' ∧ failed' e s' := by
  unfold Ends at *
  rcases hexec : exec answer p s with ⟨e | a, s'⟩ <;> rw [hexec] at h h' <;> exact ⟨h, h'⟩

/-- A service goes on behind a part of it that ends well, and ends where the part fails. -/
theorem Ends.bind {p : Service β} {next : β → Service α} {between : β → σ → Prop}
    (h : Ends answer p s between failed)
    (hnext : ∀ b s', between b s' → Ends answer (next b) s' ok failed) :
    Ends answer (p >>= next) s ok failed :=
  ends_bind.mpr (h.mono hnext fun _ _ h' => h')

/-- What does not depend on how a service ends holds behind it. -/
theorem ends_iff {p : Service α} {holds : σ → Prop} :
    Ends answer p s (fun _ => holds) (fun _ => holds) ↔ holds (exec answer p s).2 := by
  unfold Ends
  rcases exec answer p s with ⟨e | a, s'⟩ <;> rfl

/-- A service whose result is known ends in what holds of that. -/
theorem Ends.of_ok {p : Service α} {a : α} (hresult : (exec answer p s).1 = .ok a)
    (h : ok a (exec answer p s).2) : Ends answer p s ok failed := by
  unfold Ends
  rcases hexec : exec answer p s with ⟨r, s'⟩
  rw [hexec] at hresult h
  obtain rfl : r = .ok a := hresult
  exact h

/-- What holds where a service succeeds holds of its result. -/
theorem Ends.of_result {p : Service α} {a : α} (h : Ends answer p s ok failed)
    (hresult : (exec answer p s).1 = .ok a) : ok a (exec answer p s).2 := by
  unfold Ends at h
  rcases hexec : exec answer p s with ⟨r, s'⟩
  rw [hexec] at h hresult
  obtain rfl : r = .ok a := hresult
  exact h

/-- What holds where a service fails holds of its error. -/
theorem Ends.of_failure {p : Service α} {e : ServiceError} (h : Ends answer p s ok failed)
    (hresult : (exec answer p s).1 = .error e) : failed e (exec answer p s).2 := by
  unfold Ends at h
  rcases hexec : exec answer p s with ⟨r, s'⟩
  rw [hexec] at h hresult
  obtain rfl : r = .error e := hresult
  exact h

/-- A service that never fails gives a result. -/
theorem Ends.succeeds {p : Service α} (h : Ends answer p s ok fun _ _ => False) :
    ∃ a, (exec answer p s).1 = .ok a ∧ ok a (exec answer p s).2 := by
  unfold Ends at h
  rcases hexec : exec answer p s with ⟨e | a, s'⟩ <;> rw [hexec] at h
  · exact h.elim
  · exact ⟨a, rfl, h⟩

/-- What holds in either end holds of the result. -/
theorem Ends.elim {p : Service α} {Q : Except ServiceError α → σ → Prop}
    (h : Ends answer p s (fun a => Q (.ok a)) fun e => Q (.error e)) :
    Q (exec answer p s).1 (exec answer p s).2 := by
  unfold Ends at h
  rcases hexec : exec answer p s with ⟨e | a, s'⟩ <;> rw [hexec] at h <;> exact h

end Ends

/-! ## What a service asks for -/

/-- Whether a service asks only for calls with a property. -/
def Asks (P : Call → Prop) (p : Service α) : Prop := p.run.Asks P

variable {P : Call → Prop}

/-- To give a result nothing is asked. -/
theorem asks_pure (a : α) : Asks P (pure a : Service α) := trivial

/-- To fail nothing is asked. -/
theorem asks_throw (e : ServiceError) : Asks P (throw e : Service α) := trivial

/-- A call asks itself alone. -/
theorem asks_ask {c : Call} (h : P c) : Asks P (ask c) := ⟨h, fun _ => trivial⟩

/-- A service with another one behind it asks what both ask. -/
theorem asks_bind {p : Service α} {next : α → Service β} (hp : Asks P p)
    (hnext : ∀ a, Asks P (next a)) :
    Asks P (p >>= next) := by
  refine Program.Asks.bind hp fun r => ?_
  cases r with
  | ok a => exact hnext a
  | error e => trivial

/-- To look at what the store has answered nothing is asked. -/
theorem asks_stored (r : Except Fault α) : Asks P (stored r) := by cases r <;> trivial

/-- To require something nothing is asked. -/
theorem asks_require (holds : Bool) (e : ServiceError) : Asks P (require holds e) := by
  cases holds <;> trivial

/-- To take the result of a service whole asks what the service asks. -/
theorem asks_result {p : Service α} (hp : Asks P p) : Asks P (result p) :=
  Program.Asks.bind hp fun _ => trivial

/-! ## How a service fails -/

/-- Whether a service fails only with errors that have a property. -/
def FailsOnly (R : ServiceError → Prop) (p : Service α) : Prop :=
  p.run.Gives fun r => ∀ e, r = .error e → R e

section FailsOnly

variable {R : ServiceError → Prop}

/-- A service ends in one of the errors that it may fail with, or succeeds. -/
theorem FailsOnly.ends {p : Service α} (hp : FailsOnly R p) {answer : (c : Call) → σ → c.Answer × σ}
    {s : σ} :
    Ends answer p s (fun _ _ => True) fun e _ => R e := by
  unfold Ends
  rcases hexec : exec answer p s with ⟨e | a, s'⟩
  · exact Program.Gives.run hp answer s e (congrArg Prod.fst hexec)
  · trivial

/-- A service that only gives a result does not fail. -/
theorem failsOnly_pure (a : α) : FailsOnly R (pure a : Service α) := fun _ h => by cases h

/-- A service that throws an error fails with it. -/
theorem failsOnly_throw {e : ServiceError} (h : R e) : FailsOnly R (throw e : Service α) :=
  fun _ he => Except.error.inj he ▸ h

/-- A call whose answer is given as it is does not fail. -/
theorem failsOnly_ask (c : Call) : FailsOnly R (ask c) := fun _ _ h => by cases h

/-- A service with another one behind it fails as one of both. -/
theorem failsOnly_bind {p : Service α} {next : α → Service β} (hp : FailsOnly R p)
    (hnext : ∀ a, FailsOnly R (next a)) : FailsOnly R (p >>= next) := by
  refine Program.Gives.bind hp fun r hr => ?_
  cases r with
  | ok a => exact hnext a
  | error e => exact fun _ he => Except.error.inj he ▸ hr e rfl

/-- What the store has answered may be an error of the storage. -/
theorem failsOnly_stored (h : ∀ cause, R (.storage cause)) (r : Except Fault α) :
    FailsOnly R (stored r) := by
  cases r with
  | ok a => exact failsOnly_pure a
  | error cause => exact failsOnly_throw (h cause)

/-- What follows a result that is looked at may fail with its error. -/
theorem failsOnly_result_bind {p : Service β} {next : Except ServiceError β → Service α}
    (hp : FailsOnly R p) (hnext : ∀ r, (∀ e, r = .error e → R e) → FailsOnly R (next r)) :
    FailsOnly R (result p >>= next) := by
  have hresult : (result p).run.Gives fun r => ∃ r', r = .ok r' ∧ ∀ e, r' = .error e → R e :=
    Program.Gives.bind hp fun r hr => ⟨r, rfl, hr⟩
  refine Program.Gives.bind hresult ?_
  rintro _ ⟨r, rfl, hr⟩
  exact hnext r hr

end FailsOnly

end Service
end PipelineManager
