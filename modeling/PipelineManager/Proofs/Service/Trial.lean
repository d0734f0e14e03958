import PipelineManager.Proofs.Service.Execution

/-!
# Trials

A trial carries out a service while calls go wrong by a plan: the fleet, the control plane of an
agent and the runs of the store may fail at any call, whatever the world would have answered. A
call on a control plane may also fail late, when it has already had its effect. A trial remembers
the calls made, with the store each of them met.
-/

namespace PipelineManager

/-- How a call goes wrong. -/
structure Mishap where
  cause : Fault
  late : Bool

namespace Call

/-- The answer of a call that goes wrong, of those that can. A probe that fails has no answer. -/
def failing? (cause : Fault) : (c : Call) → Option c.Answer
  | createRun _ | run _ | setRunAgent _ _ | setCommunicationToken _ _ | setJob _ _ _
  | setResultLocations _ _ _ | addRunTest _ _ | runTests _ | recordTestResult _ _ _ _ =>
    some (.error cause)
  | agentsOf _ | agent _ => some (.error cause)
  | createCredential _ _ _ _ | submitJob _ _ _ | startJob _ _ | lastBuildNumber _ _
  | fetchLog _ _ _ => some (.error cause)
  | probe _ => some none
  | testbed _ | tests _ | appendStatus _ _ _ | statusLog _ | upload _ _ | download _ | holds _
  | newAccessToken | newCommunicationToken _ => none

/-- Whether a call may fail when it has already had its effect. -/
def canFailLate : Call → Bool
  | createCredential _ _ _ _ | submitJob _ _ _ | startJob _ _ => true
  | _ => false

/-- The failure that the result of a call tells of. -/
def faultOf? {α : Type} : Except Fault α → Option Fault
  | .ok _ => none
  | .error e => some e

/-- The failure that an answer tells of. -/
def fault? : (c : Call) → c.Answer → Option Fault
  | statusLog _, r => faultOf? r
  | createRun _, r => faultOf? r
  | run _, r => faultOf? r
  | setRunAgent _ _, r => faultOf? r
  | setCommunicationToken _ _, r => faultOf? r
  | setJob _ _ _, r => faultOf? r
  | setResultLocations _ _ _, r => faultOf? r
  | addRunTest _ _, r => faultOf? r
  | runTests _, r => faultOf? r
  | recordTestResult _ _ _ _, r => faultOf? r
  | agentsOf _, r => faultOf? r
  | agent _, r => faultOf? r
  | createCredential _ _ _ _, r => faultOf? r
  | submitJob _ _ _, r => faultOf? r
  | startJob _ _, r => faultOf? r
  | lastBuildNumber _ _, r => faultOf? r
  | fetchLog _ _ _, r => faultOf? r
  | upload _ _, r => faultOf? r
  | download _, r => faultOf? r
  | holds _, r => faultOf? r
  | testbed _, _ | tests _, _ | appendStatus _ _ _, _ | probe _, _ | newAccessToken, _
  | newCommunicationToken _, _ => none

end Call

/-- The answer to a call that may go wrong, and the world after it. -/
def World.answerWith (mishap : Option Mishap) (c : Call) (w : World) : c.Answer × World :=
  match mishap with
  | none => w.answer c
  | some x =>
    match c.failing? x.cause with
    | none => w.answer c
    | some failed => (failed, if x.late && c.canFailLate then (w.answer c).2 else w)

/-- A call that was made, the store it met, and its answer. -/
structure Exchange where
  store : Store
  call : Call
  answer : call.Answer

/-- The failure that a call was answered with. -/
def Exchange.fault (x : Exchange) : Option Fault := x.call.fault? x.answer

/-- A world, and the calls made on it so far. -/
structure Trial where
  world : World
  past : List Exchange := []

namespace Trial

/-- The answer to a call in a trial. The plan tells which call, counted from 0 on, goes wrong. -/
def answer (plan : Nat → Option Mishap) (c : Call) (t : Trial) : c.Answer × Trial :=
  let r := t.world.answerWith (plan t.past.length) c
  (r.1, { world := r.2, past := t.past ++ [⟨t.world.store, c, r.1⟩] })

variable (plan : Nat → Option Mishap)

/-- The answer of a trial is that of its world with the mishap due. -/
theorem answer_fst (c : Call) (t : Trial) :
    (answer plan c t).1 = (t.world.answerWith (plan t.past.length) c).1 := rfl

/-- The world after a call of a trial. -/
theorem world_answer (c : Call) (t : Trial) :
    (answer plan c t).2.world = (t.world.answerWith (plan t.past.length) c).2 := rfl

/-- The call is the last of the past. -/
theorem past_answer (c : Call) (t : Trial) :
    (answer plan c t).2.past = t.past ++ [⟨t.world.store, c, (answer plan c t).1⟩] := rfl

/-- What holds of the calls before and of a new one holds of all calls then. -/
theorem forall_past_answer {P : Exchange → Prop} {c : Call} {t : Trial} (hpast : ∀ x ∈ t.past, P x)
    (hnew : P ⟨t.world.store, c, (answer plan c t).1⟩) :
    ∀ x ∈ (answer plan c t).2.past, P x := by
  intro x hx
  rw [past_answer] at hx
  rcases List.mem_append.mp hx with hx | hx
  · exact hpast x hx
  · rw [List.mem_singleton.mp hx]
    exact hnew

/-- Calls that cannot go wrong are answered by the world. -/
theorem answerWith_of_failing?_eq_none {c : Call} (hc : ∀ cause, c.failing? cause = none)
    (mishap : Option Mishap) (w : World) : w.answerWith mishap c = w.answer c := by
  cases mishap with
  | none => rfl
  | some x => simp [World.answerWith, hc x.cause]

/-- What every call of a service keeps of the world holds when the service has ended. -/
theorem ends_of_asks {α : Type} {P : Call → Prop} {p : Service α} (hp : Service.Asks P p)
    {holds : World → Prop} (hstep : ∀ c mishap w, P c → holds w → holds (w.answerWith mishap c).2)
    {t : Trial} (ht : holds t.world) :
    Service.Ends (answer plan) p t (fun _ t' => holds t'.world) fun _ t' => holds t'.world := by
  have htrial : ∀ c (t : Trial), P c → holds t.world → holds (answer plan c t).2.world :=
    fun c t hc ht => hstep c _ t.world hc ht
  exact Service.ends_iff.mpr (hp.run_invariant htrial ht)

/-! ## Trials without mishaps -/

/-- When nothing goes wrong, a trial is what the world makes of the service. -/
theorem exec_undisturbed {α : Type} (p : Service α) (t : Trial) :
    (Service.exec (answer fun _ => none) p t).1 = (Service.exec World.answer p t.world).1 ∧
      (Service.exec (answer fun _ => none) p t).2.world =
        (Service.exec World.answer p t.world).2 := by
  have hstep : ∀ (c : Call) (t : Trial) (w : World), True → t.world = w →
      (answer (fun _ => none) c t).1 = (World.answer c w).1 ∧
        (answer (fun _ => none) c t).2.world = (World.answer c w).2 := by
    rintro c t _ - rfl
    exact ⟨rfl, rfl⟩
  exact (Program.asks_true p.run).run_related hstep rfl

end Trial

/-! ## Checks -/

/-- Whether a call is one of a check, which only looks at the catalogue and the warehouse. -/
def Call.IsLook : Call → Prop
  | .testbed _ | .tests _ | .holds _ => True
  | _ => False

namespace Trial

/-- A look never goes wrong, and leaves the world as it is. -/
theorem answer_look (plan : Nat → Option Mishap) {c : Call} (hc : c.IsLook) (t : Trial) :
    (answer plan c t).1 = (World.answer c t.world).1 ∧ (answer plan c t).2.world = t.world ∧
      (World.answer c t.world).2 = t.world := by
  cases c <;> first
    | exact absurd hc id
    | (rw [answer_fst, world_answer, answerWith_of_failing?_eq_none fun _ => rfl]
       exact ⟨rfl, rfl, rfl⟩)

end Trial

/-- Requiring archives asks only for a look. -/
theorem asks_requireArchives (netappId : String) (tests : List ExecutedTest) :
    Service.Asks Call.IsLook (requireArchives netappId tests) := by
  induction tests with
  | nil => exact Service.asks_pure ()
  | cons t rest ih =>
    by_cases h : t.isDeveloperDefined
    · simp only [requireArchives, h, if_true]
      refine Service.asks_bind (Service.asks_ask trivial) fun answer => ?_
      refine Service.asks_bind (Service.asks_stored answer) fun found => ?_
      exact Service.asks_bind (Service.asks_require found _) fun _ => ih
    · simp only [requireArchives, h]
      exact ih

/-- A check only looks. -/
theorem Manager.asks_check (m : Manager) (d : Descriptor) :
    Service.Asks Call.IsLook (m.check d) := by
  refine Service.asks_bind (Service.asks_ask trivial) fun testbed => ?_
  refine Service.asks_bind (Service.asks_require _ _) fun _ => ?_
  refine Service.asks_bind (Service.asks_ask trivial) fun tests => ?_
  refine Service.asks_bind (Service.asks_require _ _) fun _ => ?_
  refine Service.asks_bind (Service.asks_require _ _) fun _ => ?_
  refine Service.asks_bind (asks_requireArchives _ _) fun _ => ?_
  exact Service.asks_pure _

end PipelineManager
