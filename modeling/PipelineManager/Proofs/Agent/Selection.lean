import Mathlib.Data.List.Nodup
import Mathlib.Data.Prod.Lex
import PipelineManager.Proofs.Service.Execution
import PipelineManager.Service.Submission

/-!
# Choosing an agent

Agents are sorted by their ids and the first of the least busy ones is taken, which is the least one
in the order of active jobs and then ids. It is the only one if the ids are distinct, so that the
order in which the agents are listed makes no difference.
-/

namespace PipelineManager.Selection

/-! ## The first of the least busy agents -/

/-- Where an agent stands among others: by its active jobs, and by its id among equally
busy ones. -/
def rank (x : Agent × Probe) : ℕ ×ₗ ℤ := toLex (x.2.activeJobs, x.1.id)

/-- The less busy of two agents ranks no higher than either. -/
theorem rank_lessBusy_le {x y : Agent × Probe} (h : x.1.id ≤ y.1.id) :
    rank (lessBusy x y) ≤ rank x ∧ rank (lessBusy x y) ≤ rank y := by
  rw [lessBusy]
  split
  · next hjobs => exact ⟨Prod.Lex.toLex_le_toLex.mpr (Or.inl hjobs), le_rfl⟩
  · next hjobs =>
    refine ⟨le_rfl, Prod.Lex.toLex_le_toLex.mpr ?_⟩
    rcases (not_lt.mp hjobs).lt_or_eq with hlt | heq
    · exact Or.inl hlt
    · exact Or.inr ⟨heq, h⟩

/-- The less busy of two agents is one of them. -/
theorem lessBusy_eq_or (x y : Agent × Probe) : lessBusy x y = x ∨ lessBusy x y = y := by
  rw [lessBusy]
  split
  · exact Or.inr rfl
  · exact Or.inl rfl

/-- Whoever is taken so far comes before the rest, so that it is kept only if it ranks
before them. -/
theorem foldl_lessBusy_least {x : Agent × Probe} {rest : List (Agent × Probe)}
    (hsorted : (x :: rest).Pairwise fun y z => y.1.id ≤ z.1.id) :
    rest.foldl lessBusy x ∈ x :: rest ∧ ∀ y ∈ x :: rest, rank (rest.foldl lessBusy x) ≤ rank y := by
  induction rest generalizing x with
  | nil => simp
  | cons y rest ih =>
    obtain ⟨hx, hrest⟩ := List.pairwise_cons.mp hsorted
    obtain ⟨hxy, hx⟩ := List.forall_mem_cons.mp hx
    obtain ⟨hy, hrest⟩ := List.pairwise_cons.mp hrest
    have hbefore : ∀ z ∈ rest, (lessBusy x y).1.id ≤ z.1.id := by
      rcases lessBusy_eq_or x y with heq | heq <;> rw [heq]
      · exact hx
      · exact hy
    obtain ⟨hmem, hleast⟩ := ih (List.pairwise_cons.mpr ⟨hbefore, hrest⟩)
    obtain ⟨hfirst, hothers⟩ := List.forall_mem_cons.mp hleast
    obtain ⟨hrankx, hranky⟩ := rank_lessBusy_le hxy
    rw [List.foldl_cons]
    constructor
    · rcases List.mem_cons.mp hmem with hmem | hmem
      · rw [hmem]
        rcases lessBusy_eq_or x y with heq | heq <;> simp [heq]
      · exact List.mem_cons_of_mem _ (List.mem_cons_of_mem _ hmem)
    · simp only [List.forall_mem_cons]
      exact ⟨hfirst.trans hrankx, hfirst.trans hranky, hothers⟩

/-- There is no least busy agent iff there are none. -/
theorem leastBusy?_eq_none_iff {xs : List (Agent × Probe)} : leastBusy? xs = none ↔ xs = [] := by
  cases xs <;> simp [leastBusy?]

/-- No agent is chosen when none has answered that it can be reached. -/
theorem unreachable_of_selectAgent {xs : List (Agent × Option Probe)} (h : selectAgent xs = none) :
    ∀ x ∈ xs, ∀ p ∈ x.2, p.reachable = false := by
  intro x hx p hp
  have hnone := List.filter_eq_nil_iff.mp (leastBusy?_eq_none_iff.mp h)
  have hmem : (x.1, x.2.getD .unreachable) ∈
      (xs.mergeSort fun a b => a.1.id ≤ b.1.id).map fun a => (a.1, a.2.getD .unreachable) :=
    List.mem_map_of_mem (List.mem_mergeSort.mpr hx)
  rw [Option.mem_def.mp hp, Option.getD_some] at hmem
  simpa using hnone _ hmem

/-- The least busy of agents in the order of their ids ranks least. -/
theorem leastBusy?_least {xs : List (Agent × Probe)} {x : Agent × Probe}
    (hsorted : xs.Pairwise fun y z => y.1.id ≤ z.1.id) (h : leastBusy? xs = some x) :
    x ∈ xs ∧ ∀ y ∈ xs, rank x ≤ rank y := by
  cases xs with
  | nil => cases h
  | cons y rest =>
    obtain rfl := Option.some.inj h
    exact foldl_lessBusy_least hsorted

/-! ## Probed agents -/

/-- Agents with the answers to their probes, none where an answer does not come in time. -/
def probed (outcome : Agent → Option Probe) (agents : List Agent) : List (Agent × Option Probe) :=
  agents.map fun a => (a, outcome a)

/-- Each agent is probed, and its answer is kept with it. -/
theorem exec_probeAll {σ : Type} {answer : (c : Call) → σ → c.Answer × σ} {s : σ}
    {outcome : Agent → Option Probe} {agents : List Agent}
    (hanswer : ∀ a ∈ agents, answer (.probe a) s = (outcome a, s)) :
    Service.exec answer (probeAll agents) s = (.ok (probed outcome agents), s) := by
  induction agents with
  | nil => rfl
  | cons a rest ih =>
    obtain ⟨ha, hrest⟩ := List.forall_mem_cons.mp hanswer
    rw [probeAll, Service.exec_bind, Service.exec_ask, ha]
    dsimp only
    rw [Service.exec_bind, ih hrest]
    rfl

variable {outcome : Agent → Option Probe} {agents : List Agent} {a : Agent} {p : Probe}

/-- An agent that answers as reachable in time. -/
structure Responds (outcome : Agent → Option Probe) (a : Agent) (p : Probe) : Prop where
  answered : outcome a = some p
  reachable : p.reachable = true

/-- The agents that answer as reachable, in the order of their ids. -/
def responding (outcome : Agent → Option Probe) (agents : List Agent) : List (Agent × Probe) :=
  (((probed outcome agents).mergeSort fun a b => a.1.id ≤ b.1.id).map fun a =>
    (a.1, a.2.getD .unreachable)).filter fun a => a.2.reachable

/-- The agents that are considered are those that respond. -/
theorem mem_responding_iff :
    (a, p) ∈ responding outcome agents ↔ a ∈ agents ∧ Responds outcome a p := by
  simp only [responding, probed, List.mem_filter, List.mem_map, List.mem_mergeSort]
  constructor
  · rintro ⟨⟨_, ⟨b, hb, rfl⟩, heq⟩, hreachable⟩
    obtain ⟨rfl, hp⟩ := Prod.mk.inj heq
    refine ⟨hb, ?_, hreachable⟩
    cases houtcome : outcome b with
    | none =>
      rw [houtcome] at hp
      obtain rfl : Probe.unreachable = p := hp
      cases hreachable
    | some q =>
      rw [houtcome] at hp
      exact congrArg some hp
  · rintro ⟨ha, hanswered, hreachable⟩
    exact ⟨⟨_, ⟨a, ha, rfl⟩, by rw [hanswered, Option.getD_some]⟩, hreachable⟩

/-- The agents that are considered are in the order of their ids. -/
theorem responding_sorted : (responding outcome agents).Pairwise fun x y => x.1.id ≤ y.1.id := by
  have hsorted : ((probed outcome agents).mergeSort fun a b => a.1.id ≤ b.1.id).Pairwise
      fun a b => decide (a.1.id ≤ b.1.id) = true :=
    List.pairwise_mergeSort (fun a b c hab hbc => by simp only [decide_eq_true_eq] at *; omega)
      (fun a b => by simp only [Bool.or_eq_true, decide_eq_true_eq]; omega) _
  refine (List.Pairwise.map _ (fun x y hxy => ?_) hsorted).filter _
  exact of_decide_eq_true hxy

/-! ## The choice -/

/-- The agent that answers as reachable and ranks before all others that do, with its own answer. -/
structure IsLeastBusy (outcome : Agent → Option Probe) (agents : List Agent) (a : Agent)
    (p : Probe) : Prop where
  listed : a ∈ agents
  responds : Responds outcome a p
  least : ∀ b ∈ agents, ∀ q,
    Responds outcome b q → toLex (p.activeJobs, a.id) ≤ toLex (q.activeJobs, b.id)

/-- No agent is selected iff none responds. -/
theorem selectAgent_eq_none_iff :
    selectAgent (probed outcome agents) = none ↔ ∀ a ∈ agents, ∀ p, ¬ Responds outcome a p := by
  have hselect : selectAgent (probed outcome agents) = leastBusy? (responding outcome agents) := rfl
  rw [hselect, leastBusy?_eq_none_iff, List.eq_nil_iff_forall_not_mem]
  constructor
  · exact fun h a ha p hp => h (a, p) (mem_responding_iff.mpr ⟨ha, hp⟩)
  · exact fun h x hx => h x.1 (mem_responding_iff.mp hx).1 x.2 (mem_responding_iff.mp hx).2

/-- The agent that is selected is the least busy. -/
theorem isLeastBusy_of_selectAgent (h : selectAgent (probed outcome agents) = some (a, p)) :
    IsLeastBusy outcome agents a p := by
  obtain ⟨hmem, hleast⟩ := leastBusy?_least responding_sorted h
  obtain ⟨ha, hp⟩ := mem_responding_iff.mp hmem
  exact ⟨ha, hp, fun b hb q hq => hleast (b, q) (mem_responding_iff.mpr ⟨hb, hq⟩)⟩

/-- Agents with different ids do not rank alike. -/
theorem IsLeastBusy.unique {b : Agent} {q : Probe} (hdistinct : (agents.map (·.id)).Nodup)
    (h : IsLeastBusy outcome agents a p) (h' : IsLeastBusy outcome agents b q) : a = b ∧ p = q := by
  have hrank := (h.least b h'.listed q h'.responds).antisymm (h'.least a h.listed p h.responds)
  have hid : a.id = b.id := congrArg Prod.snd (toLex.injective hrank)
  obtain rfl := List.inj_on_of_nodup_map hdistinct h.listed h'.listed hid
  exact ⟨rfl, Option.some.inj (h.responds.answered.symm.trans h'.responds.answered)⟩

/-- Among agents with distinct ids, the one selected is the least busy and no other. -/
theorem selectAgent_eq_some_iff (hdistinct : (agents.map (·.id)).Nodup) :
    selectAgent (probed outcome agents) = some (a, p) ↔ IsLeastBusy outcome agents a p := by
  refine ⟨isLeastBusy_of_selectAgent, fun h => ?_⟩
  cases hselected : selectAgent (probed outcome agents) with
  | none => exact absurd h.responds (selectAgent_eq_none_iff.mp hselected a h.listed p)
  | some x =>
    obtain ⟨rfl, rfl⟩ := (isLeastBusy_of_selectAgent hselected).unique hdistinct h
    rfl

/-- Which agent is least busy does not depend on their order. -/
theorem isLeastBusy_perm {agents' : List Agent} (h : agents.Perm agents') :
    IsLeastBusy outcome agents' a p ↔ IsLeastBusy outcome agents a p := by
  constructor
  · rintro ⟨ha, hp, hleast⟩
    exact ⟨h.mem_iff.mpr ha, hp, fun b hb => hleast b (h.mem_iff.mp hb)⟩
  · rintro ⟨ha, hp, hleast⟩
    exact ⟨h.mem_iff.mp ha, hp, fun b hb => hleast b (h.mem_iff.mpr hb)⟩

/-- Of agents with distinct ids, none is chosen exactly if none answers as reachable in time, and
otherwise the least one in the order of active jobs and then ids, with its own answer. The order in
which the agents are listed makes no difference. Probing the agents one after the other gives each
its own answer. -/
theorem selectAgent_least (outcome : Agent → Option Probe) (agents : List Agent)
    (hdistinct : (agents.map (·.id)).Nodup) :
    (∀ (σ : Type) (answer : (c : Call) → σ → c.Answer × σ) (s : σ),
      (∀ a ∈ agents, answer (.probe a) s = (outcome a, s)) →
        Service.exec answer (probeAll agents) s = (.ok (probed outcome agents), s)) ∧
    (selectAgent (probed outcome agents) = none ↔ ∀ a ∈ agents, ∀ p, ¬ Responds outcome a p) ∧
    (∀ a p, selectAgent (probed outcome agents) = some (a, p) ↔ IsLeastBusy outcome agents a p) ∧
    ∀ agents', agents.Perm agents' →
      selectAgent (probed outcome agents') = selectAgent (probed outcome agents) := by
  refine ⟨fun _ _ _ => exec_probeAll, selectAgent_eq_none_iff,
    fun a p => selectAgent_eq_some_iff hdistinct, fun agents' hperm => Option.ext fun ⟨a, p⟩ => ?_⟩
  have hdistinct' : (agents'.map (·.id)).Nodup := (hperm.map _).nodup_iff.mp hdistinct
  rw [selectAgent_eq_some_iff hdistinct', selectAgent_eq_some_iff hdistinct, isLeastBusy_perm hperm]

/-- An agent of a testbed, by its id. -/
def numberedAgent (id : Int) : Agent := ⟨id, "testbed", "http://agent", "admin", "secret"⟩

/-- The first agent is busy and the last one does not answer in time. -/
def mixedAnswers (a : Agent) : Option Probe :=
  if a.id = 1 then some ⟨true, 2⟩ else if a.id = 4 then none else some ⟨true, 0⟩

/-- Of the two idle agents the one with the lower id is taken. -/
theorem selectAgent_least_four :
    ([4, 3, 1, 2].map numberedAgent |>.map (·.id)).Nodup ∧
      selectAgent (probed mixedAnswers ([4, 3, 1, 2].map numberedAgent)) =
        some (numberedAgent 2, ⟨true, 0⟩) ∧
      selectAgent (probed mixedAnswers ([1, 2, 3, 4].map numberedAgent)) =
        selectAgent (probed mixedAnswers ([4, 3, 1, 2].map numberedAgent)) := by
  have hdistinct : ([4, 3, 1, 2].map numberedAgent |>.map (·.id)).Nodup := by decide
  have hleast :
      IsLeastBusy mixedAnswers ([4, 3, 1, 2].map numberedAgent) (numberedAgent 2) ⟨true, 0⟩ := by
    have hanswers : ∀ id ∈ [4, 3, 1, 2], ∀ q, mixedAnswers (numberedAgent id) = some q →
        toLex (0, 2) ≤ toLex (q.activeJobs, id) := by
      simp [mixedAnswers, numberedAgent, Prod.Lex.toLex_le_toLex]
    exact ⟨by decide, ⟨rfl, rfl⟩,
      List.forall_mem_map.mpr fun id hid q hq => hanswers id hid q hq.answered⟩
  have hreordered : ([4, 3, 1, 2].map numberedAgent).Perm ([1, 2, 3, 4].map numberedAgent) :=
    List.Perm.map _ (by decide)
  obtain ⟨-, -, hselects, hperm⟩ :=
    selectAgent_least mixedAnswers ([4, 3, 1, 2].map numberedAgent) hdistinct
  exact ⟨hdistinct, (hselects _ _).mpr hleast, hperm _ hreordered⟩

end PipelineManager.Selection
