import PipelineManager.Proofs.Store.Catalogue
import PipelineManager.Proofs.Store.StatusLog
import PipelineManager.Proofs.Text.Trimming

/-!
# The relations between the tables

Rows refer to rows of other tables, and no two rows of a table share a key. An operation adds at
most one row to a table, whose key is new and which refers to rows that are there, and it leaves
what the other rows are known by. So the relations between the tables hold after any history,
rows keep their identifiers for good, and an operation is refused exactly when its row would
break a relation.
-/

namespace PipelineManager

/-! ## Tables that grow -/

namespace Table

variable {α κ : Type} {fixed : α → α} {New : α → Prop} {rows rows' : List α}

/-- Whether rows are numbered from 1 on. -/
def Numbered (id : α → Int) (rows : List α) : Prop :=
  rows.map id = (List.range rows.length).map fun (i : Nat) => (i : Int) + 1

/-- How a table changes that keeps what is fixed of its rows: in the rest of the rows, or by a new
row behind them. -/
inductive Grows (fixed : α → α) (New : α → Prop) (rows : List α) : List α → Prop
  | kept {rows' : List α} (h : rows'.map fixed = rows.map fixed) : Grows fixed New rows rows'
  | added (row : α) (h : New row) : Grows fixed New rows (rows ++ [row])

/-- No two numbered rows share a number. -/
theorem Numbered.nodup {id : α → Int} (h : Numbered id rows) : (rows.map id).Nodup := by
  rw [h]
  refine List.nodup_range.map fun i j hij => ?_
  have hsucc : (i : Int) + 1 = j + 1 := hij
  omega

/-- What is fixed of the rows stays at its place. -/
theorem Grows.isPrefix (h : Grows fixed New rows rows') : rows.map fixed <+: rows'.map fixed := by
  cases h with
  | kept h => exact h ▸ List.prefix_rfl
  | added row _ => exact ⟨[fixed row], by rw [List.map_append, List.map_singleton]⟩

/-- What holds of the rows by what is fixed of them, and of new rows, holds of the grown table. -/
theorem Grows.forall_mem {P : α → Prop} (h : Grows fixed New rows rows')
    (hP : ∀ a, P (fixed a) ↔ P a) (hrows : ∀ a ∈ rows, P a) (hnew : ∀ a, New a → P a) :
    ∀ a ∈ rows', P a := by
  cases h with
  | kept h =>
    intro a ha
    have hfixed : fixed a ∈ rows.map fixed := h ▸ List.mem_map_of_mem ha
    obtain ⟨b, hb, heq⟩ := List.mem_map.mp hfixed
    exact (hP a).mp (heq ▸ (hP b).mpr (hrows b hb))
  | added row hrow =>
    intro a ha
    rcases List.mem_append.mp ha with ha | ha
    · exact hrows a ha
    · exact List.mem_singleton.mp ha ▸ hnew row hrow

/-- A key that is fixed stays as it is. -/
theorem Grows.map_eq {key : α → κ} (hkey : ∀ a, key (fixed a) = key a)
    (h : rows'.map fixed = rows.map fixed) :
    rows'.map key = rows.map key := by
  have hfactor : key = key ∘ fixed := funext fun a => (hkey a).symm
  rw [hfactor, ← List.map_map, h, List.map_map]

/-- A key of what is fixed stays a key when new rows have new keys. -/
theorem Grows.nodup {key : α → κ} (h : Grows fixed New rows rows')
    (hkey : ∀ a, key (fixed a) = key a) (hrows : (rows.map key).Nodup)
    (hnew : ∀ a, New a → ∀ b ∈ rows, key b ≠ key a) : (rows'.map key).Nodup := by
  cases h with
  | kept h => rwa [map_eq hkey h]
  | added row hrow =>
    rw [List.map_append, List.nodup_append]
    refine ⟨hrows, List.nodup_singleton _, ?_⟩
    intro k hk k' hk'
    obtain ⟨b, hb, rfl⟩ := List.mem_map.mp hk
    rw [List.map_singleton, List.mem_singleton] at hk'
    rw [hk']
    exact hnew row hrow b hb

/-- No key of what is fixed is lost. -/
theorem Grows.map_subset {key : α → κ} (h : Grows fixed New rows rows')
    (hkey : ∀ a, key (fixed a) = key a) :
    rows.map key ⊆ rows'.map key := by
  cases h with
  | kept h => rw [map_eq hkey h]; exact List.Subset.refl _
  | added row _ => rw [List.map_append]; exact List.subset_append_left _ _

/-- Rows stay numbered when each new one gets the next number. -/
theorem Grows.numbered {id : α → Int} (h : Grows fixed New rows rows')
    (hid : ∀ a, id (fixed a) = id a) (hrows : Numbered id rows)
    (hnew : ∀ a, New a → id a = rows.length + 1) : Numbered id rows' := by
  cases h with
  | kept h =>
    have hlength : rows'.length = rows.length := by simpa using congrArg List.length h
    rw [Numbered, map_eq hid h, hlength]
    exact hrows
  | added row hrow =>
    rw [Numbered, List.map_append, List.map_singleton, hrows, hnew row hrow, List.length_append,
      List.length_singleton, List.range_succ, List.map_append, List.map_singleton]

/-- Pairs are keys when their second parts are keys among the rows of each first part. -/
theorem nodup_map_pair {ι : Type} [DecidableEq κ] {f : α → κ} {g : α → ι}
    (h : ∀ k, ((rows.filter fun r => f r = k).map g).Nodup) :
    (rows.map fun r => (f r, g r)).Nodup := by
  induction rows with
  | nil => exact List.nodup_nil
  | cons r rest ih =>
    rw [List.map_cons, List.nodup_cons]
    constructor
    · intro hmem
      obtain ⟨r', hr', heq⟩ := List.mem_map.mp hmem
      obtain ⟨hf, hg⟩ := Prod.mk.inj heq
      have hown := h (f r)
      rw [List.filter_cons_of_pos (by simp), List.map_cons, List.nodup_cons] at hown
      exact hown.1 (List.mem_map.mpr ⟨r', List.mem_filter.mpr ⟨hr', by simpa using hf⟩, hg⟩)
    · exact ih fun k => (h k).sublist (((List.sublist_cons_self r rest).filter _).map g)

end Table

/-! ## What is fixed of a row -/

/-- What is fixed of an agent: all but its credentials. -/
def Agent.fixed (a : Agent) : Agent := { a with username := "", password := "" }

/-- What is fixed of a run when it is created. -/
def Run.fixed (r : Run) : Run :=
  { r with
    agentId := none, communicationToken := none, jobName := none, buildNumber := none
    logLocation := none, resultsLocation := none }

/-- What is fixed of a test of a run: all but its verdict. -/
def RunTest.fixed (t : RunTest) : RunTest :=
  { t with startedAt := none, endedAt := none, success := none }

namespace Store

/-! ## Relations -/

/-- Whether rows refer to rows that are there. -/
structure References (s : Store) : Prop where
  tests : ∀ r ∈ s.tests, (s.testbed? r.testbedId).isSome
  agents : ∀ a ∈ s.agents, (s.testbed? a.testbedId).isSome
  runs : ∀ r ∈ s.runs, (s.testbed? r.testbedId).isSome
  runAgents : ∀ r ∈ s.runs, ∀ id, r.agentId = some id → (s.agent? id).isSome
  statuses : ∀ row ∈ s.statuses, (s.run? row.runId).isSome
  runTests : ∀ t ∈ s.runTests, (s.run? t.runId).isSome

/-- Whether no two rows of a table share a key, or an identifier. -/
structure Keys (s : Store) : Prop where
  testbeds : (s.testbeds.map (·.id)).Nodup
  tests : (s.tests.map fun r => (r.testbedId, r.testId)).Nodup
  agents : (s.agents.map fun a => (a.testbedId, a.url)).Nodup
  accessTokens : (s.runs.map (·.accessToken)).Nodup
  statuses : (s.statuses.map fun row => (row.runId, row.seq)).Nodup
  runTests : (s.runTests.map fun t => (t.runId, t.fullName)).Nodup
  agentIds : (s.agents.map (·.id)).Nodup
  runIds : (s.runs.map (·.id)).Nodup
  runTestIds : (s.runTests.map (·.id)).Nodup

/-- Whether a later store still has all rows, each with its identifier and its key. Entries of a log
are still as they were, and all other rows in what is fixed of them. -/
structure Continues (s later : Store) : Prop where
  testbeds : ∀ id, (s.testbed? id).isSome → (later.testbed? id).isSome
  tests : ∀ r ∈ s.tests, ∃ r' ∈ later.tests, r'.testbedId = r.testbedId ∧ r'.testId = r.testId
  agents : s.agents.map Agent.fixed <+: later.agents.map Agent.fixed
  runs : s.runs.map Run.fixed <+: later.runs.map Run.fixed
  statuses : s.statuses <+: later.statuses
  runTests : s.runTests.map RunTest.fixed <+: later.runTests.map RunTest.fixed

/-! ## New rows -/

variable {s : Store}

/-- Whether an agent may be added. -/
structure AddableAgent (s : Store) (a : Agent) : Prop where
  id : a.id = nextId s.agents
  testbed : (s.testbed? a.testbedId).isSome
  address : a.url.toList.getLast? ≠ some '/'
  key : ∀ b ∈ s.agents, (b.testbedId, b.url) ≠ (a.testbedId, a.url)

/-- Whether a run may be added. -/
structure AddableRun (s : Store) (r : Run) : Prop where
  id : r.id = nextId s.runs
  testbed : (s.testbed? r.testbedId).isSome
  accessToken : ∀ r' ∈ s.runs, r'.accessToken ≠ r.accessToken

/-- Whether a test may be added to its run. -/
structure AddableRunTest (s : Store) (t : RunTest) : Prop where
  id : t.id = nextId s.runTests
  run : (s.run? t.runId).isSome
  key : ∀ t' ∈ s.runTests, (t'.runId, t'.fullName) ≠ (t.runId, t.fullName)

/-! ## What an operation adds -/

/-- The tables of a store. -/
inductive TableName where
  | testbeds
  | tests
  | agents
  | runs
  | statuses
  | runTests

/-- The table that an operation is about. -/
def Operation.table : Operation → TableName
  | putTestbed _ => .testbeds
  | putTest _ => .tests
  | addAgent _ _ _ _ => .agents
  | createRun _ _ | setRunAgent _ _ | setCommunicationToken _ _ | setJob _ _ _
    | setResultLocations _ _ _ => .runs
  | appendStatus _ => .statuses
  | addRunTest _ _ | recordTestResult _ _ _ _ => .runTests

/-- An operation leaves the tables that it is not about. -/
theorem perform_leaves (s : Store) (op : Operation) :
    (op.table ≠ .agents → (s.perform op).agents = s.agents) ∧
      (op.table ≠ .runs → (s.perform op).runs = s.runs) ∧
      (op.table ≠ .runTests → (s.perform op).runTests = s.runTests) := by
  cases op with
  | putTest e => simp only [perform, putTest]; split <;> simp [kept, Except.map]
  | addAgent testbedId url username password =>
    simp only [perform, addAgent]
    split
    · simp [kept, Operation.table]
    · split <;> simp [kept, Operation.table]
  | createRun new now => simp only [perform, createRun]; split <;> simp [kept, Operation.table]
  | setRunAgent id agentId =>
    simp only [perform, setRunAgent]
    split <;> simp [kept, Except.map, updateRun, Operation.table]
  | appendStatus q => rcases s.request_store q with h | ⟨_, row, _, h⟩ <;> simp [perform, h]
  | addRunTest runId new => simp only [perform, addRunTest]; split <;> simp [kept, Operation.table]
  | _ =>
    simp [perform, putTestbed, setCommunicationToken, setJob, setResultLocations, updateRun,
      recordTestResult, Operation.table]

/-- An operation keeps what is fixed of agents, and adds at most one that may be added. -/
theorem agents_perform (s : Store) (op : Operation) :
    Table.Grows Agent.fixed s.AddableAgent s.agents (s.perform op).agents := by
  cases op with
  | addAgent testbedId url username password =>
    simp only [perform, addAgent]
    split
    · refine .kept ?_
      rw [kept, List.map_map]
      refine List.map_congr_left fun a _ => ?_
      rw [Function.comp]
      split <;> rfl
    · next hnone =>
      split
      · next htestbed =>
        refine .added _ ⟨rfl, htestbed, Text.getLast?_dropEndSlashes url, fun b hb heq => ?_⟩
        obtain ⟨hbed, haddress⟩ := Prod.mk.inj heq
        simpa [hbed, haddress] using List.find?_eq_none.mp hnone b hb
      · exact .kept rfl
  | _ =>
    refine .kept ?_
    rw [(s.perform_leaves _).1 (by intro h; cases h)]

/-- A change of a run in what is not fixed of it. -/
theorem grows_updateRun (s : Store) (id : Int) {change : Run → Run}
    (h : ∀ r, (change r).fixed = r.fixed) :
    Table.Grows Run.fixed s.AddableRun s.runs (s.updateRun id change).runs := by
  refine .kept ?_
  rw [updateRun, List.map_map]
  refine List.map_congr_left fun r _ => ?_
  rw [Function.comp]
  split
  · exact h r
  · rfl

/-- An operation keeps what is fixed of runs, and adds at most one that may be added. -/
theorem runs_perform (s : Store) (op : Operation) :
    Table.Grows Run.fixed s.AddableRun s.runs (s.perform op).runs := by
  cases op with
  | createRun new now =>
    simp only [perform, createRun]
    split
    · next hnew =>
      obtain ⟨htestbed, htoken⟩ := Bool.and_eq_true_iff.mp hnew
      exact .added _ ⟨rfl, htestbed, by simpa using htoken⟩
    · exact .kept rfl
  | setRunAgent id agentId =>
    simp only [perform, setRunAgent]
    split
    · exact s.grows_updateRun id fun _ => rfl
    · exact .kept rfl
  | setCommunicationToken id token => exact s.grows_updateRun id fun _ => rfl
  | setJob id jobName buildNumber => exact s.grows_updateRun id fun _ => rfl
  | setResultLocations id logLocation resultsLocation => exact s.grows_updateRun id fun _ => rfl
  | _ =>
    refine .kept ?_
    rw [(s.perform_leaves _).2.1 (by intro h; cases h)]

/-- An operation keeps what is fixed of tests, and adds at most one that may be added. -/
theorem runTests_perform (s : Store) (op : Operation) :
    Table.Grows RunTest.fixed s.AddableRunTest s.runTests (s.perform op).runTests := by
  cases op with
  | addRunTest runId new =>
    simp only [perform, addRunTest]
    split
    · next hnew =>
      obtain ⟨hrun, hname⟩ := Bool.and_eq_true_iff.mp hnew
      refine .added _ ⟨rfl, hrun, fun t ht heq => ?_⟩
      obtain ⟨hid, hfull⟩ := Prod.mk.inj heq
      have hmem : t ∈ s.testsOfRun runId := List.mem_filter.mpr ⟨ht, by simpa using hid⟩
      simpa [hfull] using List.all_eq_true.mp hname t hmem
    · exact .kept rfl
  | recordTestResult id success startedAt endedAt =>
    refine .kept ?_
    rw [perform, recordTestResult, List.map_map]
    refine List.map_congr_left fun t _ => ?_
    rw [Function.comp]
    split <;> rfl
  | _ =>
    refine .kept ?_
    rw [(s.perform_leaves _).2.2 (by intro h; cases h)]

/-! ## The catalogue -/

/-- A store that can be reached holds some history of reports. -/
theorem Reachable.exists_holds (h : s.Reachable) : ∃ L, s.Holds L := by
  induction h with
  | empty => exact ⟨{}, Holds.empty⟩
  | perform _ op ih =>
    obtain ⟨L, hL⟩ := ih
    exact ⟨_, hL.change (.operation op)⟩

variable {L : Deposits}

/-- A testbed stays known. -/
theorem Holds.isSome_testbed?_perform (h : s.Holds L) (op : Operation) {id : String}
    (hid : (s.testbed? id).isSome) :
    ((s.perform op).testbed? id).isSome := by
  cases op with
  | putTestbed t =>
    rw [h.testbed?_eq] at hid
    rw [perform, (h.putTestbed t).testbed?_eq, Deposits.testbed?, Deposits.withTestbeds,
      Table.last?_append, Option.isSome_or, Bool.or_eq_true]
    exact .inr hid
  | putTest e =>
    simp only [perform, putTest]
    split <;> exact hid
  | _ =>
    rw [testbed?, (s.catalogue_perform (by simp) (by simp)).1]
    exact hid

/-- The tests after an operation: those before, but for one key at most, and a test of a
known testbed. -/
theorem Holds.tests_perform (h : s.Holds L) (op : Operation) :
    (∀ r ∈ (s.perform op).tests, r ∈ s.tests ∨ (s.testbed? r.testbedId).isSome) ∧
      ∀ r ∈ s.tests, ∃ r' ∈ (s.perform op).tests,
        r'.testbedId = r.testbedId ∧ r'.testId = r.testId := by
  cases op with
  | putTest e =>
    have hmem := Table.mem_upsert_iff isKeyed_tests h.tests.ordered e.toRow
    simp only [perform, putTest]
    split
    · next htestbed =>
      constructor
      · intro r hr
        rcases (hmem r).mp hr with rfl | ⟨hr, -⟩
        · exact .inr htestbed
        · exact .inl hr
      · intro r hr
        by_cases hkey : r.key = e.toRow.key
        · obtain ⟨hbed, htest⟩ := Prod.mk.inj (toLex.injective hkey)
          exact ⟨e.toRow, (hmem _).mpr (.inl rfl), hbed.symm, htest.symm⟩
        · exact ⟨r, (hmem r).mpr (.inr ⟨hr, hkey⟩), rfl, rfl⟩
    · exact ⟨fun r hr => .inl hr, fun r hr => ⟨r, hr, rfl, rfl⟩⟩
  | putTestbed t => exact ⟨fun r hr => .inl hr, fun r hr => ⟨r, hr, rfl, rfl⟩⟩
  | _ =>
    rw [(s.catalogue_perform (by simp) (by simp)).2]
    exact ⟨fun r hr => .inl hr, fun r hr => ⟨r, hr, rfl, rfl⟩⟩

/-! ## References -/

/-- An agent is found when its identifier is listed. -/
theorem isSome_agent?_iff (s : Store) (id : Int) :
    (s.agent? id).isSome ↔ id ∈ s.agents.map (·.id) := by
  simp [agent?, List.find?_isSome]

/-- An agent that is there stays. -/
theorem isSome_agent?_perform (op : Operation) {id : Int} (h : (s.agent? id).isSome) :
    ((s.perform op).agent? id).isSome := by
  rw [isSome_agent?_iff] at h ⊢
  exact (s.agents_perform op).map_subset (fun _ => rfl) h

/-- A run that is there stays. -/
theorem isSome_run?_perform (op : Operation) {id : Int} (h : (s.run? id).isSome) :
    ((s.perform op).run? id).isSome := by
  rw [isSome_run?_iff] at h ⊢
  exact (s.runs_perform op).map_subset (fun _ => rfl) h

/-- A change of a run in anything but its agent gives no run an agent. -/
theorem exists_agentId_of_updateRun {i : Int} {change : Run → Run}
    (hchange : ∀ r, (change r).agentId = r.agentId) {r : Run}
    (hr : r ∈ (s.updateRun i change).runs) : ∃ r' ∈ s.runs, r'.agentId = r.agentId := by
  obtain ⟨r', hr', rfl⟩ := List.mem_map.mp hr
  refine ⟨r', hr', ?_⟩
  split
  · exact (hchange r').symm
  · rfl

/-- A run is given an agent only if there is the agent. -/
theorem runAgents_perform (op : Operation) {r : Run} {id : Int} (hr : r ∈ (s.perform op).runs)
    (hid : r.agentId = some id) : (∃ r' ∈ s.runs, r'.agentId = some id) ∨ (s.agent? id).isSome := by
  cases op with
  | createRun new now =>
    simp only [perform, createRun] at hr
    split at hr
    · rcases List.mem_append.mp hr with hr | hr
      · exact .inl ⟨r, hr, hid⟩
      · rw [List.mem_singleton.mp hr] at hid
        cases hid
    · exact .inl ⟨r, hr, hid⟩
  | setRunAgent i agentId =>
    simp only [perform, setRunAgent] at hr
    split at hr
    · next hguard =>
      obtain ⟨r', hr', rfl⟩ := List.mem_map.mp hr
      split at hid
      · next hsame =>
        obtain rfl := Option.some.inj hid
        have hthere : (s.run? i).isSome :=
          (s.isSome_run?_iff i).mpr (hsame ▸ List.mem_map_of_mem hr')
        rw [← Option.not_isSome, hthere] at hguard
        exact .inr hguard
      · exact .inl ⟨r', hr', hid⟩
    · exact .inl ⟨r, hr, hid⟩
  | setCommunicationToken i token =>
    exact .inl (hid ▸ exists_agentId_of_updateRun (fun _ => by rfl) hr)
  | setJob i jobName buildNumber =>
    exact .inl (hid ▸ exists_agentId_of_updateRun (fun _ => by rfl) hr)
  | setResultLocations i logLocation resultsLocation =>
    exact .inl (hid ▸ exists_agentId_of_updateRun (fun _ => by rfl) hr)
  | _ =>
    rw [(s.perform_leaves _).2.1 (by intro h; cases h)] at hr
    exact .inl ⟨r, hr, hid⟩

/-- An operation keeps all references. -/
theorem References.perform (h : s.References) (hs : s.Reachable) (op : Operation) :
    (s.perform op).References := by
  obtain ⟨L, hL⟩ := hs.exists_holds
  have htestbed {id : String} (hid : (s.testbed? id).isSome) := hL.isSome_testbed?_perform op hid
  have hagent {id : Int} (hid : (s.agent? id).isSome) := isSome_agent?_perform op hid
  have hrun {id : Int} (hid : (s.run? id).isSome) := isSome_run?_perform op hid
  refine {
    tests := fun r hr => htestbed (((hL.tests_perform op).1 r hr).elim (h.tests r) id)
    agents := (s.agents_perform op).forall_mem (fun _ => Iff.rfl)
      (fun a ha => htestbed (h.agents a ha)) fun a ha => htestbed ha.testbed
    runs := (s.runs_perform op).forall_mem (fun _ => Iff.rfl) (fun r hr => htestbed (h.runs r hr))
      fun r hr => htestbed hr.testbed
    runAgents := ?_
    statuses := ?_
    runTests := (s.runTests_perform op).forall_mem (fun _ => Iff.rfl)
      (fun t ht => hrun (h.runTests t ht)) fun t ht => hrun ht.run }
  · intro r hr id hid
    rcases runAgents_perform op hr hid with ⟨r', hr', hid'⟩ | hthere
    · exact hagent (h.runAgents r' hr' id hid')
    · exact hagent hthere
  · intro row hrow
    exact (isSome_run?_iff _ _).mpr ((hs.perform op).consistent.statusRuns row hrow)

/-- All references of a store that can be reached lead to rows. -/
theorem Reachable.references (h : s.Reachable) : s.References := by
  induction h with
  | empty => exact ⟨by simp, by simp, by simp, by simp, by simp, by simp⟩
  | perform hs op ih => exact ih.perform hs op

/-! ## Keys -/

/-- The keys of the tables in which a row is known by what is fixed of it. -/
structure Numbering (s : Store) : Prop where
  agents : (s.agents.map fun a => (a.testbedId, a.url)).Nodup
  accessTokens : (s.runs.map (·.accessToken)).Nodup
  runTests : (s.runTests.map fun t => (t.runId, t.fullName)).Nodup
  agentIds : Table.Numbered Agent.id s.agents
  runIds : Table.Numbered Run.id s.runs
  runTestIds : Table.Numbered RunTest.id s.runTests
  addresses : ∀ a ∈ s.agents, a.url.toList.getLast? ≠ some '/'

/-- An operation keeps keys and identifiers apart. -/
theorem Numbering.perform (h : s.Numbering) (op : Operation) : (s.perform op).Numbering where
  agents := (s.agents_perform op).nodup (fun _ => rfl) h.agents fun _ ha => ha.key
  accessTokens := (s.runs_perform op).nodup (fun _ => rfl) h.accessTokens fun _ hr => hr.accessToken
  runTests := (s.runTests_perform op).nodup (fun _ => rfl) h.runTests fun _ ht => ht.key
  agentIds := (s.agents_perform op).numbered (fun _ => rfl) h.agentIds fun _ ha => ha.id
  runIds := (s.runs_perform op).numbered (fun _ => rfl) h.runIds fun _ hr => hr.id
  runTestIds := (s.runTests_perform op).numbered (fun _ => rfl) h.runTestIds fun _ ht => ht.id
  addresses :=
    (s.agents_perform op).forall_mem (fun _ => Iff.rfl) h.addresses fun _ ha => ha.address

/-- In a store that can be reached keys and identifiers are apart. -/
theorem Reachable.numbering (h : s.Reachable) : s.Numbering := by
  induction h with
  | empty => exact ⟨List.nodup_nil, List.nodup_nil, List.nodup_nil, rfl, rfl, rfl, by simp⟩
  | perform _ op ih => exact ih.perform op

/-- A store that can be reached is what a history makes of the empty one. -/
theorem Reachable.exists_history (h : s.Reachable) : ∃ ops, s = Store.after {} ops := by
  induction h with
  | empty => exact ⟨[], rfl⟩
  | perform _ op ih =>
    obtain ⟨ops, rfl⟩ := ih
    exact ⟨ops ++ [op], by simp [Store.after]⟩

/-- The log of every run is numbered and can be read. -/
theorem Reachable.exists_statusLog (h : s.Reachable) (runId : Int) :
    ((s.statusRows runId).map (·.seq)).Nodup ∧
      ∃ log, s.statusLog runId = .ok log ∧ s.latestStatus? runId = .ok log.getLast? := by
  obtain ⟨ops, rfl⟩ := h.exists_history
  have hrecords := records_requestsOn runId ops
  refine ⟨?_, _, hrecords.statusLog_eq, hrecords.latestStatus?_eq⟩
  rw [hrecords, List.map_map]
  have hseq : (·.seq) ∘ StatusEntry.toRow = fun e => e.seq := rfl
  rw [hseq, StatusRequest.map_seq_numbered]
  exact List.nodup_range

/-- In a store that can be reached no key and no identifier is there twice. -/
theorem Reachable.keys (h : s.Reachable) : s.Keys := by
  obtain ⟨L, hL⟩ := h.exists_holds
  have hnumbering := h.numbering
  refine {
    testbeds := ?_
    tests := ?_
    agents := hnumbering.agents
    accessTokens := hnumbering.accessTokens
    statuses := Table.nodup_map_pair fun runId => (h.exists_statusLog runId).1
    runTests := hnumbering.runTests
    agentIds := hnumbering.agentIds.nodup
    runIds := hnumbering.runIds.nodup
    runTestIds := hnumbering.runTestIds.nodup }
  · exact List.pairwise_map.mpr (hL.testbeds.ordered.imp ne_of_lt)
  · refine List.pairwise_map.mpr (hL.tests.ordered.imp ?_)
    intro r r' hlt heq
    exact ne_of_lt hlt (congrArg toLex heq)

/-! ## Rows for good -/

/-- A store continues itself. -/
theorem Continues.refl (s : Store) : s.Continues s where
  testbeds _ h := h
  tests r hr := ⟨r, hr, rfl, rfl⟩
  agents := List.prefix_rfl
  runs := List.prefix_rfl
  statuses := List.prefix_rfl
  runTests := List.prefix_rfl

/-- What continues a later store continues the store. -/
theorem Continues.trans {s' s'' : Store} (h : s.Continues s') (h' : s'.Continues s'') :
    s.Continues s'' where
  testbeds id hid := h'.testbeds id (h.testbeds id hid)
  tests r hr := by
    obtain ⟨r', hr', hbed, htest⟩ := h.tests r hr
    obtain ⟨r'', hr'', hbed', htest'⟩ := h'.tests r' hr'
    exact ⟨r'', hr'', hbed'.trans hbed, htest'.trans htest⟩
  agents := h.agents.trans h'.agents
  runs := h.runs.trans h'.runs
  statuses := h.statuses.trans h'.statuses
  runTests := h.runTests.trans h'.runTests

/-- A run that is there is found later, with all that is fixed of it. -/
theorem Continues.run?_eq_some {later : Store} (h : s.Continues later) {id : Int} {r : Run}
    (hr : s.run? id = some r) :
    ∃ r', later.run? id = some r' ∧ r'.fixed = r.fixed := by
  have hfixed (x : Store) : (x.run? id).map Run.fixed = (x.runs.map Run.fixed).find?
      fun r => r.id = id := by
    rw [List.find?_map]
    rfl
  obtain ⟨added, hruns⟩ := h.runs
  have hfound : (later.run? id).map Run.fixed = some r.fixed := by
    rw [hfixed, ← hruns, List.find?_append, ← hfixed, hr]
    rfl
  exact Option.map_eq_some_iff.mp hfound

/-- After an operation all rows are still there. -/
theorem Reachable.continues_perform (h : s.Reachable) (op : Operation) :
    s.Continues (s.perform op) := by
  obtain ⟨L, hL⟩ := h.exists_holds
  refine {
    testbeds := fun id hid => hL.isSome_testbed?_perform op hid
    tests := (hL.tests_perform op).2
    agents := (s.agents_perform op).isPrefix
    runs := (s.runs_perform op).isPrefix
    statuses := ?_
    runTests := (s.runTests_perform op).isPrefix }
  by_cases hop : ∃ q, op = .appendStatus q
  · obtain ⟨q, rfl⟩ := hop
    rcases s.request_store q with hsame | ⟨-, row, -, hrow⟩
    · exact (congrArg Store.statuses hsame).symm ▸ List.prefix_rfl
    · exact (congrArg Store.statuses hrow).symm ▸ List.prefix_append _ _
  · exact s.statuses_perform op (fun q hq => hop ⟨q, hq⟩) ▸ List.prefix_rfl

/-- After any operations all rows are still there. -/
theorem Reachable.continues_after (h : s.Reachable) (ops : List Operation) :
    s.Continues (s.after ops) := by
  induction ops generalizing s with
  | nil => exact .refl s
  | cons op rest ih => exact (h.continues_perform op).trans (ih (h.perform op))

/-! ## Agents that are registered again -/

/-- What a store does with an agent that is registered again: it keeps the place, the identifier and
the address, and renews the credentials. Nothing else changes. -/
structure RenewsAgent (s : Store) (a : Agent) : Prop where
  renewed : ∀ url username password, Text.dropEndSlashes url = a.url → ∃ front back,
    s.agents = front ++ a :: back ∧
    s.addAgent a.testbedId url username password =
      .ok ({ s with agents := front ++ { a with username, password } :: back }, a.id)

/-- To add an agent again changes what may be changed of it, and of no other. -/
theorem Keys.renewsAgent (h : s.Keys) {a : Agent} (ha : a ∈ s.agents) : s.RenewsAgent a := by
  refine ⟨fun url username password haddress => ?_⟩
  obtain ⟨front, back, hsplit⟩ := List.append_of_mem ha
  have hkeys := h.agents
  have hids := h.agentIds
  rw [hsplit, List.map_append, List.map_cons, List.nodup_middle, List.nodup_cons] at hkeys hids
  rw [← List.map_append] at hkeys hids
  -- no other agent of the testbed has the address, and none has the identifier
  have hother (b : Agent) (hb : b ∈ front ++ back) : b.id ≠ a.id :=
    fun heq => hids.1 (List.mem_map.mpr ⟨b, hb, heq⟩)
  have hfound :
      s.agents.find? (fun b => b.testbedId = a.testbedId ∧ b.url = Text.dropEndSlashes url) =
          some a := by
    rw [haddress, hsplit, List.find?_append, List.find?_cons_of_pos (by simp),
      Option.or_eq_some_iff]
    refine .inr ⟨List.find?_eq_none.mpr fun b hb => ?_, rfl⟩
    intro hsame
    obtain ⟨hbed, hurl⟩ := of_decide_eq_true hsame
    exact hkeys.1 (List.mem_map.mpr ⟨b, List.mem_append_left _ hb, Prod.ext hbed hurl⟩)
  have hkept (part : List Agent) (hpart : ∀ b ∈ part, b ∈ front ++ back) :
      part.map (fun b => if b.id = a.id then { b with username, password } else b) = part := by
    conv_rhs => rw [← List.map_id part]
    exact List.map_congr_left fun b hb => if_neg (hother b (hpart b hb))
  refine ⟨front, back, hsplit, ?_⟩
  simp only [addAgent, hfound]
  rw [hsplit, List.map_append, List.map_cons, if_pos rfl,
    hkept front fun b hb => List.mem_append_left _ hb,
    hkept back fun b hb => List.mem_append_right _ hb]

/-! ## Refusals -/

/-- Whether a store refuses an operation. -/
def Refuses (s : Store) : Operation → Prop
  | .putTest e => ∃ fault, s.putTest e = .error fault
  | .addAgent testbedId url username password =>
    ∃ fault, s.addAgent testbedId url username password = .error fault
  | .createRun new now => ∃ fault, s.createRun new now = .error fault
  | .setRunAgent id agentId => ∃ fault, s.setRunAgent id agentId = .error fault
  | .appendStatus q => ∃ e, (s.request q).1 = .error e
  | .addRunTest runId new => ∃ fault, s.addRunTest runId new = .error fault
  | _ => False

/-- Whether the relations between the tables hold with what an operation stores. -/
def Admits (s : Store) : Operation → Prop
  | .putTest e => (s.testbed? e.testbedId).isSome
  | .addAgent testbedId _ _ _ => (s.testbed? testbedId).isSome
  | .createRun new _ =>
    (s.testbed? new.testbedId).isSome ∧ ∀ r ∈ s.runs, r.accessToken ≠ new.accessToken
  | .setRunAgent id agentId => (s.run? id).isSome → (s.agent? agentId).isSome
  | .appendStatus q => (s.run? q.runId).isSome ∧ ∀ log latest, s.statusLog q.runId = .ok log →
      log.getLast? = some latest →
        latest.state.ordinal < q.state.ordinal ∨ latest.state = q.state ∧ latest.success = q.success
  | .addRunTest runId new => (s.run? runId).isSome ∧
      ∀ t ∈ s.runTests, (t.runId, t.fullName) ≠ (runId, new.fullName)
  | _ => True

/-- A refused operation leaves the store as it is. -/
theorem perform_of_refuses {op : Operation} (h : s.Refuses op) : s.perform op = s := by
  cases op with
  | appendStatus q =>
    obtain ⟨e, he⟩ := h
    rw [perform]
    unfold request at he ⊢
    split at he
    · cases he
    · rfl
  | putTest _ | addAgent _ _ _ _ | createRun _ _ | setRunAgent _ _ | addRunTest _ _ =>
    obtain ⟨fault, hfault⟩ := h
    rw [perform, hfault]
    rfl
  | _ => exact h.elim

/-- A checked answer is an error exactly when the check fails. -/
theorem exists_error_iff {ε α : Type} {c : Prop} [Decidable c] {value : α} {fault : ε} :
    (∃ e, (if c then Except.ok value else Except.error fault) = Except.error e) ↔ ¬ c := by
  split <;> simp_all

/-- A report is refused unless it moves its run forward, or repeats the latest entry. -/
theorem Reachable.refuses_appendStatus_iff (h : s.Reachable) (q : StatusRequest) :
    s.Refuses (.appendStatus q) ↔ ¬ s.Admits (.appendStatus q) := by
  obtain ⟨-, log, hlog, hlatest⟩ := h.exists_statusLog q.runId
  simp only [Refuses, Admits, hlog, Except.ok.injEq, request, appendStatus, hlatest]
  cases hrun : s.run? q.runId with
  | none => simp
  | some r =>
    cases hlast : log.getLast? with
    | none => simp [Transition.check, hlast]
    | some e =>
      by_cases hlater : e.state.ordinal < q.state.ordinal
      · simp [Transition.check_of_lt hlater, hlast, hlater]
      · have hcheck := Transition.check_of_le (Nat.le_of_not_lt hlater) e.success q.success
        simp only [Option.isNone_some, Bool.false_eq_true, if_false, Option.map_some, hcheck]
        by_cases hrepeat : e.state = q.state ∧ e.success = q.success
        · refine iff_of_false (by simp [hrepeat]) fun hrefused => hrefused ⟨rfl, ?_⟩
          rintro log' latest rfl hlatest
          obtain rfl := Option.some.inj (hlast.symm.trans hlatest)
          exact .inr hrepeat
        · rw [if_neg hrepeat]
          refine iff_of_true ⟨_, rfl⟩ fun hadmits => ?_
          exact (hadmits.2 log e rfl hlast).elim hlater hrepeat

/-- An operation is refused exactly when its row would break a relation between the tables. -/
theorem Reachable.refuses_iff (h : s.Reachable) (op : Operation) :
    s.Refuses op ↔ ¬ s.Admits op := by
  cases op with
  | appendStatus q => exact h.refuses_appendStatus_iff q
  | putTest e => exact exists_error_iff
  | addAgent testbedId url username password =>
    simp only [Refuses, Admits, addAgent]
    cases hfound : s.agents.find? fun a =>
      a.testbedId = testbedId ∧ a.url = Text.dropEndSlashes url with
    | none => exact exists_error_iff
    | some a =>
      have hsame : a.testbedId = testbedId ∧ a.url = Text.dropEndSlashes url := by
        simpa using List.find?_some hfound
      have hbed := h.references.agents a (List.mem_of_find?_eq_some hfound)
      rw [hsame.1] at hbed
      simp [hbed]
  | createRun new now => exact exists_error_iff.trans (by simp [Admits, hasTestbed])
  | setRunAgent id agentId =>
    exact exists_error_iff.trans (by simp [Admits, Option.isSome_iff_ne_none])
  | addRunTest runId new => exact exists_error_iff.trans (by simp [Admits, testsOfRun])
  | _ => simp [Refuses, Admits]

/-! ## All histories -/

/-- What holds of the tables of a store. -/
structure Intact (s : Store) : Prop where
  references : s.References
  keys : s.Keys
  addresses : ∀ a ∈ s.agents, a.url.toList.getLast? ≠ some '/'
  agents : ∀ a ∈ s.agents, s.RenewsAgent a
  logs : ∀ runId, ∃ log, s.statusLog runId = .ok log
  /-- Whatever is done next, all rows stay, and no identifier is given again. -/
  continues : ∀ ops, s.Continues (s.after ops) ∧ (s.after ops).Keys
  refused : ∀ op, s.Refuses op ↔ ¬ s.Admits op
  unchanged : ∀ op, s.Refuses op → s.perform op = s

/-- The relations between the tables hold after any history, whichever of its operations
are refused. -/
theorem intact_after (ops : List Operation) : (after {} ops).Intact := by
  have hreachable : (after {} ops).Reachable := Reachable.empty.after ops
  exact {
    references := hreachable.references
    keys := hreachable.keys
    addresses := hreachable.numbering.addresses
    agents := fun _ ha => hreachable.keys.renewsAgent ha
    logs := fun runId => (hreachable.exists_statusLog runId).2.imp fun _ h => h.1
    continues := fun more => ⟨hreachable.continues_after more, (hreachable.after more).keys⟩
    refused := hreachable.refuses_iff
    unchanged := fun _ => perform_of_refuses }

/-- Of these operations the run of an unknown testbed and the agent of an unknown run are refused,
and the agent that is registered again keeps its identifier. -/
example :
    after {} [.putTestbed ⟨"tb", "", ""⟩, .addAgent "tb" "http://a//" "u" "p",
      .createRun ⟨"app", "net", "other", "x"⟩ "t", .addAgent "tb" "http://a/" "v" "q"] =
      { testbeds := [⟨"tb", "", ""⟩], agents := [⟨1, "tb", "http://a", "v", "q"⟩] } := by
  decide

end Store
end PipelineManager
