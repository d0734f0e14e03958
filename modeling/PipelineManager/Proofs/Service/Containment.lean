import PipelineManager.Proofs.Service.Stages
import PipelineManager.Proofs.Service.Writes
import PipelineManager.Proofs.Warehouse.Confinement

/-!
# Sessions on a system

On every system a session reaches what is at the place of the root and below it, and the way to that
place: its services give the same results whatever else the system holds, and nothing else changes
but that directories are made on the way where nothing was. Where the path of the root leads to its
place, a session goes as in the world whose warehouse lies there.
-/

namespace PipelineManager

/-! ## Worlds with other files -/

/-- Whether a call reaches the files of the warehouse. -/
def Call.ReachesFiles : Call → Prop
  | .upload _ _ | .download _ | .holds _ => True
  | _ => False

namespace World

/-- The world with another warehouse. -/
def withFiles (w : World) (files : Warehouse) : World := { w with warehouse := files }

variable {w : World} {files : Warehouse} {c : Call}

/-- A call to the store is the same with other files. -/
theorem ofStore_withFiles {α : Type} (w : World) (files : Warehouse) (call : RunCall)
    (r : Except StoreFault (Store × α)) :
    (w.withFiles files).ofStore call r =
      ((w.ofStore call r).1, (w.ofStore call r).2.withFiles files) := by
  unfold ofStore
  show (if w.broken.contains call then _ else _) = _
  split
  · rfl
  · cases r <;> rfl

/-- A call to an agent is the same with other files. -/
theorem ofFleet_withFiles {α : Type} (w : World) (files : Warehouse) (call : AgentCall)
    (r : α × Fleet) :
    (w.withFiles files).ofFleet call r =
      ((w.ofFleet call r).1, (w.ofFleet call r).2.withFiles files) := by
  unfold ofFleet
  show (if w.fleet.refusing.contains call then _ else _) = _
  split <;> rfl

/-- A call that does not reach the files goes the same way whatever they are. -/
theorem answer_withFiles (hc : ¬ c.ReachesFiles) (w : World) (files : Warehouse) :
    (w.withFiles files).answer c = ((w.answer c).1, (w.answer c).2.withFiles files) := by
  cases c with
  | upload _ _ | download _ | holds _ => exact absurd trivial hc
  | appendStatus runId state success =>
    have hstore : (w.withFiles files).store = w.store := rfl
    have hnow : (w.withFiles files).now = w.now := rfl
    rw [answer, answer, hstore, hnow]
    cases w.store.appendStatus runId state success w.now <;> rfl
  | createRun _ | setRunAgent _ _ | addRunTest _ _ => exact ofStore_withFiles w files _ _
  | run id => exact ofStore_withFiles w files .getRun (.ok (w.store, w.store.run? id))
  | setCommunicationToken id token =>
    exact ofStore_withFiles w files .setCommunicationToken
      (.ok (w.store.setCommunicationToken id token, ()))
  | setJob id jobName build =>
    exact ofStore_withFiles w files .setJob (.ok (w.store.setJob id jobName build, ()))
  | setResultLocations id log results =>
    exact ofStore_withFiles w files .setResultLocations
      (.ok (w.store.setResultLocations id log results, ()))
  | runTests runId =>
    exact ofStore_withFiles w files .listRunTests (.ok (w.store, w.store.testsOfRun runId))
  | recordTestResult id success startedAt endedAt =>
    exact ofStore_withFiles w files .recordTestResult
      (.ok (w.store.recordTestResult id success startedAt endedAt, ()))
  | agentsOf _ | agent _ | createCredential _ _ _ _ | submitJob _ _ _ | startJob _ _
    | lastBuildNumber _ _
  | fetchLog _ _ _ => exact ofFleet_withFiles w files _ _
  | _ => rfl

/-- A call that does not reach the files is answered alike with others, also when it goes wrong. -/
theorem answerWith_withFiles (hc : ¬ c.ReachesFiles) (mishap : Option Mishap) (w : World)
    (files : Warehouse) :
    (w.withFiles files).answerWith mishap c =
      ((w.answerWith mishap c).1, (w.answerWith mishap c).2.withFiles files) := by
  have hanswer := answer_withFiles hc w files
  cases mishap with
  | none => exact hanswer
  | some x =>
    simp only [answerWith, hanswer]
    cases c.failing? x.cause with
    | none => rfl
    | some failed => cases h : x.late && c.canFailLate <;> rfl

end World

/-! ## Hosts -/

/-- A world on a system. The files are those of the system, and the tree of the world's own
warehouse is left alone. -/
structure Host where
  world : World
  system : System

/-- A host, and the calls made on it so far. -/
structure HostTrial where
  host : Host
  past : List Exchange := []

namespace Host

/-- The answer to a call that may go wrong, and the host after it. -/
def answerWith (mishap : Option Mishap) : (c : Call) → Host → c.Answer × Host
  | .upload path contents, x =>
    let r := x.system.upload x.world.warehouse.root path contents
    (r.2.mapError .warehouse, { x with system := r.1 })
  | .download path, x => ((x.system.download x.world.warehouse.root path).mapError .warehouse, x)
  | .holds path, x => ((x.system.contains x.world.warehouse.root path).mapError .warehouse, x)
  | c, x =>
    let r := x.world.answerWith mishap c
    (r.1, { x with world := r.2 })

/-- The answer to a call in a trial on a host. -/
def trialAnswer (plan : Nat → Option Mishap) (c : Call) (t : HostTrial) : c.Answer × HostTrial :=
  let r := t.host.answerWith (plan t.past.length) c
  (r.1, { host := r.2, past := t.past ++ [⟨t.host.world.store, c, r.1⟩] })

/-- Carries out a service on a host while calls go wrong by a plan. -/
def attempt {α : Type} (x : Host) (plan : Nat → Option Mishap) (p : Service α) :
    Except ServiceError α × Host :=
  let r := Service.exec (trialAnswer plan) p { host := x }
  (r.1, r.2.host)

/-- The host after an event. -/
def perform (x : Host) : Event → Host
  | .request q plan => (x.attempt plan q.service).2
  | e => { x with world := x.world.perform e }

/-- The host after a session. -/
def after (x : Host) (events : List Event) : Host := events.foldl perform x

/-- Whether a host goes as a world does: its system has the warehouse of the world at a place, and
elsewhere what the system `s` has there. -/
structure Mirrors (s : System) (place : List String) (x : Host) (w : World) : Prop where
  world : ∃ tree, x.world = w.withFiles { root := w.warehouse.root, tree }
  mounts : x.system.Mounts place w.warehouse
  outside : ∀ names, ¬ place <+: names → x.system.tree.entry names = s.tree.entry names

variable {s : System} {place : List String} {x : Host} {w : World}

/-- A host answers as its world what does not reach the files. -/
theorem answerWith_of_not_reachesFiles {c : Call} (hc : ¬ c.ReachesFiles) (mishap : Option Mishap)
    (x : Host) :
    x.answerWith mishap c =
      ((x.world.answerWith mishap c).1, { x with world := (x.world.answerWith mishap c).2 }) := by
  cases c with
  | upload _ _ | download _ | holds _ => exact absurd trivial hc
  | _ => rfl

/-- A host that mirrors a world has its root. -/
theorem Mirrors.root (h : Mirrors s place x w) : x.world.warehouse.root = w.warehouse.root := by
  obtain ⟨tree, hworld⟩ := h.world
  rw [hworld]
  rfl

/-- A call is answered on the host as in the world. -/
theorem Mirrors.answerWith (h : Mirrors s place x w) (mishap : Option Mishap) (c : Call) :
    (x.answerWith mishap c).1 = (w.answerWith mishap c).1 ∧
      Mirrors s place (x.answerWith mishap c).2 (w.answerWith mishap c).2 := by
  by_cases hc : c.ReachesFiles
  · have hworks : w.answerWith mishap c = w.answer c := by
      cases c with
      | upload _ _ | download _ | holds _ =>
        exact Trial.answerWith_of_failing?_eq_none (fun _ => rfl) mishap w
      | _ => exact hc.elim
    rw [hworks]
    cases c with
    | upload path contents =>
      obtain ⟨hresult, hmounts, houtside⟩ := h.mounts.upload path contents
      rw [Host.answerWith, h.root]
      refine ⟨congrArg (Except.mapError Fault.warehouse) hresult, ?_, hmounts,
        fun names hnames => (houtside names hnames).trans (h.outside names hnames)⟩
      obtain ⟨tree, hworld⟩ := h.world
      have hroot : (w.answer (.upload path contents)).2.warehouse.root = w.warehouse.root :=
        w.warehouse.root_upload path contents
      exact ⟨tree, by rw [hroot]; exact hworld⟩
    | download path =>
      rw [Host.answerWith, h.root, h.mounts.download]
      exact ⟨rfl, h⟩
    | holds path =>
      rw [Host.answerWith, h.root, h.mounts.contains]
      exact ⟨rfl, h⟩
    | _ => exact hc.elim
  · obtain ⟨tree, hworld⟩ := h.world
    have hsame := World.answerWith_withFiles hc mishap w { root := w.warehouse.root, tree }
    have hwarehouse : (w.answerWith mishap c).2.warehouse = w.warehouse := by
      refine World.warehouse_answerWith mishap ?_ w
      rintro path contents rfl
      exact hc trivial
    rw [answerWith_of_not_reachesFiles hc, hworld, hsame]
    exact ⟨rfl, ⟨tree, by rw [hwarehouse]⟩, hwarehouse ▸ h.mounts, h.outside⟩

/-- A service goes on the host as in the world. -/
theorem Mirrors.attempt {α : Type} (h : Mirrors s place x w) (plan : Nat → Option Mishap)
    (p : Service α) :
    (x.attempt plan p).1 = (w.attempt plan p).1 ∧
      Mirrors s place (x.attempt plan p).2 (w.attempt plan p).2 := by
  have hstep : ∀ c (t : HostTrial) (t' : Trial),
    True → t.past = t'.past ∧ Mirrors s place t.host t'.world →
      (trialAnswer plan c t).1 = (Trial.answer plan c t').1 ∧
        (trialAnswer plan c t).2.past = (Trial.answer plan c t').2.past ∧
        Mirrors s place (trialAnswer plan c t).2.host (Trial.answer plan c t').2.world := by
    rintro c t t' - ⟨hpast, hhost⟩
    obtain ⟨hresult, hnext⟩ := hhost.answerWith (plan t'.past.length) c
    have hstore : t.host.world.store = t'.world.store := by
      obtain ⟨tree, hworld⟩ := hhost.world
      rw [hworld]
      rfl
    simp only [trialAnswer, Trial.answer, hpast, hresult, hstore, true_and]
    exact hnext
  obtain ⟨hresult, -, hhost⟩ := (Program.asks_true p.run).run_related hstep
    (s := { host := x }) (t := { world := w }) ⟨rfl, h⟩
  exact ⟨hresult, hhost⟩

/-- A host keeps mirroring a world through an event. -/
theorem Mirrors.perform (h : Mirrors s place x w) (e : Event) :
    Mirrors s place (x.perform e) (w.perform e) := by
  obtain ⟨tree, hworld⟩ := h.world
  cases e with
  | request q plan => exact (h.attempt plan q.service).2
  | importCatalogue testbeds tests =>
    exact ⟨⟨tree, congrArg (World.perform · (.importCatalogue testbeds tests)) hworld⟩, h.mounts,
      h.outside⟩
  | addAgent testbedId url username password =>
    exact ⟨⟨tree, congrArg (World.perform · (.addAgent testbedId url username password)) hworld⟩,
      h.mounts, h.outside⟩
  | meanwhile surroundings =>
    exact ⟨⟨tree, congrArg (World.perform · (.meanwhile surroundings)) hworld⟩, h.mounts, h.outside⟩

/-- A session goes on the host as in the world. -/
theorem Mirrors.after (h : Mirrors s place x w) (events : List Event) :
    Mirrors s place (x.after events) (w.after events) := by
  induction events generalizing x w with
  | nil => exact h
  | cons e rest ih => exact ih (h.perform e)

/-! ## Any system -/

variable {y : Host} {root : String}

/-- Whether two hosts are the same world, on systems that are alike to whoever uses its root. -/
structure Alike (root : String) (x y : Host) : Prop where
  world : y.world = x.world
  roots : x.world.warehouse.root = root
  system : x.system.AlikeBelow root y.system

/-- Whether a host came from a system by changes below a root and on the way to it. -/
structure GrewFrom (s : System) (root : String) (x : Host) : Prop where
  roots : x.world.warehouse.root = root
  system : s.GrowsBelow root x.system

/-- A call that does not reach the files leaves the root. -/
theorem root_answerWith {c : Call} (hc : ¬ c.ReachesFiles) (mishap : Option Mishap) (w : World) :
    (w.answerWith mishap c).2.warehouse.root = w.warehouse.root := by
  rw [World.warehouse_answerWith mishap _ w]
  rintro path contents rfl
  exact hc trivial

/-- A call is answered alike on both hosts. -/
theorem Alike.answerWith (h : Alike root x y) (mishap : Option Mishap) (c : Call) :
    (x.answerWith mishap c).1 = (y.answerWith mishap c).1 ∧
      Alike root (x.answerWith mishap c).2 (y.answerWith mishap c).2 := by
  by_cases hc : c.ReachesFiles
  · cases c with
    | upload path contents =>
      obtain ⟨hresult, hsystem⟩ := h.system.upload path contents
      rw [Host.answerWith, Host.answerWith, h.world, h.roots]
      exact ⟨congrArg (Except.mapError Fault.warehouse) hresult.symm, rfl, h.roots, hsystem⟩
    | download path =>
      rw [Host.answerWith, Host.answerWith, h.world, h.roots, h.system.download]
      exact ⟨rfl, h⟩
    | holds path =>
      rw [Host.answerWith, Host.answerWith, h.world, h.roots, h.system.contains]
      exact ⟨rfl, h⟩
    | _ => exact hc.elim
  · rw [answerWith_of_not_reachesFiles hc, answerWith_of_not_reachesFiles hc, h.world]
    exact ⟨rfl, rfl, (root_answerWith hc mishap x.world).trans h.roots, h.system⟩

/-- A service goes alike on both hosts. -/
theorem Alike.attempt {α : Type} (h : Alike root x y) (plan : Nat → Option Mishap)
    (p : Service α) :
    (x.attempt plan p).1 = (y.attempt plan p).1 ∧
      Alike root (x.attempt plan p).2 (y.attempt plan p).2 := by
  have hstep : ∀ c (t t' : HostTrial), True → t.past = t'.past ∧ Alike root t.host t'.host →
      (trialAnswer plan c t).1 = (trialAnswer plan c t').1 ∧
        (trialAnswer plan c t).2.past = (trialAnswer plan c t').2.past ∧
        Alike root (trialAnswer plan c t).2.host (trialAnswer plan c t').2.host := by
    rintro c t t' - ⟨hpast, hhost⟩
    obtain ⟨hresult, hnext⟩ := hhost.answerWith (plan t'.past.length) c
    simp only [trialAnswer, hpast, hresult, hhost.world, true_and]
    exact hnext
  obtain ⟨hresult, -, hhost⟩ := (Program.asks_true p.run).run_related hstep
    (s := { host := x }) (t := { host := y }) ⟨rfl, h⟩
  exact ⟨hresult, hhost⟩

/-- A session goes alike on both hosts. -/
theorem Alike.after (h : Alike root x y) (events : List Event) :
    Alike root (x.after events) (y.after events) := by
  induction events generalizing x y with
  | nil => exact h
  | cons e rest ih =>
    refine ih ?_
    cases e with
    | request q plan => exact (h.attempt plan q.service).2
    | importCatalogue testbeds tests =>
      exact ⟨congrArg (World.perform · (.importCatalogue testbeds tests)) h.world, h.roots,
        h.system⟩
    | addAgent testbedId url username password =>
      exact ⟨congrArg (World.perform · (.addAgent testbedId url username password)) h.world,
        h.roots, h.system⟩
    | meanwhile surroundings =>
      exact ⟨congrArg (World.perform · (.meanwhile surroundings)) h.world, h.roots, h.system⟩

/-- A call changes what is below the root, and makes directories on the way to it. -/
theorem GrewFrom.answerWith (h : GrewFrom s root x) (mishap : Option Mishap) (c : Call) :
    GrewFrom s root (x.answerWith mishap c).2 := by
  by_cases hc : c.ReachesFiles
  · cases c with
    | upload path contents =>
      rw [Host.answerWith, h.roots]
      exact ⟨h.roots, h.system.trans (x.system.growsBelow_upload root path contents)⟩
    | download path => exact h
    | holds path => exact h
    | _ => exact hc.elim
  · rw [answerWith_of_not_reachesFiles hc]
    exact ⟨(root_answerWith hc mishap x.world).trans h.roots, h.system⟩

/-- A session changes what is below the root, and makes directories on the way to it. -/
theorem GrewFrom.after (h : GrewFrom s root x) (events : List Event) :
    GrewFrom s root (x.after events) := by
  induction events generalizing x with
  | nil => exact h
  | cons e rest ih =>
    refine ih ?_
    cases e with
    | request q plan =>
      have hstep : ∀ c (t : HostTrial), True → GrewFrom s root t.host →
          GrewFrom s root (trialAnswer plan c t).2.host :=
        fun c t _ ht => ht.answerWith (plan t.past.length) c
      exact (Program.asks_true q.service.run).run_invariant hstep (s := { host := x }) h
    | importCatalogue _ _ | addAgent _ _ _ _ | meanwhile _ => exact ⟨h.roots, h.system⟩

/-! ## Containment -/

/-- Whether a session goes on a system as in the world whose warehouse lies at a place of it. -/
structure GoesAsWorld (s : System) (place : List String) (w : World) (events : List Event) :
    Prop where
  results : ∀ {α : Type} (p : Service α) plan,
    (((mk w s).after events).attempt plan p).1 = ((w.after events).attempt plan p).1
  outside : ∀ names, ¬ place <+: names →
    ((mk w s).after events).system.tree.entry names = s.tree.entry names
  inside : ∀ names, ((mk w s).after events).system.tree.file? (place ++ names) =
    (lastWrite? names (w.written events)).or (s.tree.file? (place ++ names))

/-- Whether the files of a world on a system are reached at the place of the root and below it only,
in a session. On the way to the root it is only seen whether there is a directory, a file or
nothing, and only directories are made there. -/
structure StaysBelow (s : System) (w : World) (events : List Event) : Prop where
  resolves : ∀ path, (∃ target, Warehouse.resolve w.warehouse.root path = .ok target) ↔
    path ≠ "" ∧ path.toList.head? ≠ some '/' ∧ ¬ IsPart ".." path
  below : ∀ path target, Warehouse.resolve w.warehouse.root path = .ok target →
    (normalForm target).1 = (normalForm w.warehouse.root).1 ∧
      (normalForm w.warehouse.root).2 <+: (normalForm target).2
  /-- What is asked for next gives the same, whatever a system holds elsewhere. -/
  reads : ∀ t, s.AlikeBelow w.warehouse.root t → ∀ {α : Type} (p : Service α) plan,
    (((mk w s).after events).attempt plan p).1 = (((mk w t).after events).attempt plan p).1
  outside : ∀ names, ¬ s.rootPlace w.warehouse.root <+: names →
    ((mk w s).after events).system.tree.entry names = s.tree.entry names ∨
      s.OnRootWay w.warehouse.root names ∧ s.tree.entry names = (false, none) ∧
        ((mk w s).after events).system.tree.entry names = (true, none)
  /-- A path that is taken nowhere is refused, and nothing is done for it. -/
  unresolved : ∀ path, (¬ ∃ target, Warehouse.resolve w.warehouse.root path = .ok target) →
    ∃ e, (∀ contents, ((mk w s).after events).system.upload w.warehouse.root path contents =
        (((mk w s).after events).system, .error e)) ∧
      ((mk w s).after events).system.download w.warehouse.root path = .error e ∧
      ((mk w s).after events).system.contains w.warehouse.root path = .error e
  /-- An upload that is refused, or finds no place to write to, changes no file. -/
  refused : ∀ path contents e,
    (((mk w s).after events).system.upload w.warehouse.root path contents).2 = .error e →
    ∀ names,
      (((mk w s).after events).system.upload w.warehouse.root path contents).1.tree.file? names =
        ((mk w s).after events).system.tree.file? names
  mounted : ∀ place, s.Mounts place w.warehouse → GoesAsWorld s place w events

/-- A path that is taken nowhere is refused by all that is done with files. -/
theorem refused_of_unresolved (s : System) {path : String}
    (h : ¬ ∃ target, Warehouse.resolve root path = .ok target) :
    ∃ e, (∀ contents, s.upload root path contents = (s, .error e)) ∧
      s.download root path = .error e ∧ s.contains root path = .error e := by
  cases hresolve : Warehouse.resolve root path with
  | ok target => exact absurd ⟨target, hresolve⟩ h
  | error e =>
    refine ⟨e, fun contents => ?_, ?_, ?_⟩
    · rw [System.upload, hresolve]
    · rw [System.download, hresolve]
    · rw [System.contains, hresolve]
      rfl

/-- Where the path of the root leads to a place, a session goes as in the world. -/
theorem goesAsWorld_of_mounts (h : s.Mounts place w.warehouse) (events : List Event) :
    GoesAsWorld s place w events := by
  have hbegin : Mirrors s place ⟨w, s⟩ w := ⟨⟨w.warehouse.tree, rfl⟩, h, fun _ _ => rfl⟩
  have hafter := hbegin.after events
  refine ⟨fun p plan => (hafter.attempt plan p).1, hafter.outside, fun names => ?_⟩
  rw [FileTree.file?_of_entry_eq (hafter.mounts.shows names),
    FileTree.file?_of_entry_eq (h.shows names)]
  exact w.file?_after events names

/-- However a session goes, and whatever it names its applications, tests, directories of results
and full names, only files at the place of the warehouse's root and below it are read and written,
on every system. -/
theorem sessions_stay_below_root (s : System) (w : World) (events : List Event) :
    StaysBelow s w events := by
  constructor
  case resolves => exact w.warehouse.exists_resolve_iff
  case below => exact fun _ _ htarget => Warehouse.below_of_resolve htarget
  case reads =>
    intro t ht α p plan
    have hbegin : Alike w.warehouse.root (mk w s) (mk w t) := ⟨rfl, rfl, ht⟩
    exact ((hbegin.after events).attempt plan p).1
  case outside =>
    have hbegin : GrewFrom s w.warehouse.root (mk w s) := ⟨rfl, .refl _ s⟩
    exact fun _ hnames => (hbegin.after events).system.entry hnames
  case unresolved => exact fun _ h => refused_of_unresolved _ h
  case refused =>
    intro path contents e herror names
    rw [FileTree.file?, FileTree.file?, System.files_upload_of_error herror]
  case mounted => exact fun _ h => goesAsWorld_of_mounts h events

/-- A system with a directory for the manager, in which the warehouse is not made yet, and a
file elsewhere. -/
def smallSystem : System where
  tree := { directories := [[], ["srv"]], files := [(["secret"], ⟨#[7]⟩)] }
  current := ["srv"]

/-- The directories of the small system. -/
theorem smallSystem_isDirectory {names : List String} :
    smallSystem.tree.isDirectory names = true ↔ names = [] ∨ names = ["srv"] := by
  simp [FileTree.isDirectory, smallSystem]

/-- The file of the small system. -/
theorem smallSystem_isSome_file? {names : List String} :
    (smallSystem.tree.file? names).isSome ↔ names = ["secret"] := by
  rw [FileTree.isSome_file?_iff]
  simpa [smallSystem] using eq_comm

/-- The files of the small system are well formed. -/
theorem smallSystem_wellFormed : smallSystem.tree.WellFormed := by
  refine ⟨by decide, fun base name htaken => ?_, fun names hthere => ?_⟩
  · rw [smallSystem_isDirectory, smallSystem_isSome_file?] at htaken
    obtain ⟨rfl, rfl | rfl⟩ : base = [] ∧ (name = "srv" ∨ name = "secret") := by
      cases base <;> simp_all
    · decide
    · decide
  · rcases smallSystem_isDirectory.mp hthere with rfl | rfl <;> decide

/-- The small system mounts the warehouse of the small world. -/
theorem smallSystem_mounts : smallSystem.Mounts ["srv", "warehouse"] smallWorld.warehouse where
  wellFormed := smallSystem_wellFormed
  current := by decide
  leads := by decide
  named := by decide
  shows := by
    intro names
    have hfree : smallSystem.tree.isDirectory (["srv", "warehouse"] ++ names) = false :=
      Bool.eq_false_iff.mpr fun hthere => by simpa using smallSystem_isDirectory.mp hthere
    have hnone : smallSystem.tree.file? (["srv", "warehouse"] ++ names) = none :=
      Option.not_isSome_iff_eq_none.mp fun hthere => by
        simpa using smallSystem_isSome_file?.mp hthere
    exact Prod.ext hfree hnone

/-- A session with an upload that is taken, one that is refused, and a publication. -/
def smallSession : List Event :=
  [.request (.keepArchive "app" "t" ⟨#[1]⟩) fun _ => none,
    .request (.keepArchive "../.." "t" ⟨#[2]⟩) fun _ => none,
    .request (.callback 1 "communication" (.publishResults "../out")) fun _ => none]

/-- A system that has nothing but its top and a file in it. -/
def bareSystem : System where
  tree := { directories := [[]], files := [(["secret"], ⟨#[7]⟩)] }
  current := []

/-- The small world, with its warehouse further down. -/
def distantWorld : World := { smallWorld with warehouse := { root := "srv/warehouse" } }

/-- The session goes as in the world where the way to the root is there; where it is not, the upload
makes it. -/
theorem sessions_stay_below_root_small :
    smallSystem.Mounts ["srv", "warehouse"] smallWorld.warehouse ∧
      StaysBelow smallSystem smallWorld smallSession ∧
      ((mk smallWorld smallSystem).after smallSession).system.tree.file?
        ["srv", "warehouse", "developer-defined-tests", "app", "t.tar.gz"] = some ⟨#[1]⟩ ∧
      StaysBelow bareSystem distantWorld smallSession ∧
      ((mk distantWorld bareSystem).after smallSession).system.tree.isDirectory ["srv"] = true ∧
      ((mk distantWorld bareSystem).after smallSession).system.tree.file?
        ["srv", "warehouse", "developer-defined-tests", "app", "t.tar.gz"] = some ⟨#[1]⟩ :=
  ⟨smallSystem_mounts, sessions_stay_below_root smallSystem smallWorld smallSession,
    by decide +kernel, sessions_stay_below_root bareSystem distantWorld smallSession,
    by decide +kernel, by decide +kernel⟩

end Host
end PipelineManager
