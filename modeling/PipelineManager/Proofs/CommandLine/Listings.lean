import PipelineManager.Proofs.Store.Document
import PipelineManager.Proofs.Store.Masking

/-!
# Listings without secrets

The command line opens the store that a file keeps, and lists agents, runs and states of it. Two
trees of files that are the same but for the stores that some of their files keep give the same
listings, when the stores differ in secrets at most.
-/

namespace PipelineManager

/-! ## Trees that keep stores -/

/-- Whether a file of a tree keeps a store. -/
def FileTree.Keeps (t : FileTree) (s : Store) (names : List String) : Prop :=
  ∃ text, (t.file? names).bind (fun contents => Text.Utf8.strict? contents.toList) = some text ∧
    s.IsText text

/-- Whether two trees are the same, but that some files keep one store in the one and another in the
other. -/
structure FileTree.DiffersInStores (s s' : Store) (t t' : FileTree) : Prop where
  directories : t.directories = t'.directories
  files : ∀ names, t.file? names = t'.file? names ∨ (t.Keeps s names ∧ t'.Keeps s' names)

namespace FileTree.DiffersInStores

variable {s s' : Store} {t t' : FileTree}

/-- Trees that differ in the store have the same directories. -/
theorem isDirectory (h : t.DiffersInStores s s' t') (names : List String) :
    t.isDirectory names = t'.isDirectory names := by
  rw [FileTree.isDirectory, FileTree.isDirectory, h.directories]

/-- Trees that differ in the store have files at the same places. -/
theorem isSome_file? (h : t.DiffersInStores s s' t') (names : List String) :
    (t.file? names).isSome = (t'.file? names).isSome := by
  have hkept {s : Store} {t : FileTree} (hkeeps : t.Keeps s names) :
      (t.file? names).isSome = true := by
    obtain ⟨text, hread, -⟩ := hkeeps
    obtain ⟨contents, hfile, -⟩ := Option.bind_eq_some_iff.mp hread
    rw [hfile, Option.isSome_some]
  rcases h.files names with heq | ⟨hkeeps, hkeeps'⟩
  · rw [heq]
  · rw [hkept hkeeps, hkept hkeeps']

/-- In trees that differ in the store a path leads to the same place. -/
theorem follow (h : t.DiffersInStores s s' t') (base names : List String) :
    t.follow base names = t'.follow base names := by
  induction names generalizing base with
  | nil => rfl
  | cons name rest ih => simp only [FileTree.follow, h.isDirectory, ih]

/-- In trees that differ in the store a path has the same place, or none in both. -/
theorem place? (h : t.DiffersInStores s s' t') (path : String) :
    t.place? path = t'.place? path := by
  rw [FileTree.place?, FileTree.place?, h.follow]

/-- A file reads the same in both, or as texts of the stores. -/
theorem readText (h : t.DiffersInStores s s' t') (path : String) :
    t.readText path = t'.readText path ∨
      ∃ text text',
        t.readText path = some text ∧ t'.readText path = some text' ∧ s.IsText text ∧
        s'.IsText text' := by
  have hread (t : FileTree) : t.readText path = (t.place? path).bind fun names =>
    (t.file? names).bind fun contents => Text.Utf8.strict? contents.toList := rfl
  rw [hread, hread, h.place? path]
  cases t'.place? path with
  | none => exact .inl rfl
  | some names =>
    rcases h.files names with heq | ⟨⟨text, htext, hs⟩, text', htext', hs'⟩
    · exact .inl (by rw [Option.bind_some, heq, Option.bind_some])
    · exact .inr ⟨text, text', htext, htext', hs, hs'⟩

/-! ### Directories that are made -/

/-- A directory is made in both trees or in neither. -/
theorem makeDirectory (h : t.DiffersInStores s s' t') (names : List String) :
    Option.Rel (DiffersInStores s s') (t.makeDirectory names) (t'.makeDirectory names) := by
  unfold FileTree.makeDirectory
  rw [h.isDirectory, h.isSome_file?]
  split
  · exact .some h
  split
  · exact .none
  · exact .some ⟨congrArg (· ++ [names]) h.directories, h.files⟩

/-- Directories are made alike in both trees. -/
theorem makeDirectories (h : t.DiffersInStores s s' t') (base names : List String) :
    (t.makeDirectories base names).2 = (t'.makeDirectories base names).2 ∧
      (t.makeDirectories base names).1.DiffersInStores s s' (t'.makeDirectories base names).1 := by
  induction names generalizing base t t' with
  | nil =>
    unfold FileTree.makeDirectories
    have hmade := h.makeDirectory base
    generalize t.makeDirectory base = made at hmade ⊢
    generalize t'.makeDirectory base = made' at hmade ⊢
    cases hmade with
    | none => exact ⟨rfl, h⟩
    | some hmade => exact ⟨rfl, hmade⟩
  | cons name rest ih =>
    unfold FileTree.makeDirectories
    have hmade := h.makeDirectory base
    generalize t.makeDirectory base = made at hmade ⊢
    generalize t'.makeDirectory base = made' at hmade ⊢
    cases hmade with
    | none => exact ⟨rfl, h⟩
    | some hmade => exact ih hmade _

/-- The directories of a path are made alike in both trees. -/
theorem makePath (h : t.DiffersInStores s s' t') (path : String) :
    (t.makePath path).2 = (t'.makePath path).2 ∧
      (t.makePath path).1.DiffersInStores s s' (t'.makePath path).1 := by
  unfold FileTree.makePath
  split
  · exact ⟨rfl, h⟩
  · exact h.makeDirectories _ _

end FileTree.DiffersInStores

/-! ## Commands side by side -/

namespace CommandLine

/-- What a part of a command gives and has printed when it is carried out on a tree, and
the tree then. -/
def onTree {α : Type} (p : Shell (StateM FileTree) α) (x : Transcript) (t : FileTree) :
    (Except Fault α × Transcript) × FileTree := (p.run.run x).run t

/-- Whether parts of commands that are carried out side by side, on trees that differ in the stores
they keep, print the same and give related results. -/
structure PrintAlike {α β : Type} (s s' : Store) (R : α → β → Prop) (p : Shell (StateM FileTree) α)
    (q : Shell (StateM FileTree) β) (x : Transcript) (t t' : FileTree) : Prop where
  result : ResultsAgree R (onTree p x t).1.1 (onTree q x t').1.1
  printed : (onTree p x t).1.2 = (onTree q x t').1.2
  after : (onTree p x t).2.DiffersInStores s s' (onTree q x t').2

section Rules

variable {α β γ δ : Type} {s s' : Store} {R : α → β → Prop} {S : γ → δ → Prop} {x : Transcript}
  {t t' : FileTree}

/-- Commands that only give results print alike. -/
theorem printAlike_pure (h : t.DiffersInStores s s' t') {a : α} {b : β} (hab : R a b) :
    PrintAlike s s' R (pure a) (pure b) x t t' := ⟨.ok hab, rfl, h⟩

/-- Commands that fail in one way print alike. -/
theorem printAlike_throw (h : t.DiffersInStores s s' t') (e : Fault) :
    PrintAlike s s' R (throw e) (throw e) x t t' := ⟨.error e, rfl, h⟩

/-- The same text is printed. -/
theorem printAlike_say (h : t.DiffersInStores s s' t') (text : String) :
    PrintAlike s s' Eq (say text) (say text) x t t' := ⟨.ok rfl, rfl, h⟩

/-- A command with another one behind it goes on with the tree that it leaves. -/
theorem onTree_bind (p : Shell (StateM FileTree) α) (next : α → Shell (StateM FileTree) γ)
    (x : Transcript) (t : FileTree) :
    onTree (p >>= next) x t =
      match onTree p x t with
      | ((.ok a, x'), t') => onTree (next a) x' t'
      | ((.error e, x'), t') => ((.error e, x'), t') := by
  have hbind : onTree (p >>= next) x t =
    ((fun r : (Except Fault α × Transcript) × FileTree =>
      ((ExceptT.bindCont next r.1.1).run r.1.2).run r.2) (onTree p x t)) := rfl
  rw [hbind]
  rcases onTree p x t with ⟨⟨e | a, x'⟩, t'⟩ <;> rfl

/-- Commands print alike when their first parts do, and the parts behind for all results that
agree. -/
theorem printAlike_bind {p : Shell (StateM FileTree) α} {q : Shell (StateM FileTree) β}
    {next : α → Shell (StateM FileTree) γ} {next' : β → Shell (StateM FileTree) δ}
    (h : PrintAlike s s' R p q x t t')
    (hnext : ∀ a b x t t',
      R a b → t.DiffersInStores s s' t' → PrintAlike s s' S (next a) (next' b) x t t') :
    PrintAlike s s' S (p >>= next) (q >>= next') x t t' := by
  obtain ⟨hresult, hprinted, hafter⟩ := h
  rcases hp : onTree p x t with ⟨⟨a, y⟩, v⟩
  rcases hq : onTree q x t' with ⟨⟨b, y'⟩, v'⟩
  rw [hp, hq] at hresult hprinted hafter
  obtain rfl : y = y' := hprinted
  cases hresult with
  | ok hab =>
    obtain ⟨hresult, hprinted, hafter⟩ := hnext _ _ y v v' hab hafter
    constructor <;> rw [onTree_bind, onTree_bind, hp, hq] <;> assumption
  | error e =>
    constructor <;> rw [onTree_bind, onTree_bind, hp, hq]
    · exact .error e
    · exact hafter

/-- What must be there is gone on with alike, or missing in both. -/
theorem printAlike_orFail (h : t.DiffersInStores s s' t') {a a' : Option α} {R : α → α → Prop}
    (ha : Option.Rel R a a') (fault : Fault) :
    PrintAlike s s' R (orFail a fault) (orFail a' fault) x t t' := by
  cases ha with
  | none => exact printAlike_throw h fault
  | some hR => exact printAlike_pure h hR

/-- Whether two texts that were read are the same, or those of the stores. -/
def ReadAlike (s s' : Store) (text text' : String) : Prop :=
  text = text' ∨ (s.IsText text ∧ s'.IsText text')

/-- A text is read alike in both trees. -/
theorem readAlike_readText (h : t.DiffersInStores s s' t') (path : String) :
    Option.Rel (ReadAlike s s') (t.readText path) (t'.readText path) := by
  rcases h.readText path with heq | ⟨text, text', htext, htext', hs, hs'⟩
  · rw [heq]
    cases t'.readText path with
    | none => exact .none
    | some text => exact .some (.inl rfl)
  · rw [htext, htext']
    exact .some (.inr ⟨hs, hs'⟩)

/-- Commands that read a file print alike. -/
theorem printAlike_read (h : t.DiffersInStores s s' t') (path : String) :
    PrintAlike s s' (Option.Rel (ReadAlike s s')) (onFiles (FileTree.access.read path))
      (onFiles (FileTree.access.read path)) x t t' :=
  ⟨.ok (readAlike_readText h path), rfl, h⟩

/-- Commands that make directories print alike. -/
theorem printAlike_makeDirectories (h : t.DiffersInStores s s' t') (path : String) :
    PrintAlike s s' Eq (onFiles (FileTree.access.makeDirectories path))
      (onFiles (FileTree.access.makeDirectories path))
      x t t' :=
  ⟨.ok (h.makePath path).1, rfl, (h.makePath path).2⟩

end Rules

section Commands

variable {s s' : Store} {x : Transcript} {t t' : FileTree}

/-! ### The configuration -/

/-- A text of a store is no configuration, so what is read as one is the same. -/
theorem ReadAlike.ofToml?_eq {text text' : String} (h : ReadAlike s s' text text') :
    Config.ofToml? text = Config.ofToml? text' := by
  rcases h with rfl | ⟨hs, hs'⟩
  · rfl
  · rw [hs.ofToml?_eq_none, hs'.ofToml?_eq_none]

/-- The configuration is read alike, since it is no store. -/
theorem printAlike_readConfig (h : t.DiffersInStores s s' t') (path : String) :
    PrintAlike s s' Eq (readConfig FileTree.access path) (readConfig FileTree.access path)
      x t t' := by
  refine printAlike_bind (printAlike_bind (printAlike_read h path) fun a a' x t t' ha h =>
    printAlike_orFail h ha _) fun text text' x t t' htext h => ?_
  rw [htext.ofToml?_eq]
  refine printAlike_orFail h ?_ _
  cases Config.ofToml? text' with
  | none => exact .none
  | some config => exact .some rfl

/-- The configuration of a tree when none is named. -/
theorem run_defaultConfig (fromEnvironment : Option String) (t : FileTree) :
    (defaultConfig FileTree.access fromEnvironment).run t =
      (((fromEnvironment.bind fun path => (t.readText path).bind Config.ofToml?).or
        ((t.readText systemConfigPath).bind Config.ofToml?)).getD {}, t) := by
  cases fromEnvironment with
  | none => rfl
  | some path =>
    have htry : (tryConfig FileTree.access path).run t =
        ((t.readText path).bind Config.ofToml?, t) := rfl
    rw [defaultConfig, StateT.run_bind, htry, Option.bind_some]
    cases (t.readText path).bind Config.ofToml? <;> rfl

/-- The default configuration is found alike. -/
theorem printAlike_defaultConfig (h : t.DiffersInStores s s' t') (fromEnvironment : Option String) :
    PrintAlike s s' Eq (onFiles (defaultConfig FileTree.access fromEnvironment))
      (onFiles (defaultConfig FileTree.access fromEnvironment)) x t t' := by
  have hconfig (path : String) :
      (t.readText path).bind Config.ofToml? = (t'.readText path).bind Config.ofToml? := by
    have hread := readAlike_readText h path
    generalize t.readText path = text at hread ⊢
    generalize t'.readText path = text' at hread ⊢
    cases hread with
    | none => rfl
    | some htext => exact htext.ofToml?_eq
  have honTree (t : FileTree) :
    onTree (onFiles (defaultConfig FileTree.access fromEnvironment)) x t =
      ((.ok ((defaultConfig FileTree.access fromEnvironment).run t).1, x),
        ((defaultConfig FileTree.access fromEnvironment).run t).2) := rfl
  have hsame : ((defaultConfig FileTree.access fromEnvironment).run t).1 =
      ((defaultConfig FileTree.access fromEnvironment).run t').1 := by
    rw [run_defaultConfig, run_defaultConfig]
    simp only [hconfig]
  constructor
  · rw [honTree, honTree, hsame]
    exact .ok rfl
  · rfl
  · rw [honTree, honTree, run_defaultConfig, run_defaultConfig]
    exact h

/-! ### The store -/

/-- Texts of stores that differ in secrets alone are read as stores that do. -/
theorem ReadAlike.rel_ofText? (hs : s.masked = s'.masked) {text text' : String}
    (h : ReadAlike s s' text text') :
    Option.Rel (fun a b => a.masked = b.masked) (Store.ofText? text) (Store.ofText? text') := by
  rcases h with rfl | ⟨htext, htext'⟩
  · cases Store.ofText? text with
    | none => exact .none
    | some s => exact .some rfl
  · rw [htext.ofText?_eq, htext'.ofText?_eq]
    exact .some hs

/-- A store is opened alike but for its secrets. -/
theorem printAlike_openStore (h : t.DiffersInStores s s' t') (hs : s.masked = s'.masked)
    (config : Config) :
    PrintAlike s s' (fun a b => a.masked = b.masked) (openStore FileTree.access config)
      (openStore FileTree.access config) x t t' := by
  -- Whatever becomes of the directory, the store is read behind it.
  have hread {x : Transcript} {t t' : FileTree} (h : t.DiffersInStores s s' t')
      {next : Option String → Shell (StateM FileTree) Store} (hnone : next none = pure {})
      (hsome : ∀ text, next (some text) = orFail (Store.ofText? text) .databaseMalformed) :
      PrintAlike s s' (fun a b => a.masked = b.masked)
        (onFiles (FileTree.access.read config.databasePath) >>= next)
        (onFiles (FileTree.access.read config.databasePath) >>= next) x t t' := by
    refine printAlike_bind (printAlike_read h _) fun text text' x t t' htext h => ?_
    cases htext with
    | none => exact hnone ▸ printAlike_pure h rfl
    | some htext =>
      rw [hsome, hsome]
      exact printAlike_orFail h (htext.rel_ofText? hs) _
  unfold openStore
  dsimp only
  split
  · exact hread h rfl fun _ => rfl
  refine printAlike_bind (printAlike_makeDirectories h _) ?_
  rintro made _ x t t' rfl h
  cases made with
  | true => exact hread h rfl fun _ => rfl
  | false =>
    exact printAlike_bind (printAlike_throw h _) fun (_ _ : PUnit) x t t' (_ : True) h =>
      hread h rfl fun _ => rfl

/-! ### Listings -/

/-- Whether a command lists agents, runs or states. -/
def Command.IsListing : Command → Prop
  | .listAgents _ | .status _ => True
  | _ => False

/-- The listing of agents shows no password. -/
theorem agentsListing_masked (testbedId : String) (agents : List Agent) :
    agentsListing testbedId (agents.map Agent.masked) = agentsListing testbedId agents := by
  simp only [agentsListing, List.isEmpty_map, List.map_map]
  rfl

/-- The listing of runs shows no token. -/
theorem runsListing_masked (runs : List Run) :
    runsListing (runs.map Run.masked) = runsListing runs := by
  simp only [runsListing, List.isEmpty_map, List.map_map]
  rfl

/-- A listing prints alike whatever the secrets are. -/
theorem printAlike_carryOut (h : t.DiffersInStores s s' t') (hs : s.masked = s'.masked)
    (config : Config) {c : Command} (hc : c.IsListing) :
    PrintAlike s s' Eq (carryOut FileTree.access config c) (carryOut FileTree.access config c)
      x t t' := by
  have hopened := printAlike_openStore (x := x) h hs config
  cases c with
  | listAgents testbedId =>
    refine printAlike_bind hopened fun a b x t t' hab h => ?_
    rw [← agentsListing_masked, ← Store.agentsOf_masked, hab, Store.agentsOf_masked,
      agentsListing_masked]
    exact printAlike_say h _
  | status runId =>
    cases runId with
    | none =>
      refine printAlike_bind hopened fun a b x t t' hab h => ?_
      have hruns : a.runs.map Run.masked = b.runs.map Run.masked := congrArg Store.runs hab
      rw [← runsListing_masked, hruns, runsListing_masked]
      exact printAlike_say h _
    | some runId =>
      refine printAlike_bind hopened fun a b x t t' hab h => ?_
      have hlog : a.statusLog runId = b.statusLog runId := congrArg (fun s => s.statusLog runId) hab
      rw [hlog]
      cases b.statusLog runId with
      | ok log => exact printAlike_say h _
      | error e => exact printAlike_throw h _
  | _ => exact hc.elim

end Commands

/-- Listings of trees that differ in the stores they keep are the same, when the stores differ in
secrets at most. -/
theorem run_listing_eq {s s' : Store} {t t' : FileTree} (h : t.DiffersInStores s s' t')
    (hs : s.masked = s'.masked) (fromEnvironment : Option String) {args : List String}
    {i : Invocation} (hargs : Invocation.read args = .ok i) (hlisting : i.command.IsListing) :
    ((run FileTree.access fromEnvironment args).run t).1 =
      ((run FileTree.access fromEnvironment args).run t').1 := by
  have hinvoked : PrintAlike s s' Eq (invoke FileTree.access fromEnvironment i)
      (invoke FileTree.access fromEnvironment i) {} t t' := by
    unfold invoke
    cases i.config with
    | some path =>
      refine printAlike_bind (printAlike_readConfig h path) ?_
      rintro config _ x t t' rfl h
      exact printAlike_carryOut h hs config hlisting
    | none =>
      refine printAlike_bind (printAlike_defaultConfig h fromEnvironment) ?_
      rintro config _ x t t' rfl h
      exact printAlike_carryOut h hs config hlisting
  have hrun (t : FileTree) : ((run FileTree.access fromEnvironment args).run t).1 =
      match (onTree (invoke FileTree.access fromEnvironment i) {} t).1 with
      | (.ok (), x) => { code := 0, out := x.out, complaints := x.complaints }
      | (.error fault, x) =>
        { code := 1, out := x.out,
          complaints := x.complaints ++ "Error: " ++ fault.message ++ "\n" } := by
    unfold run
    rw [hargs]
    rcases hended : onTree (invoke FileTree.access fromEnvironment i) {} t with ⟨⟨e | u, x⟩, t'⟩
    all_goals
      have hsteps : ((invoke FileTree.access fromEnvironment i).run.run {}).run t = _ := hended
      simp only [StateT.run_bind, hsteps]
      rfl
  obtain ⟨hresult, hprinted, -⟩ := hinvoked
  rw [hrun, hrun]
  generalize onTree (invoke FileTree.access fromEnvironment i) {} t = ended at hresult hprinted ⊢
  generalize onTree (invoke FileTree.access fromEnvironment i) {} t' = ended' at hresult hprinted ⊢
  obtain ⟨⟨r, x⟩, v⟩ := ended
  obtain ⟨⟨r', x'⟩, v'⟩ := ended'
  obtain rfl : x = x' := hprinted
  cases hresult <;> rfl

end CommandLine
end PipelineManager
