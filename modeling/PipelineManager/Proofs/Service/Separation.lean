import PipelineManager.Proofs.Pipeline.TestCommands
import PipelineManager.Proofs.Service.Archives

/-!
# Archives of different owners

An archive is kept below a directory of its network application. The name of a test is checked
before it becomes part of the path, and the identifier of the network application is not: it may
lead through directories of its own. Two archives are kept apart unless they are of tests of one
name, of network applications whose identifiers lead to one directory.
-/

namespace PipelineManager

/-! ## Directories -/

namespace World

variable {w : World}

/-- Where a directory is not now, there was none before. -/
theorem isDirectory_of_after {names : List String} (events : List Event)
    (h : (w.after events).warehouse.tree.isDirectory names = false) :
    w.warehouse.tree.isDirectory names = false :=
  Bool.eq_false_iff.mpr fun hthere =>
    Bool.false_ne_true
      (h.symm.trans (FileTree.isDirectory_mono (w.directories_after events) hthere))

/-- A file that is there stays there. -/
theorem exists_file?_after {names : List String} {contents : ByteArray}
    (h : w.file? names = some contents) (events : List Event) :
    ∃ contents', (w.after events).file? names = some contents' := by
  rw [file?_after, h]
  cases lastWrite? names (w.written events) with
  | none => exact ⟨contents, rfl⟩
  | some contents' => exact ⟨contents', rfl⟩

end World

/-! ## Owners -/

/-- What an archive is kept for: a network application and the name of a test. -/
structure ArchiveKey where
  netappId : String
  name : String
deriving DecidableEq, Repr

namespace ArchiveKey

/-- Where an archive is kept. -/
def path (k : ArchiveKey) : String := archivePath k.netappId k.name

/-- The directories that the identifier of a network application leads through. -/
def directories (k : ArchiveKey) : List String := (namesOf k.netappId).filter (!isIdle ·)

/-- Whether two tests have one name and network applications whose identifiers lead through the same
directories. -/
def SharesPlace (k k' : ArchiveKey) : Prop := k.name = k'.name ∧ k.directories = k'.directories

instance (k k' : ArchiveKey) : Decidable (k.SharesPlace k') := inferInstanceAs (Decidable (_ ∧ _))

/-- The request to keep an archive. -/
def keeping (k : ArchiveKey) (archive : ByteArray) (plan : Nat → Option Mishap) : Event :=
  .request (.keepArchive k.netappId k.name archive) plan

variable {k k' : ArchiveKey}

/-- The place of an archive, unless the identifier of its network application could lead out of
the warehouse. -/
theorem ofPath_path (hname : isTestName k.name.toList = true) :
    Location.ofPath k.path =
      if ".." ∈ namesOf k.netappId then .error (.escapes k.path)
      else .ok ⟨"developer-defined-tests" :: (k.directories ++ [k.name ++ ".tar.gz"]), false⟩ := by
  have hslash : '/' ∉ (k.name ++ ".tar.gz").toList := by
    have hchars : '/' ∉ k.name.toList :=
      fun hmem => absurd (isNameChar_of_isTestName hname _ hmem) (by decide)
    simpa using hchars
  have hlong {other : String} (h : other.length < ".tar.gz".length) :
      k.name ++ ".tar.gz" ≠ other := by
    rintro rfl
    rw [String.length_append] at h
    omega
  have hpath :
      k.path = "developer-defined-tests" ++ "/" ++ k.netappId ++ "/" ++ (k.name ++ ".tar.gz") := by
    have htop : "developer-defined-tests/" = "developer-defined-tests" ++ "/" := by decide
    have hsame := congrArg (fun top => top ++ k.netappId ++ "/" ++ k.name ++ ".tar.gz") htop
    exact hsame.trans String.append_assoc
  have hnames :
      namesOf k.path =
          "developer-defined-tests" :: (namesOf k.netappId ++ [k.name ++ ".tar.gz"]) := by
    rw [hpath, namesOf_append, namesOf_append, namesOf_of_notMem hslash,
      namesOf_of_notMem (by decide)]
    rfl
  have hrelative : isAbsolute k.path = false := by
    rw [hpath]
    simp [isAbsolute]
  have hnonempty : k.path.isEmpty = false := by
    rw [hpath]
    simp [← String.toList_inj]
  have hdots : (namesOf k.path).contains ".." = decide (".." ∈ namesOf k.netappId) := by
    have hne := hlong (by decide : "..".length < ".tar.gz".length)
    simp [hnames, hne.symm]
  have hidle : isIdle (k.name ++ ".tar.gz") = false := by
    simp [isIdle, hlong (by decide : "".length < ".tar.gz".length),
      hlong (by decide : ".".length < ".tar.gz".length)]
  rw [Location.ofPath, hnonempty, if_neg Bool.false_ne_true, hrelative, Bool.false_or, hdots]
  by_cases hleaves : ".." ∈ namesOf k.netappId
  · simp [hleaves]
  · have htop : isIdle "developer-defined-tests" = false := by decide
    have hlast : (namesOf k.path).getLast?.getD "" = k.name ++ ".tar.gz" := by
      rw [hnames, ← List.cons_append, List.getLast?_concat, Option.getD_some]
    rw [hlast, hidle, hnames]
    simp [hleaves, hidle, htop, directories]

/-- Two archives lie at one place exactly when they share it. -/
theorem parts_eq_iff (hname : isTestName k.name.toList = true)
    (hname' : isTestName k'.name.toList = true) {location location' : Location}
    (h : Location.ofPath k.path = .ok location) (h' : Location.ofPath k'.path = .ok location') :
    location.parts = location'.parts ↔ k.SharesPlace k' := by
  rw [ofPath_path hname] at h
  rw [ofPath_path hname'] at h'
  split at h
  · cases h
  · split at h'
    · cases h'
    · obtain rfl := Except.ok.inj h
      obtain rfl := Except.ok.inj h'
      rw [List.cons_inj_right, List.append_singleton_inj, String.append_left_inj]
      exact and_comm

/-- The directories of an archive lead up iff its id does. -/
theorem dots_mem_directories : ".." ∈ k.directories ↔ ".." ∈ namesOf k.netappId := by
  rw [directories, List.mem_filter, and_iff_left (by decide)]

/-- Archives that share a place have paths that name one location. -/
theorem SharesPlace.ofPath_eq (h : k.SharesPlace k') (hname : isTestName k.name.toList = true)
    {location : Location} (hlocation : Location.ofPath k.path = .ok location) :
    Location.ofPath k'.path = .ok location := by
  obtain ⟨hsame, hdirectories⟩ := h
  rw [ofPath_path hname] at hlocation
  rw [ofPath_path (hsame ▸ hname)]
  split at hlocation
  · cases hlocation
  · next hdots =>
    rw [← dots_mem_directories, hdirectories, dots_mem_directories] at hdots
    rw [if_neg hdots, ← hsame, ← hdirectories]
    exact hlocation

end ArchiveKey

/-! ## Keeping apart -/

namespace World

variable {w : World} {k k' : ArchiveKey} {archive : ByteArray} {plan : Nat → Option Mishap}

/-- Whether a request to keep an archive succeeds. -/
def Keeps (w : World) (k : ArchiveKey) (archive : ByteArray) (plan : Nat → Option Mishap) : Prop :=
  (w.attempt plan (Manager.keepArchive k.netappId k.name archive)).1 = .ok k.path

/-- Keeping an archive uploads it iff its name is admitted. -/
theorem perform_keeping (w : World) (k : ArchiveKey) (archive : ByteArray)
    (plan : Nat → Option Mishap) :
    w.perform (k.keeping archive plan) =
      if isTestName k.name.toList then { w with warehouse := (w.warehouse.upload k.path archive).1 }
        else w := by
  rw [ArchiveKey.keeping, perform, ServiceRequest.service, attempt_keepArchive]
  split <;> rfl

/-- An archive is kept when its test may have its name and the upload succeeds. -/
theorem keeps_iff :
    w.Keeps k archive plan ↔
      isTestName k.name.toList = true ∧ (w.warehouse.upload k.path archive).2 = .ok () := by
  rw [Keeps, attempt_keepArchive]
  by_cases hname : isTestName k.name.toList = true
  · rw [if_pos hname]
    show ((w.warehouse.upload k.path archive).2.mapError _ |>.map fun _ => k.path) = _ ↔ _
    cases (w.warehouse.upload k.path archive).2 <;> simp [hname, Except.mapError, Except.map]
  · simp [hname]

/-- An archive that is kept lies at the place of its path, where no directory is. -/
theorem Keeps.lies (h : w.Keeps k archive plan) :
    ∃ location, Location.ofPath k.path = .ok location ∧ location.onlyDirectory = false ∧
      (w.perform (k.keeping archive plan)).warehouse.tree.isDirectory location.parts = false ∧
      (w.perform (k.keeping archive plan)).file? location.parts = some archive := by
  obtain ⟨hname, hupload⟩ := keeps_iff.mp h
  obtain ⟨location, hlocation, honly, hfile⟩ := Warehouse.file?_upload_of_ok hupload
  rw [perform_keeping, if_pos hname]
  exact ⟨location, hlocation, honly, Warehouse.isDirectory_upload_of_ok hupload hlocation,
    by rw [file?, hfile, if_pos rfl]⟩

/-- A request to keep an archive writes at no place but that of the archive. -/
theorem file?_keeping_of_not_sharesPlace (hname : isTestName k.name.toList = true)
    {location : Location} (hlocation : Location.ofPath k.path = .ok location)
    (hapart : ¬ k.SharesPlace k') (w : World) (archive' : ByteArray) (plan' : Nat → Option Mishap) :
    (w.perform (k'.keeping archive' plan')).warehouse.root = w.warehouse.root ∧
      (w.perform (k'.keeping archive' plan')).file? location.parts = w.file? location.parts := by
  rw [perform_keeping]
  split
  · next hname' =>
    exact w.warehouse.file?_upload_of_ne archive' fun location' hlocation' heq =>
      hapart ((ArchiveKey.parts_eq_iff hname hname' hlocation hlocation').mp heq)
  · exact ⟨rfl, rfl⟩

end World

namespace ArchiveKey

variable {w : World} {k k' : ArchiveKey} {archive : ByteArray} {plan : Nat → Option Mishap}

/-- Whether requests to keep an archive for one key never change what is seen at the path of
another, in sessions that keep an archive for the other, be it before the request or after it. -/
structure Spares (k' k : ArchiveKey) : Prop where
  later : ∀ (w : World) archive plan events archive' plan', w.Reachable → w.Keeps k archive plan →
    let v := (w.perform (k.keeping archive plan)).after events
    (v.perform (k'.keeping archive' plan')).warehouse.seen k.path = v.warehouse.seen k.path
  earlier : ∀ (w : World) archive' plan' events archive plan, w.Reachable →
    ((w.perform (k'.keeping archive' plan')).after events).Keeps k archive plan →
    (w.perform (k'.keeping archive' plan')).warehouse.seen k.path = w.warehouse.seen k.path

/-- An archive in another place is spared. -/
theorem spares_of_not_sharesPlace (hapart : ¬ k.SharesPlace k') : Spares k' k where
  later := by
    intro w archive plan events archive' plan' _ hkeeps v
    obtain ⟨location, hlocation, honly, -, hfile⟩ := hkeeps.lies
    obtain ⟨contents, hcontents⟩ := World.exists_file?_after hfile events
    obtain ⟨-, hsame⟩ :=
      World.file?_keeping_of_not_sharesPlace (World.keeps_iff.mp hkeeps).1 hlocation hapart v
        archive' plan'
    rw [Warehouse.seen_of_file? hlocation honly hcontents,
      Warehouse.seen_of_file? hlocation honly (hsame.trans hcontents)]
  earlier := by
    intro w archive' plan' events archive plan _ hkeeps
    obtain ⟨location, hlocation, honly, hfree, -⟩ := hkeeps.lies
    obtain ⟨hroot, hsame⟩ :=
      World.file?_keeping_of_not_sharesPlace (World.keeps_iff.mp hkeeps).1 hlocation hapart w
        archive' plan'
    have hfree' :=
      World.isDirectory_of_after events (World.isDirectory_of_after [k.keeping archive plan] hfree)
    refine Warehouse.seen_congr hroot hlocation ?_ hsame
    rw [hfree', World.isDirectory_of_after [k'.keeping archive' plan'] hfree']

/-- An archive is lost to another one that shares its place. -/
theorem seen_of_sharesPlace (hshares : k.SharesPlace k') (hkeeps : w.Keeps k archive plan)
    (archive' : ByteArray) :
    (w.perform (k.keeping archive plan)).Keeps k' archive' plan ∧
      ((w.perform (k.keeping archive plan)).perform (k'.keeping archive' plan)).warehouse.seen
          k.path = (.ok true, .ok archive') := by
  obtain ⟨hname, hupload⟩ := World.keeps_iff.mp hkeeps
  obtain ⟨location, hlocation, honly, -, -⟩ := hkeeps.lies
  have hlocation' := hshares.ofPath_eq hname hlocation
  have hname' : isTestName k'.name.toList = true := hshares.1 ▸ hname
  have hkeeps' : (w.perform (k.keeping archive plan)).Keeps k' archive' plan := by
    refine World.keeps_iff.mpr ⟨hname', ?_⟩
    rw [World.perform_keeping, if_pos hname]
    exact Warehouse.upload_again_of_ok hupload (hlocation'.trans hlocation.symm) archive'
  obtain ⟨location', hlocation'', -, -, hfile⟩ := hkeeps'.lies
  obtain rfl := Except.ok.inj (hlocation'.symm.trans hlocation'')
  exact ⟨hkeeps', Warehouse.seen_of_file? hlocation honly hfile⟩

/-- If an archive can be kept for a key in a session, then requests for another key never change
what is seen of it exactly when the names of the tests are different, or the identifiers of the
network applications lead through different directories. -/
theorem spares_iff (hw : w.Reachable) (hkeeps : w.Keeps k archive plan) :
    Spares k' k ↔ ¬ k.SharesPlace k' := by
  refine ⟨fun hspares hshares => ?_, spares_of_not_sharesPlace⟩
  have hlost := (seen_of_sharesPlace hshares hkeeps (archive.push 0)).2
  obtain ⟨location, hlocation, honly, -, hfile⟩ := hkeeps.lies
  have hbefore := Warehouse.seen_of_file? hlocation honly hfile
  have hsame := hspares.later w archive plan [] (archive.push 0) plan hw hkeeps
  have hpushed : archive.push 0 = archive := by
    have hdownloads := congrArg Prod.snd (hlost.symm.trans (hsame.trans hbefore))
    exact Except.ok.inj hdownloads
  have hsize := congrArg ByteArray.size hpushed
  rw [ByteArray.size_push] at hsize
  omega

/-- The archive of another id is spared in the small world. -/
theorem spares_iff_other :
    smallWorld.Reachable ∧ smallWorld.Keeps ⟨"app", "t"⟩ ⟨#[1]⟩ (fun _ => none) ∧
      (Spares ⟨"other", "t"⟩ ⟨"app", "t"⟩ ↔ ¬ SharesPlace ⟨"app", "t"⟩ ⟨"other", "t"⟩) ∧
      Spares ⟨"other", "t"⟩ ⟨"app", "t"⟩ := by
  have hreachable : smallWorld.Reachable := .start smallWorld_reachable rfl rfl rfl rfl
  have hkeeps : smallWorld.Keeps ⟨"app", "t"⟩ ⟨#[1]⟩ (fun _ => none) :=
    World.keeps_iff.mpr (by decide +kernel)
  have hiff : Spares ⟨"other", "t"⟩ ⟨"app", "t"⟩ ↔ ¬ SharesPlace ⟨"app", "t"⟩ ⟨"other", "t"⟩ :=
    spares_iff hreachable hkeeps
  exact ⟨hreachable, hkeeps, hiff, hiff.mpr (by decide +kernel)⟩

/-- An application whose identifier ends in a single dot overwrites the archive of the application
without it: archives are kept for both, and what is downloaded at the path of the first is then the
archive of the second. -/
theorem archive_lost_dot :
    (⟨"app", "t"⟩ : ArchiveKey) ≠ ⟨"app/.", "t"⟩ ∧ smallWorld.Reachable ∧
      smallWorld.Keeps ⟨"app", "t"⟩ ⟨#[1]⟩ (fun _ => none) ∧
      (smallWorld.perform (keeping ⟨"app", "t"⟩ ⟨#[1]⟩ fun _ => none)).Keeps ⟨"app/.", "t"⟩ ⟨#[2]⟩
        (fun _ => none) ∧
      (smallWorld.perform (keeping ⟨"app", "t"⟩ ⟨#[1]⟩ fun _ => none)).warehouse.download
        (path ⟨"app", "t"⟩) =
        .ok ⟨#[1]⟩ ∧
      ((smallWorld.perform (keeping ⟨"app", "t"⟩ ⟨#[1]⟩ fun _ => none)).perform
        (keeping ⟨"app/.", "t"⟩ ⟨#[2]⟩ fun _ => none)).warehouse.download (path ⟨"app", "t"⟩) =
      .ok ⟨#[2]⟩ := by
  have hkeeps : smallWorld.Keeps ⟨"app", "t"⟩ ⟨#[1]⟩ (fun _ => none) :=
    World.keeps_iff.mpr (by decide +kernel)
  have hshares : SharesPlace ⟨"app", "t"⟩ ⟨"app/.", "t"⟩ := by decide +kernel
  obtain ⟨location, hlocation, honly, -, hfile⟩ := hkeeps.lies
  obtain ⟨hkeeps', hseen⟩ := seen_of_sharesPlace hshares hkeeps ⟨#[2]⟩
  exact ⟨by decide, .start smallWorld_reachable rfl rfl rfl rfl, hkeeps, hkeeps',
    Warehouse.download_of_file? hlocation honly hfile, congrArg Prod.snd hseen⟩

end ArchiveKey
end PipelineManager
