import PipelineManager.Proofs.Files.Ways
import PipelineManager.Proofs.Warehouse.Paths

/-!
# The warehouse on a system

The manager reaches the files of the warehouse through those of a whole system: it takes a path to
one of the system, by the path of the root, and asks the system to make directories, to write and to
read. On every system where the path of the root leads to a place, this is the warehouse of the
files at and below that place, and no other file or directory changes.
-/

namespace PipelineManager

/-! ## Systems -/

/-- The files of a system, and the directory where relative paths begin. -/
structure System where
  tree : FileTree
  current : List String

namespace System

/-- Where a path begins. -/
def start (s : System) (path : String) : List String := if isAbsolute path then [] else s.current

/-- The place that a path leads to. -/
def place? (s : System) (path : String) : Option (List String) :=
  if path.isEmpty then none else s.tree.walk (s.start path) (namesOf path)

/-- Makes the directory that holds what a path names, and those that lead to it. A path with a null
character is refused at once. -/
def makeParents (s : System) (path : String) : System × Bool :=
  let way := (wayOf path).dropLast
  if way.any hasNull then (s, false)
  else
    let (tree, made) := s.tree.makeWay (s.start path) way
    ({ s with tree }, made)

/-- Writes a file. -/
def write? (s : System) (path : String) (contents : ByteArray) : Option System := do
  let names ← s.place? path
  let tree ← s.tree.write names contents
  return { s with tree }

/-- The contents of a file. -/
def read? (s : System) (path : String) : Option ByteArray := do s.tree.file? (← s.place? path)

/-- Whether a path leads to a file or a directory. -/
def holds (s : System) (path : String) : Bool :=
  (s.place? path).any fun names => s.tree.isDirectory names || (s.tree.file? names).isSome

end System

/-! ## The warehouse of a root -/

/-- The path of the system that a path of the warehouse is taken to. -/
def Warehouse.resolve (root path : String) : Except WarehouseFault String :=
  (Location.ofPath path).map fun _ => ({ root } : Warehouse).systemPath path

/-- A path is taken to one of the system when it names a location. -/
theorem Warehouse.resolve_eq_ok_iff {w : Warehouse} {path target : String} :
    Warehouse.resolve w.root path = .ok target ↔
      (∃ location, Location.ofPath path = .ok location) ∧ target = w.systemPath path := by
  rw [resolve]
  cases Location.ofPath path with
  | error e => simp [Except.map]
  | ok location =>
    show Except.ok (w.systemPath path) = Except.ok target ↔ _
    simp [eq_comm]

/-- A path is resolved iff it is relative, not empty and does not lead up. -/
theorem Warehouse.exists_resolve_iff (w : Warehouse) (path : String) :
    (∃ target, Warehouse.resolve w.root path = .ok target) ↔
      path ≠ "" ∧ path.toList.head? ≠ some '/' ∧ ¬ IsPart ".." path := by
  simp only [resolve_eq_ok_iff, exists_and_left, exists_eq, and_true, Location.exists_ofPath_iff]

/-- What a path is taken to lies at or below the root. -/
theorem Warehouse.below_of_resolve {w : Warehouse} {path target : String}
    (h : Warehouse.resolve w.root path = .ok target) :
    (normalForm target).1 = (normalForm w.root).1 ∧
      (normalForm w.root).2 <+: (normalForm target).2 := by
  obtain ⟨⟨location, hlocation⟩, rfl⟩ := resolve_eq_ok_iff.mp h
  rw [w.normalForm_systemPath hlocation]
  exact ⟨rfl, List.prefix_append _ _⟩

namespace System

/-- Stores a file of the warehouse. -/
def upload (s : System) (root path : String) (contents : ByteArray) :
    System × Except WarehouseFault Unit :=
  match Warehouse.resolve root path with
  | .error e => (s, .error e)
  | .ok target =>
    match s.makeParents target with
    | (s, false) => (s, .error (.notCreated (parentPath target)))
    | (s, true) =>
      match s.write? target contents with
      | some s => (s, .ok ())
      | none => (s, .error (.notWritten target))

/-- The contents of a file of the warehouse. -/
def download (s : System) (root path : String) : Except WarehouseFault ByteArray :=
  match Warehouse.resolve root path with
  | .error e => .error e
  | .ok target =>
    match s.read? target with
    | some contents => .ok contents
    | none => .error (.notRead target)

/-- Whether there is a file or a directory in the warehouse. -/
def contains (s : System) (root path : String) : Except WarehouseFault Bool :=
  (Warehouse.resolve root path).map s.holds

/-- Whether a warehouse is what a system has at a place: the path of the root leads there, and only
the root itself may not be there yet. -/
structure Mounts (s : System) (place : List String) (w : Warehouse) : Prop where
  wellFormed : s.tree.WellFormed
  current : s.tree.isDirectory s.current = true
  leads : s.tree.walk (s.start w.root) (wayOf w.root) = some place
  named : ∀ name ∈ wayOf w.root, isName name = true
  shows : s.tree.Shows place w.tree

variable {s : System} {place : List String} {w : Warehouse} {path : String} {location : Location}

/-- A path with a location is resolved to the path of the system that stands for it. -/
theorem resolve_of_ofPath (w : Warehouse) (hlocation : Location.ofPath path = .ok location) :
    Warehouse.resolve w.root path = .ok (w.systemPath path) := by
  rw [Warehouse.resolve, hlocation]
  rfl

/-- The path of the system is not empty. -/
theorem systemPath_isEmpty (w : Warehouse) (hpath : path ≠ "") :
    (w.systemPath path).isEmpty = false := by
  have hne : w.systemPath path ≠ "" := by
    unfold Warehouse.systemPath
    split
    · exact hpath
    · next hroot =>
      have hroot : w.root ≠ "" := by simpa using hroot
      split <;> simp [hroot]
  simpa using hne

/-- The parts of a location are plain. -/
theorem isPlain_parts (hlocation : Location.ofPath path = .ok location) :
    FileTree.IsPlain location.parts := by
  obtain ⟨⟨-, -, hdots⟩, rfl⟩ := Location.ofPath_eq_ok_iff.mp hlocation
  intro name hname
  obtain ⟨hmem, hidle⟩ := List.mem_filter.mp hname
  refine ⟨by simpa using hidle, ?_⟩
  rintro rfl
  exact hdots (mem_namesOf_iff.mp hmem)

namespace Mounts

/-- The path of the system starts where the root does. -/
theorem start_systemPath (s : System) (w : Warehouse)
    (hlocation : Location.ofPath path = .ok location) :
    s.start (w.systemPath path) = s.start w.root := by
  obtain ⟨⟨-, habsolute, -⟩, -⟩ := Location.ofPath_eq_ok_iff.mp hlocation
  have hrelative : isAbsolute path = false := by simpa [isAbsolute] using habsolute
  rw [start, start, Warehouse.isAbsolute_systemPath hrelative]

/-- The place that a mounted root starts from is a directory. -/
theorem isDirectory_start (h : s.Mounts place w) : s.tree.isDirectory (s.start w.root) = true := by
  unfold start
  split
  · exact h.wellFormed.top
  · exact h.current

/-- What follows a tree with a warehouse has the warehouse that it shows. -/
theorem of_follows (h : s.Mounts place w) {t v : FileTree}
    (hfollows : FileTree.Follows place s.tree t v) :
    Mounts { s with tree := t } place { w with tree := v } where
  wellFormed := hfollows.wellFormed
  current := FileTree.isDirectory_mono hfollows.grows h.current
  leads := FileTree.walk_of_subset h.leads hfollows.grows
  named := h.named
  shows := hfollows.shows

/-- The place that a path of the warehouse leads to. -/
theorem place?_systemPath (h : s.Mounts place w) (hlocation : Location.ofPath path = .ok location) :
    s.place? (w.systemPath path) =
      (if location.parts = [] ∨ s.tree.isDirectory (place ++ location.parts.dropLast) = true
        then some (place ++ location.parts) else none).filter
          fun names => !location.onlyDirectory || s.tree.isDirectory names := by
  obtain ⟨⟨hpath, -, -⟩, hparts⟩ := Location.ofPath_eq_ok_iff.mp hlocation
  obtain ⟨front, hnames, hfront⟩ := w.namesOf_systemPath path
  have hway : (namesOf (w.systemPath path)).filter (!isIdle ·) =
      wayOf w.root ++ location.parts := by
    rw [hnames, List.filter_append, hfront, hparts]
    rfl
  have hlast :
      isIdle ((namesOf (w.systemPath path)).getLast?.getD "..") = location.onlyDirectory := by
    obtain ⟨init, last, hsplit⟩ :=
      List.eq_nil_or_concat (namesOf path) |>.resolve_left (namesOf_ne_nil path)
    rw [hnames, hparts, hsplit]
    simp
  rw [place?, systemPath_isEmpty w hpath, if_neg Bool.false_ne_true, start_systemPath s w hlocation,
    FileTree.walk_eq_filter, hway, hlast, FileTree.walk_append, h.leads, Option.bind_some,
    h.wellFormed.walk_of_plain (isPlain_parts hlocation)]

/-- A path that ends with a name leads to a place below the root. -/
theorem parts_ne_nil (hlocation : Location.ofPath path = .ok location)
    (honly : location.onlyDirectory = false) :
    location.parts ≠ [] := by
  obtain ⟨-, hparts⟩ := Location.ofPath_eq_ok_iff.mp hlocation
  obtain ⟨init, last, hsplit⟩ :=
    List.eq_nil_or_concat (namesOf path) |>.resolve_left (namesOf_ne_nil path)
  rw [hparts, hsplit] at honly
  rw [hparts, wayOf, hsplit]
  simp_all

/-- A path leads to its place below the root, or nothing that it could name is there. -/
theorem place?_cases (h : s.Mounts place w) (hlocation : Location.ofPath path = .ok location) :
    (s.place? (w.systemPath path) = some (place ++ location.parts) ∧
      (location.onlyDirectory = true → s.tree.isDirectory (place ++ location.parts) = true)) ∨
    (s.place? (w.systemPath path) = none ∧ s.tree.isDirectory (place ++ location.parts) = false ∧
      (location.onlyDirectory = false → s.tree.file? (place ++ location.parts) = none)) := by
  rw [h.place?_systemPath hlocation]
  by_cases hway : location.parts = [] ∨ s.tree.isDirectory (place ++ location.parts.dropLast) = true
  · rw [if_pos hway]
    cases honly : location.onlyDirectory <;>
      cases hthere : s.tree.isDirectory (place ++ location.parts) <;>
      simp [Option.filter, hthere]
  · rw [if_neg hway]
    obtain ⟨hne, hbefore⟩ := not_or.mp hway
    obtain ⟨init, last, hsplit⟩ := List.eq_nil_or_concat location.parts |>.resolve_left hne
    rw [List.concat_eq_append] at hsplit
    rw [hsplit, List.dropLast_concat] at hbefore
    rw [hsplit, ← List.append_assoc]
    refine .inr ⟨rfl, ?_, fun _ => ?_⟩
    · exact Bool.eq_false_iff.mpr fun hthere => hbefore (h.wellFormed.below _ _ (.inl hthere)).1
    · exact Option.not_isSome_iff_eq_none.mp fun hthere =>
        hbefore (h.wellFormed.below _ _ (.inr hthere)).1

/-- What is downloaded is what the warehouse holds. -/
theorem download (h : s.Mounts place w) (path : String) :
    s.download w.root path = w.download path := by
  rw [System.download, Warehouse.download]
  cases hlocation : Location.ofPath path with
  | error e => rw [Warehouse.resolve, hlocation]; rfl
  | ok location =>
    have hentry := h.shows location.parts
    have hread : s.read? (w.systemPath path) =
        if location.onlyDirectory then none else w.tree.file? location.parts := by
      rw [read?, ← FileTree.file?_of_entry_eq hentry]
      rcases h.place?_cases hlocation with ⟨hplace, hthere⟩ | ⟨hplace, -, hnone⟩
      · rw [hplace]
        split
        · next honly => exact h.wellFormed.apart _ (hthere honly)
        · rfl
      · rw [hplace]
        split
        · rfl
        · next honly => exact (hnone (Bool.eq_false_iff.mpr honly)).symm
    rw [resolve_of_ofPath w hlocation]
    cases hheld : if location.onlyDirectory then none
      else w.tree.file? location.parts <;> rw [hheld] at hread <;>
      simp only [hread, hheld]

/-- What is found is what the warehouse holds. -/
theorem contains (h : s.Mounts place w) (path : String) :
    s.contains w.root path = w.holds path := by
  rw [System.contains, Warehouse.holds]
  cases hlocation : Location.ofPath path with
  | error e => rw [Warehouse.resolve, hlocation]; rfl
  | ok location =>
    have hentry := h.shows location.parts
    rw [resolve_of_ofPath w hlocation, Except.map, System.holds]
    dsimp only
    rw [← FileTree.isDirectory_of_entry_eq hentry, ← FileTree.file?_of_entry_eq hentry]
    rcases h.place?_cases hlocation with ⟨hplace, hthere⟩ | ⟨hplace, hfree, hnone⟩
    · rw [hplace, Option.any_some]
      cases honly : location.onlyDirectory with
      | false => rfl
      | true => rw [hthere honly]; rfl
    · rw [hplace, Option.any_none, hfree]
      cases honly : location.onlyDirectory with
      | false => rw [hnone honly]; rfl
      | true => rfl

/-! ## Uploads -/

/-- The directories before the root are there. -/
theorem makeWay_dropLast (h : s.Mounts place w) :
    s.tree.makeWay (s.start w.root) (wayOf w.root).dropLast = (s.tree, true) := by
  have hleads := h.leads
  rcases List.eq_nil_or_concat (wayOf w.root) with hroot | ⟨init, last, hroot⟩
  · rw [hroot]
    rfl
  · rw [List.concat_eq_append] at hroot
    rw [hroot, FileTree.walk_append] at hleads
    obtain ⟨before, hbefore, hlast⟩ := Option.bind_eq_some_iff.mp hleads
    have hthere : s.tree.isDirectory before = true := by
      by_contra hnot
      rw [FileTree.walk, if_neg hnot] at hlast
      cases hlast
    rw [hroot, List.dropLast_concat, (FileTree.makeWay_of_walk h.isDirectory_start hbefore).2,
      FileTree.makeDirectory_of_isDirectory hthere]

/-- The root is made on the system as in the warehouse. -/
theorem makeRoot (h : s.Mounts place w) :
    (s.tree.makeDirectory place = none ∧ w.tree.makeDirectory [] = none) ∨
      ∃ t v, s.tree.makeDirectory place = some t ∧ w.tree.makeDirectory [] = some v ∧
        FileTree.Follows place s.tree t v := by
  have hcases := h.wellFormed.walk_cases h.isDirectory_start h.leads
  have hparent : s.tree.isDirectory (place ++ []) = true ∨
      ∃ parent name, place ++ [] = parent ++ [name] ∧ s.tree.isDirectory parent = true := by
    rw [List.append_nil]
    refine hcases.imp_right ?_
    rintro ⟨parent, name, hplace, hparent, -⟩
    exact ⟨parent, name, hplace, hparent⟩
  have hname : s.tree.isDirectory place = true ∨ place.getLast?.all isName = true := by
    refine hcases.imp_right ?_
    rintro ⟨parent, name, rfl, -, hname⟩
    simpa using h.named name hname
  have hmade := h.shows.makeDirectory h.wellFormed hparent fun _ => hname
  rwa [List.append_nil] at hmade

/-- The directories to a location are made on the system as in the warehouse. -/
theorem makeParents (h : s.Mounts place w) (hlocation : Location.ofPath path = .ok location) :
    ∃ t v made, s.makeParents (w.systemPath path) = ({ s with tree := t }, made) ∧
      Warehouse.makeParents w.tree location = (v, made) ∧ FileTree.Follows place s.tree t v ∧
      (made = true → location.parts ≠ [] →
        t.isDirectory (place ++ location.parts.dropLast) = true) := by
  have hwayOf : wayOf (w.systemPath path) = wayOf w.root ++ location.parts := by
    rw [w.wayOf_systemPath, (Location.ofPath_eq_ok_iff.mp hlocation).2]
  have hvalid : ∀ name ∈ wayOf w.root, hasNull name = false := fun name hname => by
    simpa using (Bool.and_eq_true_iff.mp (h.named name hname)).1
  have hkept : FileTree.Follows place s.tree s.tree w.tree := .refl h.wellFormed h.shows
  rw [System.makeParents, hwayOf, start_systemPath s w hlocation, Warehouse.makeParents]
  by_cases hempty : location.parts = []
  · have hnull : (wayOf w.root).dropLast.any hasNull = false :=
      List.any_eq_false.mpr fun name hname => by simp [hvalid name (List.dropLast_subset _ hname)]
    rw [hempty, List.append_nil, if_neg (by simp [hnull]), h.makeWay_dropLast]
    exact ⟨s.tree, w.tree, true, rfl, rfl, hkept, fun _ hne => absurd rfl hne⟩
  · have hplain : FileTree.IsPlain location.parts.dropLast := fun name hname =>
      isPlain_parts hlocation name (List.dropLast_subset _ hname)
    rw [List.dropLast_append_of_ne_nil hempty, List.any_append,
        List.any_eq_false.mpr fun name hname => by
      simp [hvalid name hname], Bool.false_or,
        if_neg (show ¬ location.parts.isEmpty = true by simpa using hempty)]
    by_cases hnull : location.parts.dropLast.any hasNull = true
    · rw [if_pos hnull, if_pos hnull]
      exact ⟨s.tree, w.tree, false, rfl, rfl, hkept, by simp⟩
    · obtain ⟨hend, hway⟩ := FileTree.makeWay_of_walk h.isDirectory_start h.leads
      rw [if_neg hnull, if_neg hnull, FileTree.makeWay_append, hend, hway,
        FileTree.makeDirectories_eq_makeWay hplain]
      rcases h.makeRoot with ⟨hnone, hnone'⟩ | ⟨t₁, v₁, hmade, hmade', hfollows⟩
      · rw [hnone, hnone']
        exact ⟨s.tree, w.tree, false, rfl, rfl, hkept, by simp⟩
      · have hthere : t₁.isDirectory (place ++ []) = true := by
          rw [List.append_nil]
          exact (FileTree.makeDirectory_eq_some hmade).1
        obtain ⟨t, v, made, hway, hway', hfollows', hparents⟩ :=
          hfollows.shows.makeWay hfollows.wellFormed hthere hplain
        rw [List.append_nil] at hway
        rw [hmade, hmade']
        dsimp only
        rw [hway, hway']
        exact ⟨t, v, made, rfl, rfl, hfollows.trans hfollows', fun hmade _ => hparents hmade⟩

/-- A file is written on the system as in the warehouse. -/
theorem write (h : s.Mounts place w) (hlocation : Location.ofPath path = .ok location)
    (hparents : location.parts ≠ [] → s.tree.isDirectory (place ++ location.parts.dropLast) = true)
    (contents : ByteArray) :
    (s.write? (w.systemPath path) contents = none ∧
      (if location.onlyDirectory then none else w.tree.write location.parts contents) = none) ∨
    ∃ t v, s.write? (w.systemPath path) contents = some { s with tree := t } ∧
      (if location.onlyDirectory then none else w.tree.write location.parts contents) = some v ∧
      FileTree.Follows place s.tree t v := by
  rw [System.write?]
  cases honly : location.onlyDirectory with
  | true =>
    refine .inl ⟨?_, rfl⟩
    rcases h.place?_cases hlocation with ⟨hplace, hthere⟩ | ⟨hplace, -⟩
    · have hnone : s.tree.write (place ++ location.parts) contents = none := by
        rw [FileTree.write, if_pos (by rw [hthere honly]; rfl)]
      simp [hplace, hnone]
    · simp [hplace]
  | false =>
    have hne := parts_ne_nil hlocation honly
    have hplace : s.place? (w.systemPath path) = some (place ++ location.parts) := by
      rw [h.place?_systemPath hlocation, if_pos (.inr (hparents hne)), honly]
      rfl
    rcases h.shows.write h.wellFormed hne (hparents hne) contents with
      ⟨hnone, hnone'⟩ | ⟨t, v, hwrite, hwrite', hfollows⟩
    · exact .inl ⟨by simp [hplace, hnone], by simpa using hnone'⟩
    · exact .inr ⟨t, v, by simp [hplace, hwrite], by simpa using hwrite', hfollows⟩

/-- What is uploaded on the system is uploaded in the warehouse, and nothing else on the
system changes. -/
theorem upload (h : s.Mounts place w) (path : String) (contents : ByteArray) :
    (s.upload w.root path contents).2 = (w.upload path contents).2 ∧
      (s.upload w.root path contents).1.Mounts place (w.upload path contents).1 ∧
      ∀ names, ¬ place <+: names →
        (s.upload w.root path contents).1.tree.entry names = s.tree.entry names := by
  cases hlocation : Location.ofPath path with
  | error e =>
    rw [System.upload, Warehouse.upload, Warehouse.resolve, hlocation]
    exact ⟨rfl, h, fun _ _ => rfl⟩
  | ok location =>
    rw [System.upload, Warehouse.upload, resolve_of_ofPath w hlocation, hlocation]
    obtain ⟨t, v, made, hparents, hparents', hfollows, hthere⟩ := h.makeParents hlocation
    have h₁ := h.of_follows hfollows
    dsimp only
    rw [hparents, hparents']
    cases made with
    | false => exact ⟨rfl, h₁, hfollows.outside⟩
    | true =>
      rcases h₁.write hlocation (hthere rfl) contents with
        ⟨hnone, hnone'⟩ | ⟨t', v', hwrite, hwrite', hfollows'⟩
      · have hsystem : ({ s with tree := t } : System).write? (w.systemPath path) contents = none :=
          hnone
        dsimp only at hnone' ⊢
        rw [hsystem, hnone']
        exact ⟨rfl, h₁, hfollows.outside⟩
      · have hsystem : ({ s with tree := t } : System).write? (w.systemPath path) contents =
            some { s with tree := t' } := hwrite
        dsimp only at hwrite' ⊢
        rw [hsystem, hwrite']
        exact ⟨rfl, h.of_follows (hfollows.trans hfollows'), (hfollows.trans hfollows').outside⟩

end Mounts
end System
end PipelineManager
