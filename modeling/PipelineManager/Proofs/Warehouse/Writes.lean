import PipelineManager.Proofs.Warehouse.Upload

/-!
# What the warehouse holds

An upload that succeeds writes one file, at the place that its path names, and an upload that fails
writes none. So a place holds what was written there last.
-/

namespace PipelineManager

/-! ## Places -/

/-- The place that a path names in the warehouse. -/
def Location.place? (path : String) : Option (List String) :=
  (Location.ofPath path).toOption.map (·.parts)

/-- What was written to a place last. -/
def lastWrite? (place : List String) (writes : List (List String × ByteArray)) : Option ByteArray :=
  (writes.filter fun x => x.1 = place).getLast?.map (·.2)

section LastWrite

variable {place : List String} {writes : List (List String × ByteArray)}

/-- Nothing is written without writes. -/
theorem lastWrite?_nil (place : List String) : lastWrite? place [] = none := rfl

/-- The last write is one of the later ones, or else one of those before. -/
theorem lastWrite?_append (place : List String) (writes later : List (List String × ByteArray)) :
    lastWrite? place (writes ++ later) = (lastWrite? place later).or (lastWrite? place writes) := by
  rw [lastWrite?, List.filter_append, List.getLast?_append, Option.map_or]
  rfl

/-- A write is the last one at its place. -/
theorem lastWrite?_singleton (place place' : List String) (contents : ByteArray) :
    lastWrite? place [(place', contents)] = if place = place' then some contents else none := by
  by_cases h : place = place' <;> simp [lastWrite?, h, eq_comm]

/-- Nothing is written at a place that no write is at. -/
theorem lastWrite?_eq_none (h : ∀ x ∈ writes, x.1 ≠ place) : lastWrite? place writes = none := by
  have hnone : writes.filter (fun x => x.1 = place) = [] :=
    List.filter_eq_nil_iff.mpr (by simpa using h)
  rw [lastWrite?, hnone]
  rfl

end LastWrite

/-! ## Uploads -/

namespace FileTree

/-- A file that is set has its contents. -/
theorem file?_setFile (t : FileTree) (names : List String) (contents : ByteArray) :
    (t.setFile names contents).file? names = some contents := by
  obtain ⟨hthere, honly⟩ := files_setFile t names contents
  have hsome := isSome_file?_iff.mpr hthere
  rw [file?, Option.isSome_map] at hsome
  obtain ⟨f, hfound⟩ := Option.isSome_iff_exists.mp hsome
  have hname : f.1 = names := by simpa using List.find?_some hfound
  rw [file?, hfound, honly f (List.mem_of_find?_eq_some hfound) hname]
  rfl

/-- Directories are made along the way alone. -/
theorem mem_directories_makeDirectories {t : FileTree} {base names d : List String}
    (h : d ∈ (t.makeDirectories base names).1.directories) :
    d ∈ t.directories ∨ d <+: base ++ names := by
  have hmade {t t' : FileTree} {names : List String} (hmade : t.makeDirectory names = some t')
      (hd : d ∈ t'.directories) : d ∈ t.directories ∨ d = names := by
    unfold makeDirectory at hmade
    split at hmade
    · obtain rfl := Option.some.inj hmade
      exact .inl hd
    · split at hmade
      · cases hmade
      · obtain rfl := Option.some.inj hmade
        simpa using hd
  induction names generalizing t base with
  | nil =>
    cases hbase : t.makeDirectory base with
    | none => exact .inl (by simpa [makeDirectories_of_none hbase] using h)
    | some t' =>
      rw [makeDirectories_nil_of_some hbase] at h
      exact (hmade hbase h).imp_right fun heq => ⟨[], by simp [heq]⟩
  | cons name rest ih =>
    cases hbase : t.makeDirectory base with
    | none => exact .inl (by simpa [makeDirectories_of_none hbase] using h)
    | some t' =>
      rw [makeDirectories_cons_of_some hbase] at h
      rcases ih h with hd | hd
      · exact (hmade hbase hd).imp_right fun (heq : d = base) => heq ▸ List.prefix_append base _
      · exact .inr (by simpa using hd)

/-- Where a file can be written, it can be written with any contents. -/
theorem exists_write {t t' : FileTree} {names : List String} {contents : ByteArray}
    (h : t.write names contents = some t') (contents' : ByteArray) :
    ∃ t'', t.write names contents' = some t'' := by
  unfold write at h ⊢
  split at h
  · cases h
  · next hfree => exact ⟨_, if_neg hfree⟩

end FileTree

namespace Warehouse

variable {w : Warehouse} {path : String} {contents : ByteArray}

/-- After an upload that succeeds, its place holds what was uploaded, and all others what
they held. -/
theorem file?_upload_of_ok (h : (w.upload path contents).2 = .ok ()) :
    ∃ location, Location.ofPath path = .ok location ∧ location.onlyDirectory = false ∧
      ∀ names, (w.upload path contents).1.tree.file? names =
        if names = location.parts then some contents else w.tree.file? names := by
  obtain ⟨t, hfiles, -, ⟨e, hw⟩ | ⟨location, hlocation, honly, -, hw⟩⟩ :=
    w.upload_cases path contents
  · rw [hw] at h
    cases h
  · refine ⟨location, hlocation, honly, fun names => ?_⟩
    rw [hw]
    split
    · next heq => rw [heq, FileTree.file?_setFile]
    · next hne =>
        exact (FileTree.file?_setFile_of_ne hne).trans (FileTree.file?_of_files_eq hfiles names)

/-- An upload that fails writes no file. -/
theorem file?_upload_of_error {e : WarehouseFault} (h : (w.upload path contents).2 = .error e)
    (names : List String) :
    (w.upload path contents).1.tree.file? names = w.tree.file? names := by
  obtain ⟨t, hfiles, -, ⟨e, hw⟩ | ⟨location, -, -, -, hw⟩⟩ := w.upload_cases path contents
  · rw [hw]
    exact FileTree.file?_of_files_eq hfiles names
  · rw [hw] at h
    cases h

/-- An upload leaves directories where they are, and makes none of the file that it writes. -/
theorem directories_upload (w : Warehouse) (path : String) (contents : ByteArray) :
    w.tree.directories ⊆ (w.upload path contents).1.tree.directories := by
  obtain ⟨t, -, hkept, ⟨e, hw⟩ | ⟨location, -, -, -, hw⟩⟩ :=
    w.upload_cases path contents <;> rw [hw]
  · exact hkept
  · rwa [FileTree.directories_setFile]

/-- What was uploaded is no directory. -/
theorem isDirectory_upload_of_ok (h : (w.upload path contents).2 = .ok ()) {location : Location}
    (hlocation : Location.ofPath path = .ok location) :
    (w.upload path contents).1.tree.isDirectory location.parts = false := by
  obtain ⟨t, -, -, ⟨e, hw⟩ | ⟨location', hlocation', -, hfree, hw⟩⟩ := w.upload_cases path contents
  · rw [hw] at h
    cases h
  · obtain rfl := Except.ok.inj (hlocation.symm.trans hlocation')
    rwa [hw, FileTree.isDirectory, FileTree.directories_setFile]

/-- Where a file was uploaded, another one can be uploaded by any path that names the place. -/
theorem upload_again_of_ok (h : (w.upload path contents).2 = .ok ()) {path' : String}
    (hsame : Location.ofPath path' = Location.ofPath path) (contents' : ByteArray) :
    ((w.upload path contents).1.upload path' contents').2 = .ok () := by
  have hends := w.uploads path contents
  generalize w.upload path contents = r at hends h ⊢
  cases hends with
  | refused | notCreated | notWritten => cases h
  | written hlocation hparents honly hwrite =>
    obtain ⟨-, hdirectories, hagain⟩ := FileTree.write_eq_some hwrite
    obtain ⟨t, hwrite'⟩ := FileTree.exists_write hagain contents'
    rw [upload_of_written (hsame.trans hlocation) (makeParents_of_directories hparents hdirectories)
      honly hwrite']

/-- Whether files are as before, but for the directories to a path and the file at it. -/
structure Touches (path : String) (w w' : Warehouse) : Prop where
  root : w'.root = w.root
  kept : w.tree.directories ⊆ w'.tree.directories
  made : ∀ d ∈ w'.tree.directories,
    d ∈ w.tree.directories ∨ ∃ place, Location.place? path = some place ∧ d <+: place.dropLast
  files : ∀ names, Location.place? path ≠ some names → w'.tree.file? names = w.tree.file? names

/-- A warehouse that is left as it is has nothing touched. -/
theorem Touches.refl (path : String) (w : Warehouse) : Touches path w w :=
  ⟨rfl, List.Subset.refl _, fun _ hd => .inl hd, fun _ _ => rfl⟩

/-- The directories that are made are those in front of the location. -/
theorem mem_directories_makeParents {t : FileTree} {location : Location} {d : List String}
    (h : d ∈ (makeParents t location).1.directories) :
    d ∈ t.directories ∨ d <+: location.parts.dropLast := by
  simp only [makeParents] at h
  split at h
  · exact .inl h
  · split at h
    · exact .inl h
    · exact FileTree.mem_directories_makeDirectories h

/-- An upload touches nothing but its path, also when it fails. -/
theorem touches_upload (w : Warehouse) (path : String) (contents : ByteArray) :
    Touches path w (w.upload path contents).1 where
  root := w.root_upload path contents
  kept := w.directories_upload path contents
  made d hd := by
    have hway {location : Location} {t : FileTree} {made : Bool}
        (hlocation : Location.ofPath path = .ok location)
        (hparents : makeParents w.tree location = (t, made)) (hd : d ∈ t.directories) :
        d ∈ w.tree.directories ∨ ∃ place,
            Location.place? path = some place ∧ d <+: place.dropLast := by
      have hplace : Location.place? path = some location.parts := by
        rw [Location.place?, hlocation]; rfl
      obtain rfl : (makeParents w.tree location).1 = t := congrArg Prod.fst hparents
      exact (mem_directories_makeParents hd).imp_right fun h => ⟨_, hplace, h⟩
    have hends := w.uploads path contents
    generalize w.upload path contents = r at hends hd
    cases hends with
    | refused hlocation => exact .inl hd
    | notCreated hlocation hparents => exact hway hlocation hparents hd
    | notWritten hlocation hparents hwrite => exact hway hlocation hparents hd
    | written hlocation hparents honly hwrite =>
      rw [(FileTree.write_eq_some hwrite).2.1] at hd
      exact hway hlocation hparents hd
  files names hne := by
    refine (w.file?_upload_of_ne contents fun location hlocation heq => hne ?_).2
    rw [Location.place?, hlocation, heq]
    rfl

/-- What is seen of a path: whether a file or a directory is there, and what is downloaded. -/
def seen (w : Warehouse) (path : String) :
    Except WarehouseFault Bool × Except WarehouseFault ByteArray :=
  (w.holds path, w.download path)

/-- What is seen of a path depends on what is at its place. -/
theorem seen_congr {w' : Warehouse} (hroot : w'.root = w.root) {location : Location}
    (hlocation : Location.ofPath path = .ok location)
    (hdirectory : w'.tree.isDirectory location.parts = w.tree.isDirectory location.parts)
    (hfile : w'.tree.file? location.parts = w.tree.file? location.parts) :
    w'.seen path = w.seen path := by
  simp only [seen, holds, download, hlocation, hdirectory, hfile, systemPath, hroot]

/-- A file at the location of a path is seen through it. -/
theorem seen_of_file? {location : Location} (hlocation : Location.ofPath path = .ok location)
    (honly : location.onlyDirectory = false) (hfile : w.tree.file? location.parts = some contents) :
    w.seen path = (.ok true, .ok contents) := by
  simp [seen, holds, download, hlocation, honly, hfile]

/-- A file that lies at the place of a path is downloaded by it. -/
theorem download_of_file? {location : Location} (hlocation : Location.ofPath path = .ok location)
    (honly : location.onlyDirectory = false) (hfile : w.tree.file? location.parts = some contents) :
    w.download path = .ok contents := by
  simp [download, hlocation, honly, hfile]

/-- What was uploaded is downloaded by the same path. -/
theorem download_upload_of_ok (h : (w.upload path contents).2 = .ok ()) :
    (w.upload path contents).1.download path = .ok contents := by
  obtain ⟨location, hlocation, honly, hwritten⟩ := file?_upload_of_ok h
  exact download_of_file? hlocation honly (by rw [hwritten, if_pos rfl])

end Warehouse
end PipelineManager
