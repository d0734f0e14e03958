import PipelineManager.Warehouse.Basic

/-!
# Uploads

An upload makes directories and then writes one file, and it may stop at any point. Made again, it
finds what it made before and stops at the same point. It changes the contents of no other file.
-/

namespace PipelineManager

namespace FileTree

variable {t t' : FileTree} {base names : List String}

/-! ## Directories -/

/-- A directory that is made is there then, no directory is lost, and files stay as they are. -/
theorem makeDirectory_eq_some (h : t.makeDirectory names = some t') :
    t'.isDirectory names ∧ t.directories ⊆ t'.directories ∧ t'.files = t.files := by
  unfold makeDirectory at h
  split at h
  · next hthere =>
    obtain rfl := Option.some.inj h
    exact ⟨hthere, fun _ hd => hd, rfl⟩
  · split at h
    · exact nomatch h
    · obtain rfl := Option.some.inj h
      exact ⟨by simp [isDirectory], List.subset_append_left _ _, rfl⟩

/-- A directory that is there need not be made. -/
theorem makeDirectory_of_isDirectory (h : t.isDirectory names) : t.makeDirectory names = some t :=
  if_pos h

/-- Where directories stay, one that is there is still there. -/
theorem isDirectory_mono (hsubset : t.directories ⊆ t'.directories) (h : t.isDirectory names) :
    t'.isDirectory names :=
  List.contains_iff_mem.mpr (hsubset (List.contains_iff_mem.mp h))

/-- No directories are made below one that cannot be. -/
theorem makeDirectories_of_none (h : t.makeDirectory base = none) :
    t.makeDirectories base names = (t, false) := by
  cases names <;> simp [makeDirectories, h]

/-- The last directory on the way is made. -/
theorem makeDirectories_nil_of_some (h : t.makeDirectory base = some t') :
    t.makeDirectories base [] = (t', true) := by
  simp [makeDirectories, h]

/-- Directories are made one after the other. -/
theorem makeDirectories_cons_of_some {name : String} (h : t.makeDirectory base = some t') :
    t.makeDirectories base (name :: names) = t'.makeDirectories (base ++ [name]) names := by
  simp [makeDirectories, h]

/-- To make directories leaves those that are there, and all files. -/
theorem makeDirectories_keeps (t : FileTree) (base names : List String) :
    t.directories ⊆ (t.makeDirectories base names).1.directories ∧
      (t.makeDirectories base names).1.files = t.files := by
  induction names generalizing t base with
  | nil =>
    cases hmade : t.makeDirectory base with
    | none => simp [makeDirectories_of_none hmade]
    | some t' =>
      rw [makeDirectories_nil_of_some hmade]
      exact (makeDirectory_eq_some hmade).2
  | cons name rest ih =>
    cases hmade : t.makeDirectory base with
    | none => simp [makeDirectories_of_none hmade]
    | some t' =>
      obtain ⟨-, hsubset, hfiles⟩ := makeDirectory_eq_some hmade
      rw [makeDirectories_cons_of_some hmade]
      exact ⟨List.Subset.trans hsubset (ih t' _).1, (ih t' _).2.trans hfiles⟩

/-- Where directories were made, they are found again. Files may have been written meanwhile. -/
theorem makeDirectories_of_directories {later : FileTree}
    (h : t.makeDirectories base names = (t', true)) (hlater : t'.directories ⊆ later.directories) :
    later.makeDirectories base names = (later, true) := by
  induction names generalizing t base with
  | nil =>
    cases hmade : t.makeDirectory base with
    | none => simp [makeDirectories_of_none hmade] at h
    | some t₁ =>
      obtain rfl : t₁ = t' := by simpa [makeDirectories_nil_of_some hmade] using h
      have hbase := isDirectory_mono hlater (makeDirectory_eq_some hmade).1
      exact makeDirectories_nil_of_some (makeDirectory_of_isDirectory hbase)
  | cons name rest ih =>
    cases hmade : t.makeDirectory base with
    | none => simp [makeDirectories_of_none hmade] at h
    | some t₁ =>
      rw [makeDirectories_cons_of_some hmade] at h
      have hsubset := (makeDirectories_keeps t₁ (base ++ [name]) rest).1
      rw [h] at hsubset
      have hbase :=
        isDirectory_mono (List.Subset.trans hsubset hlater) (makeDirectory_eq_some hmade).1
      rw [makeDirectories_cons_of_some (makeDirectory_of_isDirectory hbase)]
      exact ih h

/-- Made again, directories are found up to the one that could not be made. -/
theorem makeDirectories_again {made : Bool} (h : t.makeDirectories base names = (t', made)) :
    t'.makeDirectories base names = (t', made) := by
  cases made with
  | true => exact makeDirectories_of_directories h fun _ hd => hd
  | false =>
    induction names generalizing t base with
    | nil =>
      cases hmade : t.makeDirectory base with
      | none =>
        obtain rfl : t = t' := by simpa [makeDirectories_of_none hmade] using h
        exact h
      | some t₁ => simp [makeDirectories_nil_of_some hmade] at h
    | cons name rest ih =>
      cases hmade : t.makeDirectory base with
      | none =>
        obtain rfl : t = t' := by simpa [makeDirectories_of_none hmade] using h
        exact h
      | some t₁ =>
        rw [makeDirectories_cons_of_some hmade] at h
        have hsubset := (makeDirectories_keeps t₁ (base ++ [name]) rest).1
        rw [h] at hsubset
        have hbase := isDirectory_mono hsubset (makeDirectory_eq_some hmade).1
        rw [makeDirectories_cons_of_some (makeDirectory_of_isDirectory hbase)]
        exact ih h

/-! ## Files -/

variable {contents : ByteArray}

/-- The same files hold the same. -/
theorem file?_of_files_eq (h : t'.files = t.files) (names : List String) :
    t'.file? names = t.file? names := by
  rw [file?, file?, h]

/-- A file that is set leaves the others. -/
theorem file?_setFile_of_ne {other : List String} (hne : other ≠ names) :
    (t.setFile names contents).file? other = t.file? other := by
  unfold setFile
  split
  · rw [file?, file?, List.find?_map]
    have hkey : ((fun f : List String × ByteArray => decide (f.1 = other)) ∘
        fun f => if f.1 = names then (names, contents) else f) = fun f => decide (f.1 = other) := by
      funext f
      by_cases hf : f.1 = names <;> simp [hf]
    rw [hkey]
    cases hfound : t.files.find? fun f => f.1 = other with
    | none => rfl
    | some f =>
      have hother : f.1 = other := by simpa using List.find?_some hfound
      simp [hother, hne]
  · simp [file?, List.find?_append, Ne.symm hne]

/-- A file is there when one is listed. -/
theorem isSome_file?_iff : (t.file? names).isSome ↔ ∃ f ∈ t.files, f.1 = names := by
  simp only [file?, Option.isSome_map, List.find?_isSome, decide_eq_true_eq]

/-- A file that is written is there, and it is the only one at its place that is. -/
theorem files_setFile (t : FileTree) (names : List String) (contents : ByteArray) :
    (∃ f ∈ (t.setFile names contents).files, f.1 = names) ∧
      ∀ f ∈ (t.setFile names contents).files, f.1 = names → f = (names, contents) := by
  unfold setFile
  split
  · next hthere =>
    obtain ⟨g, hg, hname⟩ := isSome_file?_iff.mp hthere
    refine ⟨⟨(names, contents), List.mem_map.mpr ⟨g, hg, if_pos hname⟩, rfl⟩, fun f hf hf' => ?_⟩
    obtain ⟨g, -, rfl⟩ := List.mem_map.mp hf
    by_cases hg : g.1 = names
    · exact if_pos hg
    · rw [if_neg hg] at hf'
      exact absurd hf' hg
  · next habsent =>
    refine ⟨⟨(names, contents), by simp, rfl⟩, fun f hf hf' => ?_⟩
    rcases List.mem_append.mp hf with hf | hf
    · exact absurd (isSome_file?_iff.mpr ⟨f, hf, hf'⟩) habsent
    · exact List.mem_singleton.mp hf

/-- A file that is written again with the same contents stays as it is. -/
theorem setFile_setFile (t : FileTree) (names : List String) (contents : ByteArray) :
    (t.setFile names contents).setFile names contents = t.setFile names contents := by
  obtain ⟨hthere, honly⟩ := files_setFile t names contents
  generalize t.setFile names contents = t₁ at hthere honly ⊢
  have hsame : ∀ f ∈ t₁.files, (if f.1 = names then (names, contents) else f) = f := by
    intro f hf
    split
    · next hname => exact (honly f hf hname).symm
    · rfl
  rw [setFile, if_pos (isSome_file?_iff.mpr hthere), List.map_congr_left hsame, List.map_id']

/-- A file that is set leaves the directories. -/
theorem directories_setFile (t : FileTree) (names : List String) (contents : ByteArray) :
    (t.setFile names contents).directories = t.directories := by
  unfold setFile
  split <;> rfl

/-- No file is written where a directory is. -/
theorem isDirectory_of_write (h : t.write names contents = some t') :
    t.isDirectory names = false := by
  unfold write at h
  split at h
  · cases h
  · next hfree => exact (Bool.or_eq_false_iff.mp (Bool.eq_false_iff.mpr hfree)).1

/-- A file that is written is set, and can be written again. -/
theorem write_eq_some (h : t.write names contents = some t') :
    t' = t.setFile names contents ∧ t'.directories = t.directories ∧
      t'.write names contents = some t' := by
  have hdirectories := t.directories_setFile names contents
  unfold write at h ⊢
  split at h
  · exact nomatch h
  · next hfree =>
    obtain rfl := Option.some.inj h
    refine ⟨rfl, hdirectories, ?_⟩
    rw [isDirectory, hdirectories, setFile_setFile]
    exact if_neg hfree

end FileTree

namespace Warehouse

/-! ## Uploads -/

variable {w : Warehouse} {path : String} {contents : ByteArray}

/-- The directories to a location are made once. -/
theorem makeParents_again {t t' : FileTree} {location : Location} {made : Bool}
    (h : makeParents t location = (t', made)) : makeParents t' location = (t', made) := by
  simp only [makeParents] at h ⊢
  by_cases hempty : location.parts.isEmpty
  · rw [if_pos hempty] at h ⊢
    rw [← (Prod.mk.inj h).2]
  · rw [if_neg hempty] at h ⊢
    by_cases hnull : location.parts.dropLast.any hasNull
    · rw [if_pos hnull] at h ⊢
      rw [← (Prod.mk.inj h).2]
    · rw [if_neg hnull] at h ⊢
      exact FileTree.makeDirectories_again h

/-- Where the directories to a location were made, they are found again. Files may have been written
meanwhile. -/
theorem makeParents_of_directories {t t' later : FileTree} {location : Location}
    (h : makeParents t location = (t', true)) (hlater : later.directories = t'.directories) :
    makeParents later location = (later, true) := by
  simp only [makeParents] at h ⊢
  by_cases hempty : location.parts.isEmpty
  · rw [if_pos hempty]
  · rw [if_neg hempty] at h ⊢
    by_cases hnull : location.parts.dropLast.any hasNull
    · rw [if_pos hnull] at h
      exact nomatch (Prod.mk.inj h).2
    · rw [if_neg hnull] at h ⊢
      exact FileTree.makeDirectories_of_directories h (by rw [hlater]; exact fun _ hd => hd)

/-- To make the directories to a location leaves all files. -/
theorem files_makeParents (t : FileTree) (location : Location) :
    (makeParents t location).1.files = t.files := by
  simp only [makeParents]
  split
  · rfl
  · split
    · rfl
    · exact (FileTree.makeDirectories_keeps _ _ _).2

/-- To make the directories to a location leaves those that are there. -/
theorem directories_makeParents (t : FileTree) (location : Location) :
    t.directories ⊆ (makeParents t location).1.directories := by
  simp only [makeParents]
  split
  · exact List.Subset.refl _
  · split
    · exact List.Subset.refl _
    · exact (FileTree.makeDirectories_keeps _ _ _).1

section Outcome

variable {location : Location} {t t' : FileTree} (hlocation : Location.ofPath path = .ok location)
include hlocation

/-- An upload fails where the directories cannot be made, and leaves those that were. -/
theorem upload_of_notCreated (hparents : makeParents w.tree location = (t, false)) :
    w.upload path contents =
      ({ w with tree := t }, .error (.notCreated (parentPath (w.systemPath path)))) := by
  simp only [upload, hlocation, hparents]

/-- An upload fails where the file cannot be written, and leaves the directories. -/
theorem upload_of_notWritten (hparents : makeParents w.tree location = (t, true))
    (hwrite : (if location.onlyDirectory then none else t.write location.parts contents) = none) :
    w.upload path contents = ({ w with tree := t }, .error (.notWritten (w.systemPath path))) := by
  simp only [upload, hlocation, hparents, hwrite]

/-- An upload succeeds where the directories are made and the file is written. -/
theorem upload_of_written (hparents : makeParents w.tree location = (t, true))
    (honly : location.onlyDirectory = false) (hwrite : t.write location.parts contents = some t') :
    w.upload path contents = ({ w with tree := t' }, .ok ()) := by
  simp [upload, hlocation, hparents, honly, hwrite]

end Outcome

/-- How an upload ends: its path is refused, the directories to its location cannot all be made, its
file cannot be written there, or it is written. -/
inductive Uploads (w : Warehouse) (path : String) (contents : ByteArray) :
    Warehouse × Except WarehouseFault Unit → Prop
  | refused {e : WarehouseFault} (hlocation : Location.ofPath path = .error e) :
    Uploads w path contents (w, .error e)
  | notCreated {location : Location} {t : FileTree}
      (hlocation : Location.ofPath path = .ok location)
      (hparents : makeParents w.tree location = (t, false)) :
      Uploads w path contents
        ({ w with tree := t }, .error (.notCreated (parentPath (w.systemPath path))))
  | notWritten {location : Location} {t : FileTree}
      (hlocation : Location.ofPath path = .ok location)
      (hparents : makeParents w.tree location = (t, true))
      (hwrite : (if location.onlyDirectory then none else t.write location.parts contents) = none) :
      Uploads w path contents ({ w with tree := t }, .error (.notWritten (w.systemPath path)))
  | written {location : Location} {t t' : FileTree}
      (hlocation : Location.ofPath path = .ok location)
      (hparents : makeParents w.tree location = (t, true)) (honly : location.onlyDirectory = false)
      (hwrite : t.write location.parts contents = some t') :
        Uploads w path contents ({ w with tree := t' }, .ok ())

/-- Every upload ends in one of the four ways. -/
theorem uploads (w : Warehouse) (path : String) (contents : ByteArray) :
    Uploads w path contents (w.upload path contents) := by
  cases hlocation : Location.ofPath path with
  | error e =>
    have hupload : w.upload path contents = (w, .error e) := by simp only [upload, hlocation]
    exact hupload ▸ .refused hlocation
  | ok location =>
    rcases hparents : makeParents w.tree location with ⟨t, _ | _⟩
    · exact upload_of_notCreated hlocation hparents ▸ .notCreated hlocation hparents
    · cases hwrite : if location.onlyDirectory then none else t.write location.parts contents with
      | none =>
        exact upload_of_notWritten hlocation hparents hwrite ▸ .notWritten hlocation hparents hwrite
      | some t' =>
        obtain ⟨honly, hwrite⟩ : location.onlyDirectory = false ∧
            t.write location.parts contents = some t' := by
          simpa using hwrite
        exact upload_of_written hlocation hparents honly hwrite ▸
          .written hlocation hparents honly hwrite

/-- What an upload leaves is what it finds when it is made again, and it ends in the same way. -/
theorem upload_again (w : Warehouse) (path : String) (contents : ByteArray) :
    (w.upload path contents).1.upload path contents = w.upload path contents := by
  have hends := w.uploads path contents
  generalize w.upload path contents = r at hends ⊢
  cases hends with
  | refused hlocation => simp only [upload, hlocation]
  | notCreated hlocation hparents =>
    exact upload_of_notCreated hlocation (makeParents_again hparents)
  | notWritten hlocation hparents hwrite =>
    exact upload_of_notWritten hlocation (makeParents_again hparents) hwrite
  | written hlocation hparents honly hwrite =>
    obtain ⟨-, hdirectories, hagain⟩ := FileTree.write_eq_some hwrite
    exact upload_of_written hlocation (makeParents_of_directories hparents hdirectories) honly
      hagain

/-- An upload makes directories, and then it fails or it writes a file where no directory is. -/
theorem upload_cases (w : Warehouse) (path : String) (contents : ByteArray) :
    ∃ t, t.files = w.tree.files ∧ w.tree.directories ⊆ t.directories ∧
      ((∃ e, w.upload path contents = ({ w with tree := t }, .error e)) ∨
        ∃ location, Location.ofPath path = .ok location ∧ location.onlyDirectory = false ∧
          t.isDirectory location.parts = false ∧
          w.upload path contents =
            ({ w with tree := t.setFile location.parts contents }, .ok ())) := by
  have hmade {location : Location} {t : FileTree} {made : Bool}
      (hparents : makeParents w.tree location = (t, made)) :
      t.files = w.tree.files ∧ w.tree.directories ⊆ t.directories := by
    have hfiles := files_makeParents w.tree location
    have hkept := directories_makeParents w.tree location
    rw [hparents] at hfiles hkept
    exact ⟨hfiles, hkept⟩
  have hends := w.uploads path contents
  generalize w.upload path contents = r at hends ⊢
  cases hends with
  | refused hlocation => exact ⟨w.tree, rfl, List.Subset.refl _, .inl ⟨_, rfl⟩⟩
  | notCreated hlocation hparents =>
    exact ⟨_, (hmade hparents).1, (hmade hparents).2, .inl ⟨_, rfl⟩⟩
  | notWritten hlocation hparents hwrite =>
    exact ⟨_, (hmade hparents).1, (hmade hparents).2, .inl ⟨_, rfl⟩⟩
  | written hlocation hparents honly hwrite =>
    have hfree := FileTree.isDirectory_of_write hwrite
    obtain rfl := (FileTree.write_eq_some hwrite).1
    exact ⟨_, (hmade hparents).1, (hmade hparents).2, .inr ⟨_, hlocation, honly, hfree, rfl⟩⟩

/-- An upload leaves the root. -/
theorem root_upload (w : Warehouse) (path : String) (contents : ByteArray) :
    (w.upload path contents).1.root = w.root := by
  obtain ⟨t, -, -, ⟨e, hw⟩ | ⟨location, -, -, -, hw⟩⟩ := w.upload_cases path contents <;> rw [hw]

/-- An upload leaves the root, and the contents of every file at another location. -/
theorem file?_upload_of_ne (w : Warehouse) (contents : ByteArray) {names : List String}
    (hne : ∀ location, Location.ofPath path = .ok location → names ≠ location.parts) :
    (w.upload path contents).1.root = w.root ∧
      (w.upload path contents).1.tree.file? names = w.tree.file? names := by
  refine ⟨w.root_upload path contents, ?_⟩
  obtain ⟨t, hfiles, -, ⟨e, hw⟩ | ⟨location, hlocation, -, -, hw⟩⟩ :=
    w.upload_cases path contents <;> rw [hw]
  · exact FileTree.file?_of_files_eq hfiles names
  · exact (FileTree.file?_setFile_of_ne (hne location hlocation)).trans
      (FileTree.file?_of_files_eq hfiles names)

/-- An upload is not seen by who reads a file at another location. -/
theorem download_upload_of_ne (w : Warehouse) (contents : ByteArray) {other : String}
    (hne : ∀ location location',
      Location.ofPath path = .ok location → Location.ofPath other = .ok location' →
      location'.parts ≠ location.parts) :
    (w.upload path contents).1.download other = w.download other := by
  unfold download
  cases hother : Location.ofPath other with
  | error e => rfl
  | ok location' =>
    obtain ⟨hroot, hfile⟩ :=
      w.file?_upload_of_ne contents fun location h => hne location location' h hother
    simp only [hfile, systemPath, hroot]

end Warehouse

/-! ## Names of files -/

namespace Text

/-- The parts of two texts with a separator between them are the parts of one and of the other. -/
theorem parts_append_separator (separator : Char) (cs ds : List Char) :
    parts separator (cs ++ separator :: ds) = parts separator cs ++ parts separator ds := by
  induction cs with
  | nil => simp [parts]
  | cons c cs ih =>
    rw [List.cons_append, parts, parts, ih]
    split
    · rfl
    · obtain ⟨p, rest, h⟩ := List.exists_cons_of_ne_nil (parts_ne_nil separator cs)
      rw [h]
      rfl

/-- A text without separator is its only part. -/
theorem parts_of_notMem {separator : Char} {cs : List Char} (h : separator ∉ cs) :
    parts separator cs = [cs] := by
  induction cs with
  | nil => rfl
  | cons c cs ih =>
    obtain ⟨hne, hcs⟩ : separator ≠ c ∧ separator ∉ cs := by simpa using h
    rw [parts, if_neg (Ne.symm hne), ih hcs]
    rfl

end Text

/-- The names in two paths with a slash between them are the names in one and in the other. -/
theorem namesOf_append (path path' : String) :
    namesOf (path ++ "/" ++ path') = namesOf path ++ namesOf path' := by
  have htext : (path ++ "/" ++ path').toList = path.toList ++ '/' :: path'.toList := by simp
  rw [namesOf, htext, Text.parts_append_separator, List.map_append]
  rfl

/-- A path without slash is a name. -/
theorem namesOf_of_notMem {name : String} (h : '/' ∉ name.toList) : namesOf name = [name] := by
  rw [namesOf, Text.parts_of_notMem h]
  simp

/-- A path that ends in the name of a file has it as its last part. -/
theorem Location.getLast?_parts {directory name : String} (hname : '/' ∉ name.toList)
    (hidle : isIdle name = false) {location : Location}
    (h : Location.ofPath (directory ++ "/" ++ name) = .ok location) :
    location.parts.getLast? = some name := by
  have hnames : namesOf (directory ++ "/" ++ name) = namesOf directory ++ [name] := by
    rw [namesOf_append, namesOf_of_notMem hname]
  unfold Location.ofPath at h
  split at h
  · exact nomatch h
  · split at h
    · exact nomatch h
    · obtain rfl := Except.ok.inj h
      simp [hnames, hidle]

end PipelineManager
