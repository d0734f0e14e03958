import Mathlib.Data.List.Induction
import PipelineManager.Proofs.Warehouse.Writes

/-!
# Ways through a tree of files

A path of the system leads from a directory to the next one, and two dots lead back. What is made or
written along a way that never leads back stays below the directory where the way begins. A tree
that shows, at a place of it, what another tree holds goes on showing it when both are changed in
the same way, and nothing changes elsewhere.
-/

namespace PipelineManager
namespace FileTree

/-! ## Entries -/

/-- What is at a place: whether a directory is there, and the contents of the file that is there. -/
def entry (t : FileTree) (names : List String) : Bool × Option ByteArray :=
  (t.isDirectory names, t.file? names)

section Entries

variable {t t' : FileTree} {names : List String} {contents : ByteArray}

/-- The same entry is a directory in both trees or in none. -/
theorem isDirectory_of_entry_eq {names' : List String} (h : t'.entry names' = t.entry names) :
    t'.isDirectory names' = t.isDirectory names := congrArg Prod.fst h

/-- The same entry has the same contents. -/
theorem file?_of_entry_eq {names' : List String} (h : t'.entry names' = t.entry names) :
    t'.file? names' = t.file? names := congrArg Prod.snd h

/-- A directory can be made where one is, and where nothing is if its name is one. -/
theorem isSome_makeDirectory (t : FileTree) (names : List String) :
    (t.makeDirectory names).isSome =
      (t.isDirectory names || (t.file? names).isNone && names.getLast?.all isName) := by
  unfold makeDirectory
  by_cases hthere : t.isDirectory names
  · simp [hthere]
  · cases t.file? names <;> cases names.getLast?.all isName <;> simp [hthere]

/-- A directory that is made is a new entry, and no other entry changes. -/
theorem entry_makeDirectory (h : t.makeDirectory names = some t') (other : List String) :
    t'.entry other = if other = names then (true, t.file? names) else t.entry other := by
  unfold makeDirectory at h
  split at h
  · next hthere =>
    obtain rfl := Option.some.inj h
    split
    · next heq => rw [entry, heq, hthere]
    · rfl
  · split at h
    · cases h
    · obtain rfl := Option.some.inj h
      by_cases heq : other = names
      · simp [entry, isDirectory, file?, heq]
      · simp [entry, isDirectory, file?, heq]

/-- A file can be written where no directory is, if its name is one. -/
theorem isSome_write (t : FileTree) (names : List String) (contents : ByteArray) :
    (t.write names contents).isSome = (!t.isDirectory names && names.getLast?.any isName) := by
  unfold write
  cases t.isDirectory names <;> cases names.getLast?.any isName <;> simp

/-- A file that is written is a new entry, and no other entry changes. -/
theorem entry_write (h : t.write names contents = some t') (other : List String) :
    t'.entry other = if other = names then (false, some contents) else t.entry other := by
  have hfree := isDirectory_of_write h
  obtain rfl := (write_eq_some h).1
  have hdirectory : (t.setFile names contents).isDirectory other = t.isDirectory other := by
    rw [isDirectory, directories_setFile]
    rfl
  rw [entry, hdirectory]
  split
  · next heq => rw [heq, file?_setFile, hfree]
  · next hne => rw [file?_setFile_of_ne hne]; rfl

end Entries

/-! ## Trees of a system -/

/-- Whether a tree can be that of a system: its top is a directory, all else has a name and lies in
a directory, and no directory is a file. -/
structure WellFormed (t : FileTree) : Prop where
  top : t.isDirectory [] = true
  below : ∀ base name, t.isDirectory (base ++ [name]) = true ∨ (t.file? (base ++ [name])).isSome →
    t.isDirectory base = true ∧ isName name = true
  apart : ∀ names, t.isDirectory names = true → t.file? names = none

section WellFormed

variable {t t' : FileTree} {base names : List String} {name : String} {contents : ByteArray}

/-- What is above a directory is one. -/
theorem WellFormed.dropLast (h : t.WellFormed) (hthere : t.isDirectory names = true) :
    t.isDirectory names.dropLast = true := by
  rcases names.eq_nil_or_concat with rfl | ⟨base, name, rfl⟩
  · exact hthere
  · rw [List.concat_eq_append] at hthere ⊢
    rw [List.dropLast_concat]
    exact (h.below base name (.inl hthere)).1

/-- A directory that is made in another keeps a tree well formed. -/
theorem WellFormed.makeDirectory (h : t.WellFormed) (hbase : t.isDirectory base = true)
    (hmade : t.makeDirectory (base ++ [name]) = some t') : t'.WellFormed := by
  by_cases hthere : t.isDirectory (base ++ [name]) = true
  · rw [makeDirectory_of_isDirectory hthere] at hmade
    exact Option.some.inj hmade ▸ h
  · have hentry := entry_makeDirectory hmade
    have hfree : t.file? (base ++ [name]) = none ∧ isName name = true := by
      have hsome := t.isSome_makeDirectory (base ++ [name])
      simpa [hmade, hthere] using hsome
    have hmono : ∀ names,
        t.isDirectory names = true → t'.isDirectory names = true := fun names hnames =>
      isDirectory_mono (makeDirectory_eq_some hmade).2.1 hnames
    refine ⟨hmono [] h.top, fun base' name' htaken => ?_, fun names hnames => ?_⟩
    · by_cases heq : base' ++ [name'] = base ++ [name]
      · obtain ⟨rfl, rfl⟩ := List.append_singleton_inj.mp heq
        exact ⟨hmono _ hbase, hfree.2⟩
      · have hold := hentry (base' ++ [name'])
        rw [if_neg heq] at hold
        rw [isDirectory_of_entry_eq hold, file?_of_entry_eq hold] at htaken
        exact ⟨hmono _ (h.below base' name' htaken).1, (h.below base' name' htaken).2⟩
    · by_cases heq : names = base ++ [name]
      · have hnew := hentry names
        rw [if_pos heq, hfree.1] at hnew
        exact congrArg Prod.snd hnew
      · have hold := hentry names
        rw [if_neg heq] at hold
        rw [isDirectory_of_entry_eq hold] at hnames
        exact (file?_of_entry_eq hold).trans (h.apart names hnames)

/-- A file that is written into a directory keeps a tree well formed. -/
theorem WellFormed.write (h : t.WellFormed) (hbase : t.isDirectory base = true)
    (hwrite : t.write (base ++ [name]) contents = some t') : t'.WellFormed := by
  have hentry := entry_write hwrite
  have hname : isName name = true := by
    have hsome := t.isSome_write (base ++ [name]) contents
    simp [hwrite] at hsome
    exact hsome.2
  have hdirectories := (write_eq_some hwrite).2.1
  have hsame : ∀ names, t'.isDirectory names = t.isDirectory names := fun names => by
    rw [isDirectory, hdirectories]
    rfl
  refine ⟨(hsame []).trans h.top, fun base' name' htaken => ?_, fun names hnames => ?_⟩
  · rw [hsame]
    by_cases heq : base' ++ [name'] = base ++ [name]
    · obtain ⟨rfl, rfl⟩ := List.append_singleton_inj.mp heq
      exact ⟨hbase, hname⟩
    · have hold := hentry (base' ++ [name'])
      rw [if_neg heq] at hold
      rw [isDirectory_of_entry_eq hold, file?_of_entry_eq hold] at htaken
      exact h.below base' name' htaken
  · have hnew := hentry names
    split at hnew
    · have hfile : t'.isDirectory names = false := congrArg Prod.fst hnew
      rw [hfile] at hnames
      cases hnames
    · rw [isDirectory_of_entry_eq hnew] at hnames
      exact (file?_of_entry_eq hnew).trans (h.apart names hnames)

end WellFormed

/-! ## Ways -/

/-- Where a name leads to from a directory. -/
def enter (base : List String) (name : String) : List String :=
  if isIdle name then base else if name = ".." then base.dropLast else base ++ [name]

/-- Where names lead to one after the other. Each leads on from a directory that is there. -/
def walk (t : FileTree) (base : List String) : List String → Option (List String)
  | [] => some base
  | name :: rest => if t.isDirectory base then t.walk (enter base name) rest else none

/-- Makes the directories along a way. It stops where one cannot be made. -/
def makeWay (t : FileTree) (base : List String) : List String → FileTree × Bool
  | [] => (t, true)
  | name :: rest =>
    match t.makeDirectory (enter base name) with
    | some t => t.makeWay (enter base name) rest
    | none => (t, false)

/-- Whether names lead further down, each by one directory. -/
def IsPlain (names : List String) : Prop := ∀ name ∈ names, isIdle name = false ∧ name ≠ ".."

section Ways

variable {t t' : FileTree} {base place names rest : List String}

/-- A plain name leads one step deeper. -/
theorem enter_of_plain {name : String} (h : isIdle name = false ∧ name ≠ "..") :
    enter base name = base ++ [name] := by
  rw [enter, h.1, if_neg Bool.false_ne_true, if_neg h.2]

/-- A way is walked part by part. -/
theorem walk_append (t : FileTree) (base names rest : List String) :
    t.walk base (names ++ rest) = (t.walk base names).bind fun place => t.walk place rest := by
  induction names generalizing base with
  | nil => rfl
  | cons name names ih =>
    rw [List.cons_append, walk, walk]
    split
    · exact ih _
    · rfl

/-- A way that leads somewhere leads there when there are more directories. -/
theorem walk_of_subset (h : t.walk base names = some place)
    (hsubset : t.directories ⊆ t'.directories) :
    t'.walk base names = some place := by
  induction names generalizing base with
  | nil => exact h
  | cons name rest ih =>
    rw [walk] at h ⊢
    split at h
    · next hthere =>
      rw [if_pos (isDirectory_mono hsubset hthere)]
      exact ih h
    · cases h

/-- Names that lead nowhere only matter at the end of a way, which is a directory then. -/
theorem walk_eq_filter (t : FileTree) (base names : List String) :
    t.walk base names = (t.walk base (names.filter (!isIdle ·))).filter
      fun place => !isIdle (names.getLast?.getD "..") || t.isDirectory place := by
  induction names generalizing base with
  | nil =>
    have hdots : isIdle ".." = false := by decide
    simp [walk, hdots, Option.filter]
  | cons name rest ih =>
    cases rest with
    | nil =>
      cases hidle : isIdle name <;> cases hthere : t.isDirectory base <;>
        simp [walk, enter, hidle, hthere, Option.filter]
    | cons next rest =>
      have hlast :
          (name :: next :: rest).getLast?.getD ".." = (next :: rest).getLast?.getD ".." := by
        simp [List.getLast?_cons]
      rw [hlast, List.filter_cons]
      cases hidle : isIdle name with
      | false =>
        have hwalk (names : List String) : t.walk base (name :: names) =
            if t.isDirectory base then t.walk (enter base name) names else none := rfl
        rw [if_pos (show (!false) = true from rfl), hwalk, hwalk]
        split
        · exact ih _
        · rfl
      | true =>
        have hwalk : t.walk base (name :: next :: rest) =
            if t.isDirectory base then t.walk base (next :: rest) else none := by
          rw [walk, enter, if_pos hidle]
        rw [hwalk, if_neg (show ¬ (!true) = true by decide), ← ih base]
        split
        · rfl
        · next hthere => rw [walk, if_neg hthere]

/-- A way that leads further down leads to its end if the directory before the end is there. -/
theorem WellFormed.walk_of_plain (h : t.WellFormed) (hplain : IsPlain names) (base : List String) :
    t.walk base names =
      if names = [] ∨ t.isDirectory (base ++ names.dropLast) = true then some (base ++ names)
        else none := by
  induction names using List.reverseRecOn with
  | nil => simp [walk]
  | append_singleton names name ih =>
    have hname : enter (base ++ names) name = base ++ names ++ [name] :=
      enter_of_plain (hplain name (by simp))
    rw [walk_append, ih fun x hx => hplain x (List.mem_append_left _ hx), List.dropLast_concat]
    by_cases hthere : t.isDirectory (base ++ names) = true
    · have hbefore : names = [] ∨ t.isDirectory (base ++ names.dropLast) = true := by
        by_cases hnil : names = []
        · exact .inl hnil
        · exact .inr (List.dropLast_append_of_ne_nil hnil ▸ h.dropLast hthere)
      rw [if_pos hbefore, if_pos (.inr hthere), Option.bind_some, walk, if_pos hthere, hname, walk,
        List.append_assoc]
    · have hend : ¬ (names ++ [name] = [] ∨ t.isDirectory (base ++ names) = true) := by
        simp [hthere]
      rw [if_neg hend]
      split
      · rw [Option.bind_some, walk, if_neg hthere]
      · rfl

/-- A way leads to a directory, or by its last name to a place in one. -/
theorem WellFormed.walk_cases (h : t.WellFormed) (hbase : t.isDirectory base = true)
    (hwalk : t.walk base names = some place) :
    t.isDirectory place = true ∨
      ∃ parent name, place = parent ++ [name] ∧ t.isDirectory parent = true ∧ name ∈ names := by
  induction names generalizing base with
  | nil => exact .inl (Option.some.inj hwalk ▸ hbase)
  | cons name rest ih =>
    rw [walk, if_pos hbase] at hwalk
    by_cases hthere : t.isDirectory (enter base name) = true
    · refine (ih hthere hwalk).imp_right ?_
      rintro ⟨parent, name', hplace, hparent, hname'⟩
      exact ⟨parent, name', hplace, hparent, List.mem_cons_of_mem _ hname'⟩
    · have hend : rest = [] ∧ enter base name = place := by
        cases rest with
        | nil => exact ⟨rfl, Option.some.inj hwalk⟩
        | cons next rest => rw [walk, if_neg hthere] at hwalk; cases hwalk
      obtain ⟨rfl, rfl⟩ := hend
      unfold enter at hthere ⊢
      split at hthere
      · exact absurd hbase hthere
      · next hidle =>
        split at hthere
        · exact absurd (h.dropLast hbase) hthere
        · next hdots =>
          rw [if_neg hidle, if_neg hdots]
          exact .inr ⟨base, name, rfl, hbase, List.mem_cons_self⟩

/-- A way is made part by part. -/
theorem makeWay_append (t : FileTree) (base names rest : List String) :
    t.makeWay base (names ++ rest) =
      match t.makeWay base names with
      | (t', true) => t'.makeWay (names.foldl enter base) rest
      | (t', false) => (t', false) := by
  induction names generalizing t base with
  | nil => rfl
  | cons name names ih =>
    rw [List.cons_append, makeWay, makeWay]
    cases t.makeDirectory (enter base name) with
    | none => rfl
    | some t' => exact ih t' _

/-- Along a way that leads somewhere only the last directory has to be made. -/
theorem makeWay_of_walk (hbase : t.isDirectory base = true)
    (hwalk : t.walk base names = some place) :
    names.foldl enter base = place ∧
      t.makeWay base names =
        match t.makeDirectory place with
        | some t' => (t', true)
        | none => (t, false) := by
  induction names generalizing base with
  | nil =>
    obtain rfl := Option.some.inj hwalk
    exact ⟨rfl, by rw [makeDirectory_of_isDirectory hbase, makeWay]⟩
  | cons name rest ih =>
    rw [walk, if_pos hbase] at hwalk
    cases rest with
    | nil =>
      obtain rfl := Option.some.inj hwalk
      exact ⟨rfl, by rw [makeWay]; cases t.makeDirectory (enter base name) <;> rfl⟩
    | cons next rest =>
      have hthere : t.isDirectory (enter base name) = true := by
        by_contra hnot
        rw [walk, if_neg hnot] at hwalk
        cases hwalk
      obtain ⟨hend, hmade⟩ := ih hthere hwalk
      exact ⟨hend, by rw [makeWay, makeDirectory_of_isDirectory hthere]; exact hmade⟩

/-- Directories are made along a way that leads further down, when the first is there. -/
theorem makeDirectories_eq_makeWay (hplain : IsPlain names) (t : FileTree) (base : List String) :
    t.makeDirectories base names =
      match t.makeDirectory base with
      | some t' => t'.makeWay base names
      | none => (t, false) := by
  induction names generalizing t base with
  | nil => rw [makeDirectories]; cases t.makeDirectory base <;> rfl
  | cons name rest ih =>
    rw [makeDirectories]
    cases t.makeDirectory base with
    | none => rfl
    | some t' =>
      show t'.makeDirectories (base ++ [name]) rest = t'.makeWay base (name :: rest)
      rw [ih fun x hx => hplain x (List.mem_cons_of_mem _ hx), makeWay,
        enter_of_plain (hplain name List.mem_cons_self)]

end Ways

/-! ## Trees that show others -/

/-- Whether a tree holds at a place of it what another tree holds. -/
def Shows (t : FileTree) (place : List String) (v : FileTree) : Prop :=
  ∀ names, t.entry (place ++ names) = v.entry names

/-- What becomes of a tree that is changed at a place of it, where it then shows another tree:
nothing changes but what lies at the place or below it, and no directory is lost. -/
structure Follows (place : List String) (t t' v' : FileTree) : Prop where
  wellFormed : t'.WellFormed
  shows : t'.Shows place v'
  outside : ∀ names, ¬ place <+: names → t'.entry names = t.entry names
  grows : t.directories ⊆ t'.directories

section Shows

variable {t t' t'' v v' v'' : FileTree} {place base names : List String} {contents : ByteArray}

/-- A tree follows itself. -/
theorem Follows.refl (ht : t.WellFormed) (h : t.Shows place v) : Follows place t t v :=
  ⟨ht, h, fun _ _ => rfl, List.Subset.refl _⟩

/-- What follows a tree that follows another follows that one. -/
theorem Follows.trans (h : Follows place t t' v') (h' : Follows place t' t'' v'') :
    Follows place t t'' v'' :=
  ⟨h'.wellFormed, h'.shows,
    fun names hnames => (h'.outside names hnames).trans (h.outside names hnames),
    List.Subset.trans h.grows h'.grows⟩

/-- The same change at the place and in the tree that is shown there. -/
theorem Shows.change (h : t.Shows place v) {new : Bool × Option ByteArray}
    (ht : ∀ other, t'.entry other = if other = place ++ names then new else t.entry other)
    (hv : ∀ other, v'.entry other = if other = names then new else v.entry other) :
    t'.Shows place v' ∧ ∀ other, ¬ place <+: other → t'.entry other = t.entry other := by
  refine ⟨fun other => ?_, fun other hother => ?_⟩
  · rw [ht, hv, h]
    simp only [List.append_cancel_left_eq]
  · rw [ht, if_neg]
    rintro rfl
    exact hother (List.prefix_append _ _)

/-- A directory can be made in both trees, or in neither. -/
theorem Shows.makeDirectory (h : t.Shows place v) (ht : t.WellFormed)
    (hparent : t.isDirectory (place ++ names) = true ∨
      ∃ parent name, place ++ names = parent ++ [name] ∧ t.isDirectory parent = true)
    (hname : names = [] → t.isDirectory place = true ∨ place.getLast?.all isName = true) :
    (t.makeDirectory (place ++ names) = none ∧ v.makeDirectory names = none) ∨
      ∃ t' v', t.makeDirectory (place ++ names) = some t' ∧ v.makeDirectory names = some v' ∧
        Follows place t t' v' := by
  have hentry := h names
  have hpossible : (t.makeDirectory (place ++ names)).isSome = (v.makeDirectory names).isSome := by
    rw [isSome_makeDirectory, isSome_makeDirectory, isDirectory_of_entry_eq hentry,
      file?_of_entry_eq hentry]
    rcases names.eq_nil_or_concat with rfl | ⟨init, last, rfl⟩
    · rcases hname rfl with hthere | hnamed
      · rw [← isDirectory_of_entry_eq hentry, List.append_nil, hthere]
        rfl
      · rw [List.append_nil, hnamed]
        rfl
    · simp [List.getLast?_append]
  cases hmade : t.makeDirectory (place ++ names) with
  | none =>
    rw [hmade] at hpossible
    exact .inl ⟨rfl,
      Option.not_isSome_iff_eq_none.mp (by rw [← hpossible]; exact Bool.false_ne_true)⟩
  | some t' =>
    rw [hmade] at hpossible
    obtain ⟨v', hv'⟩ := Option.isSome_iff_exists.mp hpossible.symm
    have hwellFormed : t'.WellFormed := by
      rcases hparent with hthere | ⟨parent, name, heq, hparent⟩
      · rw [makeDirectory_of_isDirectory hthere] at hmade
        exact Option.some.inj hmade ▸ ht
      · exact ht.makeDirectory hparent (heq ▸ hmade)
    obtain ⟨hshows, houtside⟩ := h.change (entry_makeDirectory hmade)
      (fun other => by rw [entry_makeDirectory hv', file?_of_entry_eq hentry])
    exact .inr ⟨t', v', rfl, hv', hwellFormed, hshows, houtside, (makeDirectory_eq_some hmade).2.1⟩

/-- Directories are made in both trees along a way that leads further down. -/
theorem Shows.makeWay (h : t.Shows place v) (ht : t.WellFormed)
    (hbase : t.isDirectory (place ++ base) = true) (hplain : IsPlain names) :
    ∃ t' v' made, t.makeWay (place ++ base) names = (t', made) ∧ v.makeWay base names = (v', made) ∧
      Follows place t t' v' ∧ (made = true → t'.isDirectory (place ++ (base ++ names)) = true) := by
  induction names generalizing t v base with
  | nil => exact ⟨t, v, true, rfl, rfl, .refl ht h, fun _ => by rwa [List.append_nil]⟩
  | cons name rest ih =>
    have hname := hplain name List.mem_cons_self
    have henter : enter (place ++ base) name = place ++ (base ++ [name]) := by
      rw [enter_of_plain hname, List.append_assoc]
    rw [FileTree.makeWay, FileTree.makeWay, henter, enter_of_plain hname]
    have hparent : t.isDirectory (place ++ (base ++ [name])) = true ∨
        ∃ parent last, place ++ (base ++ [name]) = parent ++ [last] ∧ t.isDirectory parent = true :=
      .inr ⟨place ++ base, name, (List.append_assoc _ _ _).symm, hbase⟩
    rcases h.makeDirectory ht hparent (by simp) with
      ⟨htnone, hvnone⟩ | ⟨t₁, v₁, htmade, hvmade, hfollows⟩
    · rw [htnone, hvnone]
      exact ⟨t, v, false, rfl, rfl, .refl ht h, by simp⟩
    · obtain ⟨t', v', made, hway, hvway, hfollows', hthere⟩ := ih hfollows.shows hfollows.wellFormed
        (makeDirectory_eq_some htmade).1 (fun x hx => hplain x (List.mem_cons_of_mem _ hx))
      rw [htmade, hvmade]
      refine ⟨t', v', made, hway, hvway, hfollows.trans hfollows', fun hmade => ?_⟩
      simpa using hthere hmade

/-- A file can be written in both trees, or in neither. -/
theorem Shows.write (h : t.Shows place v) (ht : t.WellFormed) (hnames : names ≠ [])
    (hparent : t.isDirectory (place ++ names.dropLast) = true) (contents : ByteArray) :
    (t.write (place ++ names) contents = none ∧ v.write names contents = none) ∨
      ∃ t' v', t.write (place ++ names) contents = some t' ∧ v.write names contents = some v' ∧
        Follows place t t' v' := by
  obtain ⟨init, last, rfl⟩ : ∃ init last, names = init ++ [last] := by
    rcases names.eq_nil_or_concat with hnil | ⟨init, last, hconcat⟩
    · exact absurd hnil hnames
    · exact ⟨init, last, by rw [hconcat, List.concat_eq_append]⟩
  rw [List.dropLast_concat] at hparent
  have hpossible : (t.write (place ++ (init ++ [last])) contents).isSome =
      (v.write (init ++ [last]) contents).isSome := by
    rw [isSome_write, isSome_write, isDirectory_of_entry_eq (h _)]
    simp [List.getLast?_append]
  cases hwrite : t.write (place ++ (init ++ [last])) contents with
  | none =>
    rw [hwrite] at hpossible
    exact .inl ⟨rfl,
      Option.not_isSome_iff_eq_none.mp (by rw [← hpossible]; exact Bool.false_ne_true)⟩
  | some t' =>
    rw [hwrite] at hpossible
    obtain ⟨v', hv'⟩ := Option.isSome_iff_exists.mp hpossible.symm
    have hwellFormed : t'.WellFormed := ht.write hparent (List.append_assoc _ _ _ ▸ hwrite)
    obtain ⟨hshows, houtside⟩ := h.change (entry_write hwrite) (entry_write hv')
    have hgrows : t.directories ⊆ t'.directories := by
      rw [(write_eq_some hwrite).2.1]; exact List.Subset.refl _
    exact .inr ⟨t', v', rfl, hv', hwellFormed, hshows, houtside, hgrows⟩

end Shows

end FileTree
end PipelineManager
