import PipelineManager.Proofs.Files.Ways

/-!
# What a way reaches

A way leads from a directory to its end. Whoever follows it meets the places on the way, at which a
directory has to be, and from its end on whatever lies below. What is done along a way that goes on
below its end looks at nothing else and changes nothing else: on the way itself it only makes
directories where nothing was, and it only looks at whether something is there.
-/

namespace PipelineManager
namespace FileTree

/-! ## Places -/

/-- Whether a place is the directory where a way begins, or one to which some of its names lead. -/
def OnWay (base way names : List String) : Prop :=
  ∃ front, front <+: way ∧ names = front.foldl enter base

/-- Whether a place is on a way, or below its end. -/
def Reaches (base way names : List String) : Prop :=
  OnWay base way names ∨ way.foldl enter base <+: names

section Places

variable {t : FileTree} {base way names front parts place : List String}

/-- Names that lead nowhere can be left out of a way. -/
theorem foldl_enter_filter (base names : List String) :
    (names.filter (!isIdle ·)).foldl enter base = names.foldl enter base := by
  induction names generalizing base with
  | nil => rfl
  | cons name rest ih =>
    cases hidle : isIdle name with
    | false =>
      rw [List.filter_cons_of_pos (by simpa using hidle), List.foldl_cons, ih, List.foldl_cons]
    | true =>
      rw [List.filter_cons_of_neg (by simp [hidle]), ih, List.foldl_cons, enter, if_pos hidle]

/-- Names that lead further down are put behind each other. -/
theorem foldl_enter_of_plain (hplain : IsPlain names) (base : List String) :
    names.foldl enter base = base ++ names := by
  induction names generalizing base with
  | nil => simp
  | cons name rest ih =>
    rw [List.foldl_cons, enter_of_plain (hplain name List.mem_cons_self),
      ih fun x hx => hplain x (List.mem_cons_of_mem _ hx), List.append_assoc, List.singleton_append]

/-- A way that leads somewhere leads to its end. -/
theorem eq_foldl_of_walk (h : t.walk base names = some place) : place = names.foldl enter base := by
  induction names generalizing base with
  | nil => exact (Option.some.inj h).symm
  | cons name rest ih =>
    rw [walk] at h
    split at h
    · exact ih h
    · cases h

/-- Whatever begins a way that goes on further down leads to what the way reaches. -/
theorem reaches_of_prefix (hplain : IsPlain parts) (h : front <+: way ++ parts) :
    Reaches base way (front.foldl enter base) := by
  rcases List.prefix_or_prefix_of_prefix h (List.prefix_append way parts) with hfront | ⟨rest, rfl⟩
  · exact .inl ⟨front, hfront, rfl⟩
  · have hrest : rest <+: parts := (List.prefix_append_right_inj way).mp h
    rw [List.foldl_append, foldl_enter_of_plain fun x hx => hplain x (hrest.subset hx)]
    exact .inr (List.prefix_append _ _)

end Places

/-! ## Changes -/

/-- Whether a tree becomes another one by changes below the end of a way, and directories on the way
that are made where nothing was. -/
def GrowsAlong (base way : List String) (t t' : FileTree) : Prop :=
  ∀ names, ¬ way.foldl enter base <+: names → t'.entry names = t.entry names ∨
    OnWay base way names ∧ t.entry names = (false, none) ∧ t'.entry names = (true, none)

section Changes

variable {t t' t'' : FileTree} {base way names : List String}

/-- A tree may stay as it is. -/
theorem GrowsAlong.refl (base way : List String) (t : FileTree) : GrowsAlong base way t t :=
  fun _ _ => .inl rfl

/-- One change may follow another. -/
theorem GrowsAlong.trans (h : GrowsAlong base way t t') (h' : GrowsAlong base way t' t'') :
    GrowsAlong base way t t'' := by
  intro names hnames
  rcases h names hnames with hsame | ⟨hway, hbefore, hafter⟩
  · rcases h' names hnames with hsame' | ⟨hway, hbefore, hafter⟩
    · exact .inl (hsame'.trans hsame)
    · exact .inr ⟨hway, hsame.symm.trans hbefore, hafter⟩
  · rcases h' names hnames with hsame' | ⟨-, hbefore', -⟩
    · exact .inr ⟨hway, hbefore, hsame'.trans hafter⟩
    · cases hafter.symm.trans hbefore'

/-- A file that lies elsewhere stays as it is. -/
theorem GrowsAlong.file? (h : GrowsAlong base way t t')
    (hnames : ¬ way.foldl enter base <+: names) :
    t'.file? names = t.file? names := by
  rcases h names hnames with hsame | ⟨-, hbefore, hafter⟩
  · exact file?_of_entry_eq hsame
  · exact (congrArg Prod.snd hafter).trans (congrArg Prod.snd hbefore).symm

/-- A directory is made where the way reaches. -/
theorem growsAlong_makeDirectory (h : t.makeDirectory names = some t')
    (hreaches : Reaches base way names) : GrowsAlong base way t t' := by
  intro other hother
  by_cases hthere : t.isDirectory names = true
  · rw [makeDirectory_of_isDirectory hthere] at h
    exact .inl (Option.some.inj h ▸ rfl)
  have hentry := entry_makeDirectory h other
  split at hentry
  · next heq =>
    subst heq
    have hfree : t.file? other = none := by
      have hsome := t.isSome_makeDirectory other
      simp [h, hthere] at hsome
      exact hsome.1
    have hbefore : t.entry other = (false, none) := Prod.ext (Bool.eq_false_iff.mpr hthere) hfree
    exact .inr ⟨hreaches.resolve_right hother, hbefore, hfree ▸ hentry⟩
  · exact .inl hentry

/-- Directories are made along what the way reaches. -/
theorem growsAlong_makeWay (t : FileTree) (start : List String)
    (hreaches : ∀ front, front <+: names → Reaches base way (front.foldl enter start)) :
    GrowsAlong base way t (t.makeWay start names).1 := by
  induction names generalizing t start with
  | nil => exact .refl base way t
  | cons name rest ih =>
    rw [makeWay]
    cases hmade : t.makeDirectory (enter start name) with
    | none => exact .refl base way t
    | some t' =>
      have hfirst : Reaches base way (enter start name) :=
        hreaches [name] (List.prefix_append [name] rest)
      exact (growsAlong_makeDirectory hmade hfirst).trans
        (ih t' (enter start name) fun front hfront =>
          hreaches (name :: front) ((List.prefix_cons_inj name).mpr hfront))

/-- Directories are made without touching a file. -/
theorem files_makeWay (t : FileTree) (start names : List String) :
    (t.makeWay start names).1.files = t.files := by
  induction names generalizing t start with
  | nil => rfl
  | cons name rest ih =>
    rw [makeWay]
    cases hmade : t.makeDirectory (enter start name) with
    | none => rfl
    | some t' => exact (ih t' _).trans (makeDirectory_eq_some hmade).2.2

/-- A file is written below the end of the way. -/
theorem growsAlong_write {contents : ByteArray} (h : t.write names contents = some t')
    (hbelow : way.foldl enter base <+: names) : GrowsAlong base way t t' := by
  intro other hother
  have hne : other ≠ names := by
    rintro rfl
    exact hother hbelow
  exact .inl ((entry_write h other).trans (if_neg hne))

end Changes

/-! ## Trees that differ elsewhere -/

/-- Whether two trees are the same to whoever follows a way: they have the same below its end, and
on the way a directory, a file or nothing at the same places. -/
structure Alike (base way : List String) (t u : FileTree) : Prop where
  below : ∀ names, way.foldl enter base <+: names → t.entry names = u.entry names
  onWay : ∀ names, OnWay base way names →
    t.isDirectory names = u.isDirectory names ∧ (t.file? names).isSome = (u.file? names).isSome

section Alike

variable {t t' u u' : FileTree} {base way names : List String}

/-- Where a way reaches, both trees have a directory or neither. -/
theorem Alike.isDirectory (h : Alike base way t u) (hreaches : Reaches base way names) :
    t.isDirectory names = u.isDirectory names :=
  hreaches.elim (fun hway => (h.onWay names hway).1)
    fun hbelow => isDirectory_of_entry_eq (h.below names hbelow)

/-- Where a way reaches, both trees have a file or neither. -/
theorem Alike.isSome_file? (h : Alike base way t u) (hreaches : Reaches base way names) :
    (t.file? names).isSome = (u.file? names).isSome :=
  hreaches.elim (fun hway => (h.onWay names hway).2)
    fun hbelow => congrArg Option.isSome (file?_of_entry_eq (h.below names hbelow))

/-- The same change at one place of both trees. -/
theorem Alike.change (h : Alike base way t u) {new new' : Bool × Option ByteArray}
    (ht : ∀ other, t'.entry other = if other = names then new else t.entry other)
    (hu : ∀ other, u'.entry other = if other = names then new' else u.entry other)
    (hbelow : way.foldl enter base <+: names → new = new')
    (hway : new.1 = new'.1 ∧ new.2.isSome = new'.2.isSome) : Alike base way t' u' := by
  constructor
  · intro other hother
    rw [ht, hu]
    split
    · next heq => exact hbelow (heq ▸ hother)
    · exact h.below other hother
  · intro other hother
    have ht := ht other
    have hu := hu other
    split at ht
    · next heq =>
      rw [if_pos heq] at hu
      rw [← congrArg Prod.fst ht, ← congrArg Prod.fst hu, ← congrArg Prod.snd ht,
        ← congrArg Prod.snd hu] at hway
      exact hway
    · next hne =>
      rw [if_neg hne] at hu
      rw [isDirectory_of_entry_eq ht, isDirectory_of_entry_eq hu, file?_of_entry_eq ht,
        file?_of_entry_eq hu]
      exact h.onWay other hother

/-- A directory is made in both trees, or in neither. -/
theorem Alike.makeDirectory (h : Alike base way t u) (hreaches : Reaches base way names) :
    (t.makeDirectory names = none ∧ u.makeDirectory names = none) ∨
      ∃ t' u', t.makeDirectory names = some t' ∧ u.makeDirectory names = some u' ∧
        Alike base way t' u' := by
  have hnone : (t.file? names).isNone = (u.file? names).isNone := by
    rw [← Option.not_isSome, ← Option.not_isSome, h.isSome_file? hreaches]
  have hpossible : (t.makeDirectory names).isSome = (u.makeDirectory names).isSome := by
    rw [isSome_makeDirectory, isSome_makeDirectory, h.isDirectory hreaches, hnone]
  cases ht : t.makeDirectory names with
  | none =>
    rw [ht] at hpossible
    exact .inl ⟨rfl, Option.isNone_iff_eq_none.mp (Option.isSome_eq_false_iff.mp hpossible.symm)⟩
  | some t' =>
    rw [ht] at hpossible
    obtain ⟨u', hu⟩ := Option.isSome_iff_exists.mp hpossible.symm
    exact .inr ⟨t', u', rfl, hu, h.change (entry_makeDirectory ht) (entry_makeDirectory hu)
      (fun hbelow => by rw [file?_of_entry_eq (h.below names hbelow)])
      ⟨rfl, h.isSome_file? hreaches⟩⟩

/-- Directories are made along the way in both trees, as far as they can be. -/
theorem Alike.makeWay (h : Alike base way t u) (start : List String)
    (hreaches : ∀ front, front <+: names → Reaches base way (front.foldl enter start)) :
    (t.makeWay start names).2 = (u.makeWay start names).2 ∧
      Alike base way (t.makeWay start names).1 (u.makeWay start names).1 := by
  induction names generalizing t u start with
  | nil => exact ⟨rfl, h⟩
  | cons name rest ih =>
    have hfirst : Reaches base way (enter start name) :=
      hreaches [name] (List.prefix_append [name] rest)
    rw [FileTree.makeWay, FileTree.makeWay]
    rcases h.makeDirectory hfirst with ⟨ht, hu⟩ | ⟨t', u', ht, hu, h'⟩
    · rw [ht, hu]
      exact ⟨rfl, h⟩
    · rw [ht, hu]
      exact ih h' (enter start name) fun front hfront =>
        hreaches (name :: front) ((List.prefix_cons_inj name).mpr hfront)

/-- The way leads to the same place in both trees. -/
theorem Alike.walk (h : Alike base way t u) (start : List String)
    (hreaches : ∀ front, front <+: names → Reaches base way (front.foldl enter start)) :
    t.walk start names = u.walk start names := by
  induction names generalizing start with
  | nil => rfl
  | cons name rest ih =>
    have hstart : t.isDirectory start = u.isDirectory start :=
      h.isDirectory (hreaches [] List.nil_prefix)
    rw [FileTree.walk, FileTree.walk, hstart, ih (enter start name) fun front hfront =>
      hreaches (name :: front) ((List.prefix_cons_inj name).mpr hfront)]

/-- A file is written in both trees, or in neither. -/
theorem Alike.write (h : Alike base way t u) (hbelow : way.foldl enter base <+: names)
    (contents : ByteArray) :
    (t.write names contents = none ∧ u.write names contents = none) ∨
      ∃ t' u', t.write names contents = some t' ∧ u.write names contents = some u' ∧
        Alike base way t' u' := by
  have hpossible : (t.write names contents).isSome = (u.write names contents).isSome := by
    rw [isSome_write, isSome_write, h.isDirectory (.inr hbelow)]
  cases ht : t.write names contents with
  | none =>
    rw [ht] at hpossible
    exact .inl ⟨rfl, Option.isNone_iff_eq_none.mp (Option.isSome_eq_false_iff.mp hpossible.symm)⟩
  | some t' =>
    rw [ht] at hpossible
    obtain ⟨u', hu⟩ := Option.isSome_iff_exists.mp hpossible.symm
    exact .inr ⟨t', u', rfl, hu, h.change (entry_write ht) (entry_write hu) (fun _ => rfl)
      ⟨rfl, rfl⟩⟩

end Alike

end FileTree
end PipelineManager
