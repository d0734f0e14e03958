import PipelineManager.Proofs.Files.Reach
import PipelineManager.Proofs.Warehouse.Hosting

/-!
# The warehouse on any system

The path of the root has an end on every system, whether or not it leads there yet. What the manager
does with paths of the warehouse looks at that place and below it, and at whether there is anything
on the way to it; it changes that place and what is below it, and makes the directories that the way
lacks. What else the system holds is neither read nor changed.
-/

namespace PipelineManager
namespace System

open FileTree (OnWay Reaches GrowsAlong Alike enter)

/-- The place of a root: where its path ends. -/
def rootPlace (s : System) (root : String) : List String := (wayOf root).foldl enter (s.start root)

/-- Whether a place is on the way to a root. -/
def OnRootWay (s : System) (root : String) (names : List String) : Prop :=
  OnWay (s.start root) (wayOf root) names

/-- Whether a system becomes another one by changes at the place of a root and below it, and
directories on the way to it that are made where nothing was. -/
structure GrowsBelow (root : String) (s s' : System) : Prop where
  current : s'.current = s.current
  tree : GrowsAlong (s.start root) (wayOf root) s.tree s'.tree

/-- Whether two systems are the same to whoever uses a root: they have the same at its place and
below, and on the way to it a directory, a file or nothing at the same places. -/
structure AlikeBelow (root : String) (s t : System) : Prop where
  current : t.current = s.current
  tree : Alike (s.start root) (wayOf root) s.tree t.tree

variable {s s' s'' t : System} {root path target : String} {location : Location}
  {contents : ByteArray} {w : Warehouse}

/-- Where a path begins depends on the directory where relative paths begin. -/
theorem start_congr (h : s'.current = s.current) (path : String) :
    s'.start path = s.start path := by
  rw [start, start, h]

/-- A system may stay as it is. -/
theorem GrowsBelow.refl (root : String) (s : System) : GrowsBelow root s s :=
  ⟨rfl, .refl _ _ _⟩

/-- One change may follow another. -/
theorem GrowsBelow.trans (h : GrowsBelow root s s') (h' : GrowsBelow root s' s'') :
    GrowsBelow root s s'' :=
  ⟨h'.current.trans h.current, h.tree.trans (start_congr h.current root ▸ h'.tree)⟩

/-- What is not below the root, and not on the way to it, stays as it is. -/
theorem GrowsBelow.entry (h : GrowsBelow root s s') {names : List String}
    (hnames : ¬ s.rootPlace root <+: names) :
    s'.tree.entry names = s.tree.entry names ∨ s.OnRootWay root names ∧
      s.tree.entry names = (false, none) ∧ s'.tree.entry names = (true, none) :=
  h.tree names hnames

/-! ## Paths of the warehouse -/

/-- What the names of a path of the warehouse begin leads to what the way to the root reaches. -/
theorem reaches_of_prefix_wayOf (hlocation : Location.ofPath path = .ok location)
    {front : List String} (h : front <+: wayOf root ++ location.parts) :
    Reaches (s.start root) (wayOf root) (front.foldl enter (s.start root)) :=
  FileTree.reaches_of_prefix (isPlain_parts hlocation) h

/-- The way of a path of the warehouse is that of the root and the names of the location. -/
theorem wayOf_systemPath_of_ofPath (w : Warehouse)
    (hlocation : Location.ofPath path = .ok location) :
    wayOf (w.systemPath path) = wayOf w.root ++ location.parts := by
  rw [w.wayOf_systemPath, (Location.ofPath_eq_ok_iff.mp hlocation).2]

/-- The names of a path of the warehouse lead to what the way to the root reaches, those that lead
nowhere too. -/
theorem reaches_of_prefix_namesOf (hlocation : Location.ofPath path = .ok location)
    {front : List String} (h : front <+: namesOf (w.systemPath path)) :
    Reaches (s.start w.root) (wayOf w.root) (front.foldl enter (s.start w.root)) := by
  rw [← FileTree.foldl_enter_filter]
  refine reaches_of_prefix_wayOf hlocation ?_
  rw [← wayOf_systemPath_of_ofPath w hlocation]
  exact h.filter (!isIdle ·)

/-- A path of the warehouse leads to its place below the root, or nowhere. -/
theorem eq_append_of_place? (hlocation : Location.ofPath path = .ok location) {names : List String}
    (h : s.place? (w.systemPath path) = some names) :
    names = s.rootPlace w.root ++ location.parts := by
  rw [place?] at h
  split at h
  · cases h
  · rw [FileTree.eq_foldl_of_walk h, ← FileTree.foldl_enter_filter,
      Mounts.start_systemPath s w hlocation]
    show (wayOf (w.systemPath path)).foldl enter (s.start w.root) = _
    rw [wayOf_systemPath_of_ofPath w hlocation, List.foldl_append,
      FileTree.foldl_enter_of_plain (isPlain_parts hlocation), rootPlace]

/-- A path that is taken to one of the system names a location. -/
theorem exists_ofPath_of_resolve (h : Warehouse.resolve w.root path = .ok target) :
    ∃ location, Location.ofPath path = .ok location ∧ target = w.systemPath path := by
  obtain ⟨⟨location, hlocation⟩, htarget⟩ := Warehouse.resolve_eq_ok_iff.mp h
  exact ⟨location, hlocation, htarget⟩

/-! ## What an upload changes -/

/-- The directories to a location are made below the root and on the way to it. -/
theorem growsBelow_makeParents (s : System) (w : Warehouse)
    (hlocation : Location.ofPath path = .ok location) :
    GrowsBelow w.root s (s.makeParents (w.systemPath path)).1 := by
  rw [makeParents]
  dsimp only
  split
  · exact .refl w.root s
  · refine ⟨rfl, FileTree.growsAlong_makeWay _ _ fun front hfront => ?_⟩
    rw [Mounts.start_systemPath s w hlocation]
    rw [wayOf_systemPath_of_ofPath w hlocation] at hfront
    exact reaches_of_prefix_wayOf hlocation (hfront.trans (List.dropLast_prefix _))

/-- A file is written below the root. -/
theorem growsBelow_write? (hlocation : Location.ofPath path = .ok location)
    (h : s.write? (w.systemPath path) contents = some s') : GrowsBelow w.root s s' := by
  obtain ⟨names, hplace, h⟩ := Option.bind_eq_some_iff.mp h
  obtain ⟨tree, hwrite, h⟩ := Option.bind_eq_some_iff.mp h
  obtain rfl := Option.some.inj h
  obtain rfl := eq_append_of_place? hlocation hplace
  exact ⟨rfl, FileTree.growsAlong_write hwrite (List.prefix_append _ _)⟩

/-- An upload changes what is below the root, and makes directories on the way to it. -/
theorem growsBelow_upload (s : System) (root path : String) (contents : ByteArray) :
    GrowsBelow root s (s.upload root path contents).1 := by
  rw [upload]
  cases hresolve : Warehouse.resolve root path with
  | error e => exact .refl root s
  | ok target =>
    obtain ⟨location, hlocation, rfl⟩ := exists_ofPath_of_resolve (w := { root }) hresolve
    have hparents := s.growsBelow_makeParents { root } hlocation
    dsimp only
    cases hmade : s.makeParents (({ root } : Warehouse).systemPath path) with
    | mk s₁ made =>
      rw [hmade] at hparents
      cases made with
      | false => exact hparents
      | true =>
        dsimp only
        cases hwrite : s₁.write? (({ root } : Warehouse).systemPath path) contents with
        | none => exact hparents
        | some s₂ => exact hparents.trans (growsBelow_write? hlocation hwrite)

/-- An upload that is refused, or finds no place to write to, changes no file. -/
theorem files_upload_of_error {e : WarehouseFault}
    (h : (s.upload root path contents).2 = .error e) :
    (s.upload root path contents).1.tree.files = s.tree.files := by
  have hparents (target : String) : (s.makeParents target).1.tree.files = s.tree.files := by
    rw [makeParents]
    dsimp only
    split
    · rfl
    · exact FileTree.files_makeWay _ _ _
  rw [upload] at h ⊢
  cases hresolve : Warehouse.resolve root path with
  | error e => rfl
  | ok target =>
    have hsame := hparents target
    rw [hresolve] at h
    dsimp only at h ⊢
    cases hmade : s.makeParents target with
    | mk s₁ made =>
      rw [hmade] at h hsame
      cases made with
      | false => exact hsame
      | true =>
        dsimp only at h ⊢
        cases hwrite : s₁.write? target contents with
        | none => exact hsame
        | some s₂ =>
          rw [hwrite] at h
          cases h

/-! ## What is looked at -/

/-- A system is the same as itself. -/
theorem AlikeBelow.refl (root : String) (s : System) : AlikeBelow root s s :=
  ⟨rfl, fun _ _ => rfl, fun _ _ => ⟨rfl, rfl⟩⟩

/-- A path of the warehouse leads to the same place on both systems. -/
theorem AlikeBelow.place? (h : AlikeBelow w.root s t)
    (hlocation : Location.ofPath path = .ok location) :
    t.place? (w.systemPath path) = s.place? (w.systemPath path) := by
  rw [System.place?, System.place?, start_congr h.current, Mounts.start_systemPath s w hlocation]
  split
  · rfl
  · exact (h.tree.walk _ fun front hfront => reaches_of_prefix_namesOf hlocation hfront).symm

/-- The same is downloaded. -/
theorem AlikeBelow.download (h : AlikeBelow root s t) (path : String) :
    t.download root path = s.download root path := by
  rw [System.download, System.download]
  cases hresolve : Warehouse.resolve root path with
  | error e => rfl
  | ok target =>
    obtain ⟨location, hlocation, rfl⟩ := exists_ofPath_of_resolve (w := { root }) hresolve
    have hread : t.read? (({ root } : Warehouse).systemPath path) =
        s.read? (({ root } : Warehouse).systemPath path) := by
      rw [read?, read?, h.place? hlocation]
      cases hplace : s.place? (({ root } : Warehouse).systemPath path) with
      | none => rfl
      | some names =>
        obtain rfl := eq_append_of_place? hlocation hplace
        exact (FileTree.file?_of_entry_eq (h.tree.below _ (List.prefix_append _ _))).symm
    dsimp only
    rw [hread]

/-- The same is found. -/
theorem AlikeBelow.contains (h : AlikeBelow root s t) (path : String) :
    t.contains root path = s.contains root path := by
  rw [System.contains, System.contains]
  cases hresolve : Warehouse.resolve root path with
  | error e => rfl
  | ok target =>
    obtain ⟨location, hlocation, rfl⟩ := exists_ofPath_of_resolve (w := { root }) hresolve
    show Except.ok (t.holds _) = Except.ok (s.holds _)
    rw [System.holds, System.holds, h.place? hlocation]
    cases hplace : s.place? (({ root } : Warehouse).systemPath path) with
    | none => rfl
    | some names =>
      obtain rfl := eq_append_of_place? hlocation hplace
      have hentry := h.tree.below _ (List.prefix_append (s.rootPlace root) location.parts)
      rw [Option.any_some, Option.any_some, FileTree.isDirectory_of_entry_eq hentry,
        FileTree.file?_of_entry_eq hentry]

/-- The directories to a location are made on both systems, as far as they can be. -/
theorem AlikeBelow.makeParents (h : AlikeBelow w.root s t)
    (hlocation : Location.ofPath path = .ok location) :
    (t.makeParents (w.systemPath path)).2 = (s.makeParents (w.systemPath path)).2 ∧
      AlikeBelow w.root (s.makeParents (w.systemPath path)).1
        (t.makeParents (w.systemPath path)).1 := by
  rw [System.makeParents, System.makeParents, start_congr h.current,
    Mounts.start_systemPath s w hlocation]
  dsimp only
  split
  · exact ⟨rfl, h⟩
  · have hreaches (front : List String)
        (hfront : front <+: (wayOf (w.systemPath path)).dropLast) :
        Reaches (s.start w.root) (wayOf w.root) (front.foldl enter (s.start w.root)) := by
      rw [wayOf_systemPath_of_ofPath w hlocation] at hfront
      exact reaches_of_prefix_wayOf hlocation (hfront.trans (List.dropLast_prefix _))
    obtain ⟨hmade, htree⟩ := h.tree.makeWay (s.start w.root) hreaches
    exact ⟨hmade.symm, h.current, htree⟩

/-- A file is written on both systems, or on neither. -/
theorem AlikeBelow.write? (h : AlikeBelow w.root s t)
    (hlocation : Location.ofPath path = .ok location) (contents : ByteArray) :
    (s.write? (w.systemPath path) contents = none ∧
        t.write? (w.systemPath path) contents = none) ∨
      ∃ s' t', s.write? (w.systemPath path) contents = some s' ∧
        t.write? (w.systemPath path) contents = some t' ∧ AlikeBelow w.root s' t' := by
  rw [System.write?, System.write?, h.place? hlocation]
  cases hplace : s.place? (w.systemPath path) with
  | none => exact .inl ⟨rfl, rfl⟩
  | some names =>
    obtain rfl := eq_append_of_place? hlocation hplace
    rcases h.tree.write (List.prefix_append _ location.parts) contents with
      ⟨hs, ht⟩ | ⟨u, v, hs, ht, htree⟩
    · exact .inl ⟨by simp [rootPlace, hs], by simp [rootPlace, ht]⟩
    · exact .inr ⟨{ s with tree := u }, { t with tree := v }, by simp [rootPlace, hs],
        by simp [rootPlace, ht], h.current, htree⟩

/-- An upload goes the same way on both systems. -/
theorem AlikeBelow.upload (h : AlikeBelow root s t) (path : String) (contents : ByteArray) :
    (t.upload root path contents).2 = (s.upload root path contents).2 ∧
      AlikeBelow root (s.upload root path contents).1 (t.upload root path contents).1 := by
  rw [System.upload, System.upload]
  cases hresolve : Warehouse.resolve root path with
  | error e => exact ⟨rfl, h⟩
  | ok target =>
    obtain ⟨location, hlocation, rfl⟩ := exists_ofPath_of_resolve (w := { root }) hresolve
    obtain ⟨hmade, hparents⟩ := AlikeBelow.makeParents (w := { root }) h hlocation
    dsimp only
    cases hs : s.makeParents (({ root } : Warehouse).systemPath path) with
    | mk s₁ made =>
      cases ht : t.makeParents (({ root } : Warehouse).systemPath path) with
      | mk t₁ made' =>
        rw [hs, ht] at hmade hparents
        obtain rfl : made' = made := hmade
        cases made' with
        | false => exact ⟨rfl, hparents⟩
        | true =>
          dsimp only
          rcases hparents.write? hlocation contents with ⟨hs', ht'⟩ | ⟨s₂, t₂, hs', ht', hwritten⟩
          · rw [hs', ht']
            exact ⟨rfl, hparents⟩
          · rw [hs', ht']
            exact ⟨rfl, hwritten⟩

end System
end PipelineManager
