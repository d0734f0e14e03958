import PipelineManager.Proofs.Warehouse.Upload

/-!
# Paths below the root

A path of the warehouse is taken unless it is empty, absolute or has a part of two dots. What it is
taken to lies at or below the root when both are normalised: each part of the path then leads
further down, and none leads back.
-/

namespace PipelineManager

/-! ## Parts of a path -/

/-- Whether a name stands in a path between its slashes. -/
def IsPart (name path : String) : Prop :=
  '/' ∉ name.toList ∧ ∃ front back, path.toList = front ++ name.toList ++ back ∧
    (front = [] ∨ front.getLast? = some '/') ∧ (back = [] ∨ back.head? = some '/')

namespace Text

variable {separator : Char} {p cs : List Char}

/-- What stands between separators or ends of a text is a part of it. -/
theorem mem_parts_of_between {front back : List Char} (hp : separator ∉ p)
    (hfront : front = [] ∨ front.getLast? = some separator)
    (hback : back = [] ∨ back.head? = some separator) :
    p ∈ parts separator (front ++ p ++ back) := by
  have hrest : p ∈ parts separator (p ++ back) := by
    rcases hback with rfl | hback
    · simp [parts_of_notMem hp]
    · obtain ⟨back, rfl⟩ := List.head?_eq_some_iff.mp hback
      simp [parts_append_separator, parts_of_notMem hp]
  rcases hfront with rfl | hfront
  · exact hrest
  · obtain ⟨front, rfl⟩ := List.getLast?_eq_some_iff.mp hfront
    have hsplit : front ++ [separator] ++ p ++ back = front ++ separator :: (p ++ back) := by simp
    rw [hsplit, parts_append_separator]
    exact List.mem_append_right _ hrest

/-- The induction is on the separators: before the first there is one part, and the others are those
of what follows. -/
theorem between_of_mem_parts (h : p ∈ parts separator cs) :
    separator ∉ p ∧ ∃ front back, cs = front ++ p ++ back ∧
      (front = [] ∨ front.getLast? = some separator) ∧
      (back = [] ∨ back.head? = some separator) := by
  induction hlength : cs.length using Nat.strongRecOn generalizing cs with
  | _ n ih =>
    by_cases hseparator : separator ∈ cs
    · obtain ⟨first, rest, rfl, hfirst⟩ := List.eq_append_cons_of_mem hseparator
      rw [parts_append_separator, parts_of_notMem hfirst, List.singleton_append] at h
      rcases List.mem_cons.mp h with rfl | h
      · exact ⟨hfirst, [], separator :: rest, by simp⟩
      · obtain ⟨hp, front, back, rfl, hfront, hback⟩ :=
          ih rest.length (by simp [← hlength]; omega) h rfl
        refine ⟨hp, first ++ separator :: front, back, by simp, .inr ?_, hback⟩
        rcases hfront with rfl | hfront
        · simp
        · simp [List.getLast?_append, List.getLast?_cons, hfront]
    · rw [parts_of_notMem hseparator, List.mem_singleton] at h
      subst h
      exact ⟨hseparator, [], [], by simp⟩

end Text

/-- Every path has a name, if only the empty one. -/
theorem namesOf_ne_nil (path : String) : namesOf path ≠ [] := by
  simpa [namesOf] using Text.parts_ne_nil '/' path.toList

/-- The names of a path are its parts. -/
theorem mem_namesOf_iff {name path : String} : name ∈ namesOf path ↔ IsPart name path := by
  have hmem : name ∈ namesOf path ↔ name.toList ∈ Text.parts '/' path.toList := by
    rw [namesOf, List.mem_map]
    constructor
    · rintro ⟨p, hp, rfl⟩
      simpa using hp
    · exact fun hp => ⟨_, hp, by simp⟩
  rw [hmem]
  constructor
  · exact Text.between_of_mem_parts
  · rintro ⟨hname, front, back, hpath, hfront, hback⟩
    rw [hpath]
    exact Text.mem_parts_of_between hname hfront hback

/-- The names in a path that lead somewhere. -/
def wayOf (path : String) : List String := (namesOf path).filter (!isIdle ·)

/-- What a location is made of. -/
theorem Location.ofPath_eq_ok_iff {path : String} {location : Location} :
    Location.ofPath path = .ok location ↔
      (path ≠ "" ∧ path.toList.head? ≠ some '/' ∧ ¬ IsPart ".." path) ∧
        location = ⟨wayOf path, isIdle ((namesOf path).getLast?.getD "")⟩ := by
  rw [← mem_namesOf_iff, Location.ofPath]
  by_cases hempty : path = ""
  · simp [hempty]
  · rw [if_neg (by simpa using hempty)]
    by_cases habsolute : path.toList.head? = some '/'
    · simp [isAbsolute, habsolute]
    · by_cases hdots : ".." ∈ namesOf path
      · simp [hdots]
      · simp [isAbsolute, habsolute, hdots, hempty, wayOf, eq_comm]

/-- A path has a location iff it is relative, not empty and does not lead up. -/
theorem Location.exists_ofPath_iff {path : String} :
    (∃ location, Location.ofPath path = .ok location) ↔
      path ≠ "" ∧ path.toList.head? ≠ some '/' ∧ ¬ IsPart ".." path := by
  simp only [Location.ofPath_eq_ok_iff, exists_and_left, exists_eq, and_true]

/-! ## Normal forms -/

/-- Takes a name to the names before it: two dots take back the name before them. At the top of all
files there is nothing to take back, and elsewhere dots that have nothing to take back stay. -/
def lexicalStep (absolute : Bool) (taken : List String) (name : String) : List String :=
  if name ≠ ".." then taken ++ [name]
  else match taken.getLast? with
    | some last => if last = ".." then taken ++ [name] else taken.dropLast
    | none => if absolute then [] else [name]

/-- A path without the parts that lead nowhere and those that are taken back: whether it is
absolute, and its names. -/
def normalForm (path : String) : Bool × List String :=
  (isAbsolute path, (wayOf path).foldl (lexicalStep (isAbsolute path)) [])

/-- Names that do not lead up are taken as they are. -/
theorem foldl_lexicalStep {absolute : Bool} {names : List String} (hdots : ".." ∉ names)
    (taken : List String) :
    names.foldl (lexicalStep absolute) taken = taken ++ names := by
  induction names generalizing taken with
  | nil => simp
  | cons name rest ih =>
    obtain ⟨hname, hrest⟩ : ".." ≠ name ∧ ".." ∉ rest := by simpa using hdots
    rw [List.foldl_cons, ih hrest, lexicalStep, if_pos (Ne.symm hname), List.append_assoc,
      List.singleton_append]

namespace Warehouse

variable {w : Warehouse} {path : String}

/-- The path of the system is absolute iff the root is. -/
theorem isAbsolute_systemPath (hpath : isAbsolute path = false) :
    isAbsolute (w.systemPath path) = isAbsolute w.root := by
  unfold systemPath
  split
  · next hempty =>
    have hroot : w.root = "" := by simpa using hempty
    rw [hpath, hroot]
    rfl
  · next hempty =>
    obtain ⟨c, cs, hroot⟩ : ∃ c cs, w.root.toList = c :: cs :=
      List.exists_cons_of_ne_nil fun h => hempty (by simpa using String.toList_eq_nil_iff.mp h)
    split <;> simp [isAbsolute, hroot]

/-- The names in a path of the system are those in the root, but for an empty one at the end, and
those in the path. -/
theorem namesOf_systemPath (w : Warehouse) (path : String) :
    ∃ front, namesOf (w.systemPath path) = front ++ namesOf path ∧
      front.filter (!isIdle ·) = wayOf w.root := by
  unfold systemPath
  split
  · next hempty =>
    have hroot : w.root = "" := by simpa using hempty
    exact ⟨[], rfl, by rw [hroot]; decide⟩
  · split
    · next hlast =>
      obtain ⟨front, hfront⟩ := List.getLast?_eq_some_iff.mp hlast
      have hroot : w.root = String.ofList front ++ "/" ++ "" := by
        rw [← String.toList_inj, hfront]
        simp
      have hjoined : w.root ++ path = String.ofList front ++ "/" ++ path := by
        rw [hroot, String.append_empty]
      have hempty : namesOf "" = [""] := by decide
      refine ⟨namesOf (String.ofList front), by rw [hjoined, namesOf_append], ?_⟩
      rw [hroot, wayOf, namesOf_append, hempty]
      simp [isIdle]
    · exact ⟨namesOf w.root, namesOf_append _ _, rfl⟩

/-- The way of a path of the system begins with the way of the root. -/
theorem wayOf_systemPath (w : Warehouse) (path : String) :
    wayOf (w.systemPath path) = wayOf w.root ++ wayOf path := by
  obtain ⟨front, hnames, hway⟩ := w.namesOf_systemPath path
  rw [wayOf, hnames, List.filter_append, hway]
  rfl

/-- The normal form of what a path is taken to goes on where that of the root ends. -/
theorem normalForm_systemPath (w : Warehouse) {location : Location}
    (h : Location.ofPath path = .ok location) :
    normalForm (w.systemPath path) =
      ((normalForm w.root).1, (normalForm w.root).2 ++ wayOf path) := by
  obtain ⟨⟨-, habsolute, hdots⟩, -⟩ := Location.ofPath_eq_ok_iff.mp h
  have hrelative : isAbsolute path = false := by simpa [isAbsolute] using habsolute
  have hway : ".." ∉ wayOf path :=
    fun hmem => hdots (mem_namesOf_iff.mp (List.mem_filter.mp hmem).1)
  rw [normalForm, isAbsolute_systemPath hrelative, wayOf_systemPath, List.foldl_append,
    foldl_lexicalStep hway]
  rfl

end Warehouse
end PipelineManager
