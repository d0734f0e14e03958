import PipelineManager.Descriptor.Form
import PipelineManager.Proofs.Schema.Findings
import PipelineManager.Proofs.Schema.Spelling

/-!
# Which violations share a path

A plain rule finds at most one violation at a position. The paths that are shown are the texts of
these positions, and an undeclared key may hold the marks that set fields and items off. So two
violations share a path when a key spells the way to another violation, or when one key is empty and
another one is spelled like the root. In all other documents the paths are distinct.
-/

namespace PipelineManager.Schema

/-! ## Plain rules -/

mutual
/-- Whether all field names in a rule are plain and distinct and no text has two constraints. -/
def Rule.isPlain : Rule → Bool
  | .mk kind _ allowed pattern => (allowed.isEmpty || pattern.isNone) && kind.isPlain

/-- Whether what is inside a kind is plain. -/
def Kind.isPlain : Kind → Bool
  | .dict fields => decide (fields.map (·.1)).Nodup && areFieldsPlain fields
  | .list (some item) => item.isPlain
  | _ => true

/-- Whether the names and the rules of fields are plain. -/
def areFieldsPlain : List (String × Rule) → Bool
  | [] => true
  | (name, rule) :: fields => isPlainName name && rule.isPlain && areFieldsPlain fields
end

/-- Plain fields have plain names and plain rules. -/
theorem of_areFieldsPlain {fields : List (String × Rule)} (h : areFieldsPlain fields = true) :
    ∀ f ∈ fields, isPlainName f.1 = true ∧ f.2.isPlain = true := by
  induction fields with
  | nil => exact List.forall_mem_nil _
  | cons f fields ih =>
    simp only [areFieldsPlain, Bool.and_eq_true] at h
    exact List.forall_mem_cons.mpr ⟨h.1, ih h.2⟩

variable {rule : Rule} {value : Value} {f g : Finding}

/-- A plain rule does not have both texts that are allowed and a pattern. -/
theorem constraints_of_isPlain (h : rule.isPlain = true) :
    rule.allowedTexts = [] ∨ rule.pattern? = none := by
  cases rule
  simp only [Rule.isPlain, Bool.and_eq_true, Bool.or_eq_true, List.isEmpty_iff,
    Option.isNone_iff_eq_none] at h
  exact h.1

/-- The kind of a plain rule is plain. -/
theorem kind_isPlain (h : rule.isPlain = true) : rule.kind.isPlain = true := by
  cases rule
  simp only [Rule.isPlain, Bool.and_eq_true] at h
  exact h.2

/-- The rule for the items of a plain rule is plain. -/
theorem item_isPlain {item : Rule} (h : rule.isPlain = true)
    (hkind : rule.kind = .list (some item)) :
    item.isPlain = true := by
  have hplain := kind_isPlain h
  rwa [hkind, Kind.isPlain] at hplain

section Fields

variable {fields : List (String × Rule)} {place place' : Nat} {name : String} {inner inner' : Rule}

/-- The fields of a plain rule have plain names and plain rules. -/
theorem field_isPlain (h : rule.isPlain = true) (hkind : rule.kind = .dict fields)
    (hfield : fields[place]? = some (name, inner)) :
    isPlainName name = true ∧ inner.isPlain = true := by
  have hplain := kind_isPlain h
  simp only [hkind, Kind.isPlain, Bool.and_eq_true] at hplain
  exact of_areFieldsPlain hplain.2 (name, inner) (List.mem_of_getElem? hfield)

/-- A field of a plain rule is found by its name. -/
theorem place_unique (h : rule.isPlain = true) (hkind : rule.kind = .dict fields)
    (hfield : fields[place]? = some (name, inner))
    (hfield' : fields[place']? = some (name, inner')) :
    place = place' := by
  have hplain := kind_isPlain h
  simp only [hkind, Kind.isPlain, Bool.and_eq_true, decide_eq_true_eq] at hplain
  have hname {place : Nat} {inner : Rule} (hfield : fields[place]? = some (name, inner)) :
      (fields.map (·.1))[place]? = some name := by simp [hfield]
  have hplace : place < (fields.map (·.1)).length := (List.getElem?_eq_some_iff.mp (hname hfield)).1
  exact (List.getElem?_inj hplace hplain.1).mp ((hname hfield).trans (hname hfield').symm)

end Fields

/-! ## Positions of findings -/

/-- All names on a walk through a plain rule are plain, and so is the rule that it leads to. -/
theorem Reaches.isPlain {walk : List Move} {r : Rule} {v : Value} (h : Reaches rule value walk r v)
    (hrule : rule.isPlain = true) :
    r.isPlain = true ∧ ∀ place name, Move.field place name ∈ walk → isPlainName name = true := by
  induction h with
  | here => exact ⟨hrule, fun _ _ h => absurd h List.not_mem_nil⟩
  | field hkind hfield _ _ ih =>
    obtain ⟨hname, hinner⟩ := field_isPlain hrule hkind hfield
    obtain ⟨hr, hwalk⟩ := ih hinner
    refine ⟨hr, fun place name h => ?_⟩
    rcases List.mem_cons.mp h with heq | h
    · cases heq
      exact hname
    · exact hwalk place name h
  | item hkind _ _ ih =>
    obtain ⟨hr, hwalk⟩ := ih (item_isPlain hrule hkind)
    exact ⟨hr, fun place name h => hwalk place name ((List.mem_cons.mp h).resolve_left nofun)⟩

/-- Fields with the same marks are the same. -/
theorem field_marks_inj {name name' : String} (h : marks [.field name] = marks [.field name']) :
    name = name' := by
  simpa [Step.mark, String.toList_inj] using h

/-- Different breaches of a node have different marks. -/
theorem breach_eq_of_marks_eq {b b' : Breach} (hrule : rule.isPlain = true)
    (h : Breaks rule value b) (h' : Breaks rule value b')
    (hmarks : marks b.violation.position = marks b'.violation.position) : b = b' := by
  cases h with
  | null =>
    cases h' with
    | null => rfl
    | wrongType hnull => exact absurd rfl hnull
  | wrongType hnull htype =>
    cases h' with
    | null => exact absurd rfl hnull
    | wrongType => rfl
    | notAllowed htype' | mismatch htype' => exact absurd (htype'.symm.trans htype) Bool.noConfusion
    | missing hkind | unknown hkind => simp [hkind, Kind.type, FieldType.admits] at htype
  | notAllowed htype hsome hnot =>
    cases h' with
    | wrongType _ htype' => exact absurd (htype.symm.trans htype') Bool.noConfusion
    | notAllowed => rfl
    | mismatch _ hpattern =>
      rcases constraints_of_isPlain hrule with hnone | hnone
      · exact absurd hnone hsome
      · exact absurd (hpattern.symm.trans hnone) (Option.some_ne_none _)
  | mismatch htype hpattern hnot =>
    cases h' with
    | wrongType _ htype' => exact absurd (htype.symm.trans htype') Bool.noConfusion
    | notAllowed _ hsome =>
      rcases constraints_of_isPlain hrule with hnone | hnone
      · exact absurd hnone hsome
      · exact absurd (hpattern.symm.trans hnone) (Option.some_ne_none _)
    | mismatch _ hpattern' =>
      obtain rfl := Option.some.inj (hpattern.symm.trans hpattern')
      rfl
  | missing hkind hfield _ habsent =>
    cases h' with
    | wrongType _ htype => simp [hkind, Kind.type, FieldType.admits] at htype
    | missing hkind' hfield' =>
      obtain rfl := Kind.dict.inj (hkind.symm.trans hkind')
      obtain rfl := field_marks_inj hmarks
      rw [place_unique hrule hkind hfield hfield']
    | unknown hkind' _ hnot =>
      obtain rfl := Kind.dict.inj (hkind.symm.trans hkind')
      exact absurd (field_marks_inj hmarks) (hnot _ (List.mem_of_getElem? hfield))
  | unknown hkind _ hnot =>
    cases h' with
    | wrongType _ htype => simp [hkind, Kind.type, FieldType.admits] at htype
    | missing hkind' hfield' =>
      obtain rfl := Kind.dict.inj (hkind.symm.trans hkind')
      exact absurd (field_marks_inj hmarks).symm (hnot _ (List.mem_of_getElem? hfield'))
    | unknown => rw [field_marks_inj hmarks]

/-! ## Keys that spell a way -/

/-- Whether a violation is that of an undeclared key which spells the way from its dictionary to the
position of another violation. -/
def Violation.Mimics (v w : Violation) : Prop :=
  ∃ place key name rest,
    v = ⟨place ++ [.field key], .unknown⟩ ∧ w.position = place ++ .field name :: rest ∧
    rest ≠ [] ∧ key = rest.foldl Step.extend name

/-- Violations that mimic each other do so one step deeper. -/
theorem Violation.Mimics.under {v w : Violation} (h : v.Mimics w) (step : Step) :
    (v.under step).Mimics (w.under step) := by
  obtain ⟨place, key, name, rest, rfl, hw, hrest, hkey⟩ := h
  exact ⟨step :: place, key, name, rest, rfl, congrArg (step :: ·) hw, hrest, hkey⟩

/-- Violations that mimic each other are at different positions. -/
theorem Violation.Mimics.position_ne {v w : Violation} (h : v.Mimics w) :
    v.position ≠ w.position := by
  obtain ⟨place, key, name, rest, rfl, hw, hrest, -⟩ := h
  intro hsame
  rw [hw] at hsame
  exact hrest (List.cons.inj (List.append_cancel_left hsame)).2.symm

/-- A breach of a dictionary or a list that is entered has the marks of a violation inside it only
if its key spells the way to that. -/
theorem mimics_of_inside {b : Breach} {m : Move} {walk : List Move} {r : Rule} {v : Value}
    (b' : Breach) (hrule : rule.isPlain = true) (h : Breaks rule value b)
    (hreach : Reaches rule value (m :: walk) r v)
    (hmarks : marks (Finding.violation ⟨[], b⟩).position =
      marks (Finding.violation ⟨m :: walk, b'⟩).position) :
    (Finding.violation ⟨[], b⟩).Mimics (Finding.violation ⟨m :: walk, b'⟩) := by
  cases hreach with
  | @field _ _ _ _ _ place name _ _ walk hkind hfield hvalue hrest =>
    obtain ⟨hname, -⟩ := field_isPlain hrule hkind hfield
    let rest : Position := walk.map Move.step ++ b'.violation.position
    have hmarks : marks b.violation.position = '.' :: (name.toList ++ marks rest) := hmarks
    cases h with
    | wrongType _ htype => simp [hkind, Kind.type, FieldType.admits] at htype
    | @missing _ _ _ _ name' hkind' hfield' _ habsent =>
      obtain ⟨hname', -⟩ := field_isPlain hrule hkind' hfield'
      have hsame : name'.toList ++ marks [] = name.toList ++ marks rest := (List.cons.inj hmarks).2
      obtain ⟨rfl, -⟩ := plainName_append_inj hname' hname hsame
      exact absurd (hvalue.symm.trans habsent) (Option.some_ne_none _)
    | @unknown _ _ key hkind' _ hnot =>
      obtain rfl := Kind.dict.inj (hkind.symm.trans hkind')
      have hkey : key = rest.foldl Step.extend name := by
        refine String.toList_inj.mp ?_
        rw [toList_foldl_extend (ne_empty_of_isPlainName hname)]
        exact (List.append_nil _).symm.trans (List.cons.inj hmarks).2
      refine ⟨[], key, name, rest, rfl, rfl, fun hnil => ?_, hkey⟩
      rw [hnil] at hkey
      exact hnot _ (List.mem_of_getElem? hfield) hkey.symm
  | item hkind =>
    cases h with
    | wrongType _ htype => simp [hkind, Kind.type, FieldType.admits] at htype

/-- Two findings have the same marks only if one of them is of a key that spells the way to
the other. -/
theorem mimics_of_marks_eq (hrule : rule.isPlain = true) (hf : f.Holds rule value)
    (hg : g.Holds rule value) (hne : f ≠ g)
    (hmarks : marks f.violation.position = marks g.violation.position) :
    f.violation.Mimics g.violation ∨ g.violation.Mimics f.violation := by
  obtain ⟨fwalk, fbreach⟩ := f
  obtain ⟨gwalk, gbreach⟩ := g
  obtain ⟨r, v, hreach, hbreak⟩ := hf
  obtain ⟨r', v', hreach', hbreak'⟩ := hg
  dsimp only at hreach hbreak hreach' hbreak'
  induction hreach generalizing gwalk with
  | here =>
    cases hreach' with
    | here => exact absurd (by rw [breach_eq_of_marks_eq hrule hbreak hbreak' hmarks]) hne
    | field hkind hfield hvalue hrest =>
      exact Or.inl (mimics_of_inside gbreach hrule hbreak (.field hkind hfield hvalue hrest) hmarks)
    | item hkind hvalue hrest =>
      exact Or.inl (mimics_of_inside gbreach hrule hbreak (.item hkind hvalue hrest) hmarks)
  | @field rule inner r _ _ place name v w walk hkind hfield hvalue hrest ih =>
    cases hreach' with
    | here =>
      exact Or.inr
        (mimics_of_inside fbreach hrule hbreak' (.field hkind hfield hvalue hrest) hmarks.symm)
    | @field _ _ _ _ _ place' name' _ _ walk' hkind' hfield' hvalue' hrest' =>
      obtain rfl := Kind.dict.inj (hkind.symm.trans hkind')
      obtain ⟨hname, hinner⟩ := field_isPlain hrule hkind hfield
      obtain ⟨hname', -⟩ := field_isPlain hrule hkind hfield'
      obtain ⟨rfl, hmarks'⟩ := plainName_append_inj hname hname' (List.cons.inj hmarks).2
      obtain rfl := place_unique hrule hkind hfield hfield'
      obtain ⟨-, rfl⟩ := Prod.mk.inj (Option.some.inj (hfield.symm.trans hfield'))
      obtain rfl := Option.some.inj (hvalue.symm.trans hvalue')
      have hne' : (⟨walk, fbreach⟩ : Finding) ≠ ⟨walk', gbreach⟩ :=
        fun heq => hne (congrArg (Finding.under _) heq)
      exact (ih hinner walk' hne' hmarks' hbreak hrest').imp (·.under _) (·.under _)
  | @item rule inner r _ index v w walk hkind hvalue hrest ih =>
    cases hreach' with
    | here =>
      exact Or.inr (mimics_of_inside fbreach hrule hbreak' (.item hkind hvalue hrest) hmarks.symm)
    | @item _ _ _ _ index' _ _ walk' hkind' hvalue' hrest' =>
      obtain rfl := Option.some.inj (Kind.list.inj (hkind.symm.trans hkind'))
      obtain ⟨rfl, hmarks'⟩ := item_mark_append_inj hmarks
      obtain rfl := Option.some.inj (hvalue.symm.trans hvalue')
      have hne' : (⟨walk, fbreach⟩ : Finding) ≠ ⟨walk', gbreach⟩ :=
        fun heq => hne (congrArg (Finding.under _) heq)
      exact (ih (item_isPlain hrule hkind) walk' hne' hmarks' hbreak hrest').imp (·.under _)
        (·.under _)

/-! ## Texts of positions -/

/-- Either all positions of findings begin with a field, whose name is plain if it is
declared, or none. -/
theorem position_start (hrule : rule.isPlain = true) (value : Value) :
    (∀ f : Finding, f.Holds rule value → ∃ name rest, f.violation.position = .field name :: rest ∧
      (isPlainName name = true ∨ f.violation = ⟨[.field name], .unknown⟩)) ∨
    ∀ f : Finding, f.Holds rule value →
      f.violation.position = [] ∨ ∃ index rest, f.violation.position = .item index :: rest := by
  by_cases hdict : ∃ fields entries, rule.kind = .dict fields ∧ value = .dict entries
  · refine Or.inl fun f hf => ?_
    obtain ⟨fields, entries, hkind, rfl⟩ := hdict
    obtain ⟨walk, breach⟩ := f
    obtain ⟨r, v, hreach, hbreak⟩ := hf
    cases hreach with
    | here =>
      cases hbreak with
      | wrongType _ htype => simp [hkind, Kind.type, FieldType.admits] at htype
      | missing hkind' hfield => exact ⟨_, [], rfl, Or.inl (field_isPlain hrule hkind' hfield).1⟩
      | unknown => exact ⟨_, [], rfl, Or.inr rfl⟩
    | field hkind' hfield => exact ⟨_, _, rfl, Or.inl (field_isPlain hrule hkind' hfield).1⟩
  · refine Or.inr fun f hf => ?_
    obtain ⟨walk, breach⟩ := f
    obtain ⟨r, v, hreach, hbreak⟩ := hf
    cases hreach with
    | here =>
      cases hbreak with
      | null | wrongType | notAllowed | mismatch => exact Or.inl rfl
      | missing hkind | unknown hkind => exact absurd ⟨_, _, hkind, rfl⟩ hdict
    | field hkind => exact absurd ⟨_, _, hkind, rfl⟩ hdict
    | item => exact Or.inr ⟨_, _, rfl⟩

/-- In one document the marks of all findings differ from their spellings by the same lead. -/
theorem exists_lead (hrule : rule.isPlain = true) (value : Value) :
    ∃ lead, ∀ f : Finding, f.Holds rule value →
      marks f.violation.position = lead ++ f.violation.position.spelling.toList := by
  rcases position_start hrule value with hfields | hothers
  · refine ⟨['.'], fun f hf => ?_⟩
    obtain ⟨name, rest, hposition, hname⟩ := hfields f hf
    rw [hposition]
    refine marks_eq_of_field (hname.imp ne_empty_of_isPlainName fun hviolation => ?_)
    rw [hviolation] at hposition
    exact (List.cons.inj hposition).2.symm
  · refine ⟨[], fun f hf => ?_⟩
    rcases hothers f hf with hposition | ⟨index, rest, hposition⟩
    · rw [hposition]
      rfl
    · rw [hposition]
      exact marks_eq_of_item index rest

/-- What a plain name spells with the steps behind it begins with a plain character. -/
theorem exists_plainChar_spelling {name : String} (hname : isPlainName name = true)
    (rest : Position) :
    ∃ c cs, (Position.spelling (.field name :: rest)).toList = c :: cs ∧ isPlainChar c = true := by
  have hspelling : (Position.spelling (.field name :: rest)).toList = name.toList ++ marks rest :=
    toList_foldl_extend (ne_empty_of_isPlainName hname) rest
  have hne := ne_empty_of_isPlainName hname
  cases hchars : name.toList with
  | nil => exact absurd (String.toList_eq_nil_iff.mp hchars) hne
  | cons c cs =>
    rw [hchars] at hspelling
    have hall := List.all_eq_true.mp (Bool.and_eq_true_iff.mp hname).2
    exact ⟨c, _, hspelling, hall c (hchars ▸ List.mem_cons_self)⟩

/-- A finding without a spelling and one that is spelled like the root are those of
undeclared keys. -/
theorem eq_of_spells_root (hrule : rule.isPlain = true) (hf : f.Holds rule value)
    (hg : g.Holds rule value) (hempty : f.violation.position.spelling = "")
    (hroot : g.violation.position.spelling = "<root>") :
    f.violation = ⟨[.field ""], .unknown⟩ ∧ g.violation = ⟨[.field "<root>"], .unknown⟩ := by
  have hundeclared {f : Finding} {name : String} {rest : Position} {s : String}
      (hposition : f.violation.position = .field name :: rest)
      (hname : isPlainName name = true ∨ f.violation = ⟨[.field name], .unknown⟩)
      (hs : f.violation.position.spelling = s)
      (hplain : ∀ c ∈ s.toList.head?, isPlainChar c = false) :
      f.violation = ⟨[.field s], .unknown⟩ := by
    rcases hname with hname | hviolation
    · obtain ⟨c, cs, hspelling, hc⟩ := exists_plainChar_spelling hname rest
      rw [← hposition, hs] at hspelling
      exact absurd hc (by simp [hplain c (by simp [hspelling])])
    · rw [hviolation] at hs
      exact hs ▸ hviolation
  rcases position_start hrule value with hfields | hothers
  · obtain ⟨name, rest, hposition, hname⟩ := hfields f hf
    obtain ⟨name', rest', hposition', hname'⟩ := hfields g hg
    exact ⟨hundeclared hposition hname hempty (by simp),
      hundeclared hposition' hname' hroot (by simp [isPlainChar])⟩
  · rcases hothers g hg with hposition | ⟨index, rest, hposition⟩
    · rw [hposition] at hroot
      exact absurd hroot (by decide)
    · have hmarks := marks_eq_of_item index rest
      rw [← hposition, hroot, hposition] at hmarks
      exact absurd (List.cons.inj hmarks).1 (by decide)

/-- Whether the violation of an undeclared key has the path of another violation: the key
spells the way to that, or it is empty, so that the root is shown, and the other one is that of
a key spelled so. -/
def Violation.Shadows (v w : Violation) : Prop :=
  v.Mimics w ∨ v = ⟨[.field ""], .unknown⟩ ∧ w = ⟨[.field "<root>"], .unknown⟩

/-- Two findings have the same text only if one of them is of a key that has the path of
the other. -/
theorem shadows_of_text_eq (hrule : rule.isPlain = true) (hf : f.Holds rule value)
    (hg : g.Holds rule value) (hne : f ≠ g)
    (htext : f.violation.position.text = g.violation.position.text) :
    f.violation.Shadows g.violation ∨ g.violation.Shadows f.violation := by
  have hsame (hspelling : f.violation.position.spelling = g.violation.position.spelling) :
      f.violation.Shadows g.violation ∨ g.violation.Shadows f.violation := by
    obtain ⟨lead, hlead⟩ := exists_lead hrule value
    have hmarks : marks f.violation.position = marks g.violation.position := by
      rw [hlead f hf, hlead g hg, hspelling]
    exact (mimics_of_marks_eq hrule hf hg hne hmarks).imp Or.inl Or.inl
  rw [Position.text_eq, Position.text_eq] at htext
  split at htext
  · next hempty =>
    split at htext
    · next hempty' => exact hsame (hempty.trans hempty'.symm)
    · exact Or.inl (Or.inr (eq_of_spells_root hrule hf hg hempty htext.symm))
  · split at htext
    · next hempty' => exact Or.inr (Or.inr (eq_of_spells_root hrule hg hf hempty' htext))
    · exact hsame htext

/-- A breach lies at most one step deep. -/
theorem length_position_le (b : Breach) : b.violation.position.length ≤ 1 := by
  cases b <;> simp [Breach.violation, Violation.here]

/-- The names on the way to a finding are plain, all but the last. -/
theorem isPlainName_of_position (hrule : rule.isPlain = true) (hg : g.Holds rule value)
    {place rest : Position} {name : String}
    (hposition : g.violation.position = place ++ .field name :: rest) (hrest : rest ≠ []) :
    isPlainName name = true := by
  obtain ⟨r, v, hreach, -⟩ := hg
  have hshort := length_position_le g.breach
  have hlong : 0 < rest.length := List.length_pos_iff.mpr hrest
  have hstep : .field name ∈ g.walk.map Move.step := by
    rcases List.append_eq_append_iff.mp hposition with
      ⟨between, -, hbreach⟩ | ⟨between, hwalk, hbetween⟩
    · rw [hbreach] at hshort
      simp only [List.length_append, List.length_cons] at hshort
      omega
    · cases between with
      | nil =>
        rw [List.nil_append] at hbetween
        rw [← hbetween, List.length_cons] at hshort
        omega
      | cons step between =>
        rw [hwalk, (List.cons.inj hbetween).1]
        exact List.mem_append_right _ List.mem_cons_self
  obtain ⟨m, hm, hfield⟩ := List.mem_map.mp hstep
  cases m with
  | field place name' =>
    obtain rfl := Step.field.inj hfield
    exact (hreach.isPlain hrule).2 place name' hm
  | item index => cases hfield

/-- The violation of a key that has the path of another one is another violation of the
same text. -/
theorem text_eq_of_shadows (hrule : rule.isPlain = true) (hg : g.Holds rule value)
    (h : f.violation.Shadows g.violation) :
    f ≠ g ∧ f.violation.position.text = g.violation.position.text := by
  rcases h with hmimics | ⟨hf, hg⟩
  · constructor
    · rintro rfl
      exact hmimics.position_ne rfl
    · obtain ⟨place, key, name, rest, hf, hposition, hrest, hkey⟩ := hmimics
      have hname := ne_empty_of_isPlainName (isPlainName_of_position hrule hg hposition hrest)
      have hspelling : f.violation.position.spelling = g.violation.position.spelling := by
        rw [hf, hposition, Position.spelling, Position.spelling, List.foldl_append,
          List.foldl_append, List.foldl_cons,
          List.foldl_cons, List.foldl_nil, foldl_extend_field hname, hkey]
      rw [Position.text_eq, Position.text_eq, hspelling]
  · constructor
    · rintro rfl
      exact absurd (hf.symm.trans hg) (by decide)
    · rw [hf, hg]
      decide

/-! ## The paths of all violations -/

/-- The rule for descriptors is plain. -/
theorem descriptorRule_isPlain : descriptorRule.isPlain = true := by decide +kernel

/-- A plain rule finds at most one violation at a position. The violations have distinct texts
exactly when none of them is of an undeclared key that has the path of another one. -/
theorem texts_nodup_iff (hrule : rule.isPlain = true) (hvalue : value.Canonical) :
    ((check rule value).map (·.position)).Nodup ∧
      (((check rule value).map (·.position.text)).Nodup ↔
        ∀ v ∈ check rule value, ∀ w ∈ check rule value, ¬ v.Shadows w) := by
  obtain ⟨found, hsorted, hmem, hcheck⟩ := reports_check rule hvalue
  rw [hcheck, List.map_map, List.map_map]
  constructor
  · refine (List.nodup_map_iff_inj_on hsorted.nodup).mpr fun f hf g hg hposition => ?_
    by_contra hne
    have hmarks := congrArg marks hposition
    rcases mimics_of_marks_eq hrule ((hmem f).mp hf) ((hmem g).mp hg) hne hmarks with h | h
    · exact h.position_ne hposition
    · exact h.position_ne hposition.symm
  · rw [List.nodup_map_iff_inj_on hsorted.nodup]
    constructor
    · intro hinjective v hv w hw hshadows
      obtain ⟨f, hf, rfl⟩ := List.mem_map.mp hv
      obtain ⟨g, hg, rfl⟩ := List.mem_map.mp hw
      obtain ⟨hne, htext⟩ := text_eq_of_shadows hrule ((hmem g).mp hg) hshadows
      exact hne (hinjective f hf g hg htext)
    · intro hnone f hf g hg htext
      by_contra hne
      have hf' := List.mem_map_of_mem (f := Finding.violation) hf
      have hg' := List.mem_map_of_mem (f := Finding.violation) hg
      rcases shadows_of_text_eq hrule ((hmem f).mp hf) ((hmem g).mp hg) hne htext with h | h
      · exact hnone _ hf' _ hg' h
      · exact hnone _ hg' _ hf' h

/-- A key that has the path of another violation is empty or holds a mark. -/
theorem exists_marked_key {v : Violation} (hrule : rule.isPlain = true) (hg : g.Holds rule value)
    (h : v.Shadows g.violation) :
    ∃ place key,
      v = ⟨place ++ [.field key], .unknown⟩ ∧ (key = "" ∨ '.' ∈ key.toList ∨ '[' ∈ key.toList) := by
  rcases h with ⟨place, key, name, rest, rfl, hposition, hrest, hkey⟩ | ⟨rfl, -⟩
  · refine ⟨place, key, rfl, Or.inr ?_⟩
    have hname := ne_empty_of_isPlainName (isPlainName_of_position hrule hg hposition hrest)
    rw [hkey, toList_foldl_extend hname]
    cases rest with
    | nil => exact absurd rfl hrest
    | cons step rest => cases step <;> simp [Step.mark]
  · exact ⟨[], "", rfl, Or.inl rfl⟩

/-- The violations of a document are at distinct positions. Their paths are distinct exactly when
none of them is of an undeclared key that has the path of another one, for which the key has to be
empty or to hold a point or a bracket. -/
theorem paths_nodup_iff {document : Value} (hdocument : document.Canonical) :
    ((checkDescriptor document).map (·.position)).Nodup ∧
    (((checkDescriptor document).map (·.position.text)).Nodup ↔
      ∀ v ∈ checkDescriptor document, ∀ w ∈ checkDescriptor document, ¬ v.Shadows w) ∧
    ((∀ place key, ⟨place ++ [.field key], .unknown⟩ ∈ checkDescriptor document →
        key ≠ "" ∧ '.' ∉ key.toList ∧ '[' ∉ key.toList) →
      ((checkDescriptor document).map (·.position.text)).Nodup) := by
  obtain ⟨hpositions, htexts⟩ := texts_nodup_iff descriptorRule_isPlain hdocument
  refine ⟨hpositions, htexts, fun hkeys => htexts.mpr fun v hv w hw hshadows => ?_⟩
  obtain ⟨found, -, hmem, hcheck⟩ := reports_check descriptorRule hdocument
  rw [hcheck] at hw
  obtain ⟨g, hg, rfl⟩ := List.mem_map.mp hw
  obtain ⟨place, key, rfl, hmarked⟩ :=
    exists_marked_key descriptorRule_isPlain ((hmem g).mp hg) hshadows
  obtain ⟨hempty, hpoint, hbracket⟩ := hkeys place key hv
  rcases hmarked with h | h | h
  · exact hempty h
  · exact hpoint h
  · exact hbracket h

/-! ## Documents with undeclared keys -/

/-- A document with an undeclared key that leads to itself from the root and one in
the section it names. -/
def dottedDocument : Value :=
  .dict [
    ("test_info", .dict [
      ("netapp_id", .str "app"), ("network_service_id", .str "net"), ("owner", .str "x"),
      ("testbed_id", .str "tb")]),
    ("test_info.owner", .str "y"),
    ("test_phases", .dict [
      ("execution", .list []),
      ("setup", .dict [("deployments", .list []), ("testcases", .list [])])])]

/-- A document with an empty key and one that is spelled like the root. -/
def rootDocument : Value :=
  .dict [
    ("", .str "x"),
    ("<root>", .str "y"),
    ("test_info",
      .dict [("netapp_id", .str "app"), ("network_service_id", .str "net"),
        ("testbed_id", .str "tb")]),
    ("test_phases", .dict [
      ("execution", .list []),
      ("setup", .dict [("deployments", .list []), ("testcases", .list [])])])]

/-- The keys of the dotted document are sorted. -/
theorem dottedDocument_canonical : dottedDocument.Canonical :=
  ⟨by decide, ⟨by decide, trivial, trivial, trivial, trivial, trivial⟩, trivial,
    ⟨by decide, trivial, ⟨by decide, trivial, trivial, trivial⟩, trivial⟩, trivial⟩

/-- The keys of the document with a field named for the root are sorted. -/
theorem rootDocument_canonical : rootDocument.Canonical :=
  ⟨by decide, trivial, trivial, ⟨by decide, trivial, trivial, trivial, trivial⟩,
    ⟨by decide, trivial, ⟨by decide, trivial, trivial, trivial⟩, trivial⟩, trivial⟩

/-- Two violations of the dotted document are shown under one path. -/
theorem paths_dottedDocument :
    (checkDescriptor dottedDocument).map (·.position.text) =
      ["test_info.owner", "test_info.owner"] := by decide +kernel

/-- Two violations of the document with a field named for the root are shown under one path. -/
theorem paths_rootDocument :
    (checkDescriptor rootDocument).map (·.position.text) = ["<root>", "<root>"] := by
  decide +kernel

/-- Two violations can share a path: one key spells the way to the other, or both are shown
as the root. -/
theorem paths_shared :
    (¬ ∀ document : Value,
      document.Canonical → ((checkDescriptor document).map (·.position.text)).Nodup) ∧
      (dottedDocument.Canonical ∧
        (checkDescriptor dottedDocument).map (·.position.text) =
          ["test_info.owner", "test_info.owner"]) ∧
      rootDocument.Canonical ∧
      (checkDescriptor rootDocument).map (·.position.text) = ["<root>", "<root>"] := by
  refine ⟨fun h => ?_, ⟨dottedDocument_canonical, paths_dottedDocument⟩, rootDocument_canonical,
    paths_rootDocument⟩
  have hnodup := h dottedDocument dottedDocument_canonical
  rw [paths_dottedDocument] at hnodup
  simp at hnodup

/-- A document with undeclared keys of one name in two places, and without a required section. -/
def strayDocument : Value :=
  .dict [("owner", .null), ("test_info", .dict [("owner", .str "x"), ("testbed_id", .str "tb")])]

/-- A document with stray keys at two levels has a path for each violation. -/
theorem paths_nodup_iff_stray :
    strayDocument.Canonical ∧ ((checkDescriptor strayDocument).map (·.position.text)).Nodup ∧
      (checkDescriptor strayDocument).map (·.position.text) =
        ["test_info.netapp_id", "test_info.network_service_id", "test_info.owner", "test_phases",
          "owner"] := by
  have hcanonical : strayDocument.Canonical :=
    ⟨by decide, trivial, ⟨by decide, trivial, trivial, trivial⟩, trivial⟩
  have hcheck : checkDescriptor strayDocument = [
      ⟨[.field "test_info", .field "netapp_id"], .missing⟩,
      ⟨[.field "test_info", .field "network_service_id"], .missing⟩,
      ⟨[.field "test_info", .field "owner"], .unknown⟩,
      ⟨[.field "test_phases"], .missing⟩,
      ⟨[.field "owner"], .unknown⟩] := by decide +kernel
  have hlast : ∀ v ∈ checkDescriptor strayDocument, v.fault = .unknown →
      v.position.getLast? = some (.field "owner") := by
    rw [hcheck]
    decide
  refine ⟨hcanonical,
    (paths_nodup_iff hcanonical).2.2 fun place key hkey => ?_, by rw [hcheck]; decide⟩
  have howner := hlast _ hkey rfl
  rw [List.getLast?_concat] at howner
  obtain rfl : key = "owner" := Step.field.inj (Option.some.inj howner)
  decide

end PipelineManager.Schema
