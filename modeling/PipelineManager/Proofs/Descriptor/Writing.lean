import PipelineManager.Proofs.Descriptor.Parsing
import PipelineManager.Proofs.Document.Entries

/-!
# Writing a descriptor

What is read by a reader that agrees with a rule can be written again: the tree that is written
follows the rule, and the reader makes the same of it. `IsReadBack` says so of a single value, and
`WritesBack` of all that a reader gives. Each record is taken apart like in its reader.
-/

namespace PipelineManager

open Schema

/-- The tree that is written for a value follows the rule and is read as the value. -/
structure IsReadBack {α : Type} (rule : Rule) (read : Value → Option α) (write : α → Value)
    (x : α) : Prop where
  conforms : Conforms rule (write x)
  reads : read (write x) = some x

/-- Whatever a reader makes of what follows a rule is read back when it is written. -/
def WritesBack {α : Type} (rule : Rule) (read : Value → Option α) (write : α → Value) : Prop :=
  Agrees rule read fun x _ => IsReadBack rule read write x

namespace Schema

/-- A text that is allowed and matches follows a rule for texts. -/
theorem conforms_string {s : String} {required : Bool} {allowed : List String}
    {pattern : Option Pattern} (hallowed : allowed ≠ [] → s ∈ allowed)
    (hpattern : ∀ p, pattern = some p → p.accepts s.toList = true) :
    Conforms (.mk .string required allowed pattern) (.str s) := by
  refine ⟨nofun, rfl, fun s' hs => ?_, fun s' p hs => ?_, trivial⟩
  · obtain rfl := Value.str.inj hs
    exact hallowed
  · obtain rfl := Value.str.inj hs
    exact hpattern p

/-- A declared field of a tree is as its rule says. -/
structure FieldFollows (v : Value) (f : String × Rule) : Prop where
  required : f.2.isRequired = true → ∃ w, v.field? f.1 = some w
  conforms : ∀ w, v.field? f.1 = some w → Conforms f.2 w

/-- A field that is there is as declared when what it holds follows its rule. -/
theorem FieldFollows.of_some {v w : Value} {name : String} {rule : Rule}
    (hfield : v.field? name = some w) (h : Conforms rule w) : FieldFollows v (name, rule) where
  required := fun _ => ⟨w, hfield⟩
  conforms := fun u hu => by
    obtain rfl := Option.some.inj (hfield.symm.trans hu)
    exact h

/-- A field that need not be there is as declared when it is absent. -/
theorem FieldFollows.of_absent {v : Value} {name : String} {rule : Rule}
    (hfield : v.field? name = none) (hoptional : rule.isRequired = false) :
    FieldFollows v (name, rule) where
  required := fun hrequired => absurd hrequired (by simp [hoptional])
  conforms := fun _ hu => absurd (hfield.symm.trans hu) nofun

/-- A field that is written for an optional value is as declared when the value's tree follows its
rule. -/
theorem FieldFollows.of_map {α : Type} {v : Value} {name : String} {rule : Rule} {x : Option α}
    {write : α → Value} (hfield : v.field? name = x.map write) (hoptional : rule.isRequired = false)
    (h : ∀ y ∈ x, Conforms rule (write y)) : FieldFollows v (name, rule) where
  required := fun hrequired => absurd hrequired (by simp [hoptional])
  conforms := fun u hu => by
    obtain ⟨y, hy, rfl⟩ := Option.map_eq_some_iff.mp (hfield.symm.trans hu)
    exact h y hy

/-- A tree follows a rule for dictionaries when its fields are as declared and it has no others. -/
theorem conforms_dict {fields : List (String × Rule)} {v : Value}
    (hfields : ∀ f ∈ fields, FieldFollows v f) (honly : v.HasOnly (fields.map (·.1))) :
    Conforms (.dict fields) v := by
  obtain ⟨entries, rfl, honly⟩ := honly
  refine ⟨nofun, rfl, nofun, nofun, ?_, fun e he => ?_⟩
  · rw [fieldsConform_iff]
    exact fun f hf =>
      ⟨fun hrequired => Option.isSome_iff_exists.mpr ((hfields f hf).required hrequired),
      (hfields f hf).conforms⟩
  · obtain ⟨f, hf, hname⟩ := List.mem_map.mp (honly e he)
    exact ⟨f, hf, hname⟩

/-- Whether a node must be there makes no difference to what may stand in it. -/
theorem Conforms.of_required {rule : Rule} {v : Value} (h : Conforms rule v) :
    Conforms rule.required v := by
  obtain ⟨_, _, _, _⟩ := rule
  exact h

end Schema

/-! ## Fields -/

/-- An identifier that is read has 64 bits. -/
theorem Value.id?_signed {v : Value} {n : Int} (h : v.id? = some n) : Word.isSigned n = true := by
  cases v with
  | int m =>
    rw [Value.id?] at h
    split at h
    · next hsigned => exact Option.some.inj h ▸ hsigned
    · cases h
  | _ => cases h

/-- Texts are read back. -/
theorem text_back : WritesBack Rule.string Value.text? .str := fun v hv =>
  (text_agrees v hv).mono fun _ _ => ⟨conforms_string nofun nofun, rfl⟩

/-- Names of tests are read back. -/
theorem name_back :
    WritesBack (Rule.string.required.matching testName) Value.text? .str := fun v hv =>
  (name_agrees v hv).mono fun s hs => by
    refine ⟨conforms_string nofun fun p hp => ?_, rfl⟩
    obtain rfl := Option.some.inj hp
    exact hs.2

/-- The tree of a kind. -/
def TestKind.toValue (k : TestKind) : Value := .str k.name

/-- Kinds of tests are read back from their names. -/
theorem kind_back : WritesBack (Rule.string.required.allowing TestKind.names)
    (fun k => k.text?.bind TestKind.ofName?) TestKind.toValue := fun v hv =>
  (kind_agrees v hv).mono fun k _ => by
    cases k <;> exact ⟨conforms_string (fun _ => by decide) nofun, rfl⟩

/-- What may be anything is read back as it is. -/
theorem any_back : WritesBack Rule.any some id := fun v hv =>
  (any_agrees v hv).mono fun _ hw => ⟨hw ▸ hv, rfl⟩

/-- Identifiers are read back. -/
theorem id_back : WritesBack Rule.integer Value.id? .int := fun v hv => by
  have hread := id_agrees v hv
  refine ⟨hread.succeeds,
    fun n hn => ⟨(hread.sound n hn).1, ⟨nofun, rfl, nofun, nofun, trivial⟩, ?_⟩⟩
  rw [Value.id?, if_pos (Value.id?_signed hn)]

section Combinators

variable {α : Type} {rule : Rule} {read : Value → Option α} {write : α → Value}

/-- What is read back in an optional node is read back in one that must be there. -/
theorem IsReadBack.required {x : α} (h : IsReadBack rule read write x) :
    IsReadBack rule.required read write x :=
  ⟨h.conforms.of_required, h.reads⟩

/-- The tree of a list. -/
def listTree (write : α → Value) (xs : List α) : Value := .list (xs.map write)

/-- A list is read back when its members are. -/
theorem IsReadBack.list {xs : List α} (h : ∀ x ∈ xs, IsReadBack rule read write x) :
    IsReadBack (Rule.listOf rule) (Value.itemsBy? read) (listTree write) xs where
  conforms := by
    refine ⟨nofun, rfl, nofun, nofun, fun v hv => ?_⟩
    obtain ⟨x, hx, rfl⟩ := List.mem_map.mp hv
    exact (h x hx).conforms
  reads := Value.itemsBy?_map fun x hx => (h x hx).reads

/-- What holds of each item that is read holds of the items of a list. -/
theorem Value.forall_of_lists {P : α → Prop} {xs : List α} {v : Value}
    (h : v.Lists (fun x _ => P x) xs) :
    ∀ x ∈ xs, P x := by
  obtain ⟨items, -, hitems⟩ := h
  induction hitems with
  | nil => exact List.forall_mem_nil _
  | cons hx _ ih => exact List.forall_mem_cons.mpr ⟨hx, ih⟩

namespace WritesBack

/-- A reader for an optional node writes back for one that must be there. -/
theorem required (h : WritesBack rule read write) :
    WritesBack rule.required read write := fun v hv =>
  (Agrees.required h v hv).mono fun _ hx => hx.required

/-- A reader that writes back does so for each item of a list. -/
theorem list (h : WritesBack rule read write) :
    WritesBack (Rule.listOf rule) (Value.itemsBy? read) (listTree write) := fun v hv =>
  (Agrees.list h v hv).mono fun _ hxs => .list (Value.forall_of_lists hxs)

variable {fields : List (String × Rule)} {v : Value}

/-- A field that must be there is read as something that is read back. -/
theorem require (h : WritesBack rule read write) (name : String) (hv : Follows fields v)
    (hfield : (name, rule) ∈ fields) (hrequired : rule.isRequired = true) :
    ReadsWhen (FieldInRange v (name, rule)) (v.require name read) (IsReadBack rule read write) :=
  (Agrees.require h name hv hfield hrequired).mono fun _ ⟨_, _, hx⟩ => hx

/-- A field that may be absent is read as nothing, or as something that is read back. -/
theorem optional (h : WritesBack rule read write) (name : String) (hv : Follows fields v)
    (hfield : (name, rule) ∈ fields) :
    ReadsWhen (FieldInRange v (name, rule)) (v.optional? name read) fun x => ∀ y ∈ x,
      IsReadBack rule read write y :=
  (Agrees.optional h name hv hfield).mono fun x hx y hy => by
    obtain rfl : x = some y := hy
    generalize v.field? name = field at hx
    cases hx with
    | some h => exact h

/-- A list that may be absent. It is written in any case. -/
theorem itemsOrNone (h : WritesBack rule read write) (name : String) (hv : Follows fields v)
    (hfield : (name, Rule.listOf rule) ∈ fields) :
    ReadsWhen (FieldInRange v (name, Rule.listOf rule)) (v.itemsOrNone? name read)
      (IsReadBack (Rule.listOf rule) (Value.itemsBy? read) (listTree write)) :=
  (Agrees.itemsOrNone (Agrees.list h) name hv hfield).mono fun xs hxs => by
    generalize v.field? name = field at hxs
    cases field with
    | none =>
      obtain rfl : xs = [] := hxs
      exact .list (List.forall_mem_nil _)
    | some w => exact .list (Value.forall_of_lists hxs)

/-- A list that is present. -/
theorem itemsOrNone_required (h : WritesBack rule read write) (name : String)
    (hv : Follows fields v) (hfield : (name, (Rule.listOf rule).required) ∈ fields) :
    ReadsWhen (FieldInRange v (name, (Rule.listOf rule).required)) (v.itemsOrNone? name read)
      (IsReadBack (Rule.listOf rule) (Value.itemsBy? read) (listTree write)) :=
  (Agrees.itemsOrNone_required (Agrees.required (Agrees.list h)) name hv hfield rfl).mono
      fun _ ⟨_, _, hxs⟩ =>
    .list (Value.forall_of_lists hxs)

end WritesBack

/-! ### Reading the fields of a written record -/

variable {x : α} {v : Value} {name : String}

/-- A field that was written for a value is read as the value. -/
theorem Value.require_of_isReadBack (hfield : v.field? name = some (write x))
    (h : IsReadBack rule read write x) :
    v.require name read = some x := by
  rw [Value.require, hfield, Option.bind_some, h.reads]

/-- A field that was written for an optional value is read as that. -/
theorem Value.optional?_of_isReadBack {x : Option α} (hfield : v.field? name = x.map write)
    (h : ∀ y ∈ x, IsReadBack rule read write y) : v.optional? name read = some x := by
  cases x with
  | none => rw [Value.optional?, hfield, Option.map_none]
  | some y =>
    have hy := h y rfl
    have hne := hy.conforms.ne_null
    rw [Value.optional?, hfield, Option.map_some]
    split
    · next hnone => cases hnone
    · next hnull => exact absurd (Option.some.inj hnull) hne
    · next hsome =>
      obtain rfl := Option.some.inj hsome
      rw [hy.reads, Option.map_some]

/-- A field that was written for a list is read as the list. -/
theorem Value.itemsOrNone?_of_isReadBack {xs : List α}
    (hfield : v.field? name = some (listTree write xs))
    (h : IsReadBack rule (Value.itemsBy? read) (listTree write) xs) :
    v.itemsOrNone? name read = some xs := by
  rw [Value.itemsOrNone?, hfield]
  exact h.reads

end Combinators

/-! ## Records -/

/-- A dictionary with no key but the given ones, and with its keys in order. -/
structure Value.IsRecord (names : List String) (v : Value) : Prop where
  only : v.HasOnly names
  ordered : ∃ entries, v = .dict entries ∧ (entries.map (·.1)).Pairwise (· < ·)

/-- A dictionary with the given keys, in their order and all of them known, is a record. -/
theorem Value.isRecord_of_keys {names : List String} {entries : List (String × Value)}
    (keys : List String) (hkeys : entries.map (·.1) = keys) (honly : ∀ key ∈ keys, key ∈ names)
    (hordered : keys.Pairwise (· < ·)) :
    (Value.dict entries).IsRecord names := by
  subst hkeys
  exact ⟨⟨entries, rfl, fun e he => honly e.1 (List.mem_map_of_mem he)⟩, entries, rfl, hordered⟩

/-- The fields of the tree of a parameter. -/
theorem Parameter.field?_toValue (p : Parameter) :
    p.toValue.field? "key" = some (.str p.key) ∧ p.toValue.field? "value" = some (id p.value) :=
  ⟨rfl, rfl⟩

/-- The tree of a parameter has no fields but its own. -/
theorem Parameter.isRecord_toValue (p : Parameter) : p.toValue.IsRecord ["key", "value"] :=
  Value.isRecord_of_keys ["key", "value"] rfl (by decide) (by decide)

/-- Parameters are read back. -/
theorem Parameter.back :
    WritesBack (.dict [("key", Rule.string.required), ("value", Rule.any.required)])
    Parameter.ofValue? Parameter.toValue := by
  refine Agrees.record fun v hv => ?_
  have hkey := text_back.required.require "key" hv (by simp) rfl
  have hvalue := any_back.required.require "value" hv (by simp) rfl
  refine ReadsWhen.congr
    (hkey.bind fun key hkey => hvalue.bind fun value hvalue => .of_some trivial ?_) ?_
  · let p : Parameter := { key, value }
    obtain ⟨fkey, fvalue⟩ := p.field?_toValue
    refine ⟨conforms_dict ?_ p.isRecord_toValue.only, ?_⟩
    · simp only [List.forall_mem_cons]
      exact ⟨.of_some fkey hkey.conforms, .of_some fvalue hvalue.conforms, List.forall_mem_nil _⟩
    · rw [Parameter.ofValue?, Value.require_of_isReadBack fkey hkey,
        Value.require_of_isReadBack fvalue hvalue]
      rfl
  · simp

/-- The fields of the tree of a test. -/
theorem Testcase.field?_toValue (t : Testcase) :
    t.toValue.field? "testcase_id" = some (.int t.id) ∧
      t.toValue.field? "name" = some (.str t.name) ∧
      t.toValue.field? "type" = some t.kind.toValue ∧
      t.toValue.field? "scope" = some (.str t.scope) ∧
      t.toValue.field? "description" = t.description.map .str ∧
      t.toValue.field? "parameters" = some (listTree Parameter.toValue t.parameters) := by
  cases hdescription : t.description <;>
    simp [Testcase.toValue, TestKind.toValue, hdescription, Value.textEntry, Value.field?,
      Value.lookup, listTree]

/-- The tree of a test has no fields but its own. -/
theorem Testcase.isRecord_toValue (t : Testcase) :
    t.toValue.IsRecord ["testcase_id", "name", "description", "type", "scope", "parameters"] := by
  obtain ⟨id, name, kind, scope, description, parameters⟩ := t
  cases description with
  | none =>
    exact Value.isRecord_of_keys ["name", "parameters", "scope", "testcase_id", "type"]
      rfl (by decide) (by decide)
  | some _ =>
    exact Value.isRecord_of_keys
      ["description", "name", "parameters", "scope", "testcase_id", "type"] rfl
      (by decide) (by decide)

/-- Tests are read back. -/
theorem Testcase.back : WritesBack (.dict [
      ("testcase_id", Rule.integer.required),
      ("name", Rule.string.required.matching testName),
      ("description", .string),
      ("type", Rule.string.required.allowing TestKind.names),
      ("scope", Rule.string.required),
      ("parameters", parametersRule)])
    Testcase.ofValue? Testcase.toValue := by
  refine Agrees.record fun v hv => ?_
  have hid := id_back.required.require "testcase_id" hv (by simp) rfl
  have hname := name_back.require "name" hv (by simp) rfl
  have hkind := kind_back.require "type" hv (by simp) rfl
  have hscope := text_back.required.require "scope" hv (by simp) rfl
  have hdescription := text_back.optional "description" hv (by simp)
  have hparameters := Parameter.back.itemsOrNone "parameters" hv (by simp [parametersRule])
  refine ReadsWhen.congr
      (hid.bind fun id hid => hname.bind fun name hname => hkind.bind fun kind hkind =>
    hscope.bind fun scope hscope => hdescription.bind fun description hdescription =>
    hparameters.bind fun parameters hparameters => .of_some trivial ?_) ?_
  · let t : Testcase := { id, name, kind, scope, description, parameters }
    obtain ⟨fid, fname, fkind, fscope, fdescription, fparameters⟩ := t.field?_toValue
    refine ⟨conforms_dict ?_ t.isRecord_toValue.only, ?_⟩
    · simp only [List.forall_mem_cons]
      exact ⟨.of_some fid hid.conforms, .of_some fname hname.conforms,
        .of_map fdescription rfl fun s hs => (hdescription s hs).conforms,
        .of_some fkind hkind.conforms,
        .of_some fscope hscope.conforms, .of_some fparameters hparameters.conforms,
        List.forall_mem_nil _⟩
    · rw [Testcase.ofValue?, Value.require_of_isReadBack fid hid,
        Value.require_of_isReadBack fname hname,
        Value.require_of_isReadBack fkind hkind, Value.require_of_isReadBack fscope hscope,
        Value.optional?_of_isReadBack fdescription hdescription,
        Value.itemsOrNone?_of_isReadBack fparameters hparameters]
      rfl
  · simp only [List.forall_mem_cons]
    tauto

/-- The fields of the tree of a deployment. -/
theorem Deployment.field?_toValue (d : Deployment) :
    d.toValue.field? "deployment_id" = some (.int d.deploymentId) ∧
      d.toValue.field? "name" = some (.str d.name) ∧
      d.toValue.field? "descriptor" = some (.str d.descriptor) ∧
      d.toValue.field? "id" = some (.str d.id) ∧
      d.toValue.field? "parameters" = some (listTree Parameter.toValue d.parameters) :=
  ⟨rfl, rfl, rfl, rfl, rfl⟩

/-- The tree of a deployment has no fields but its own. -/
theorem Deployment.isRecord_toValue (d : Deployment) :
    d.toValue.IsRecord ["deployment_id", "name", "descriptor", "id", "parameters"] :=
  Value.isRecord_of_keys ["deployment_id", "descriptor", "id", "name", "parameters"] rfl (by decide)
    (by decide)

/-- Deployments are read back. -/
theorem Deployment.back : WritesBack (.dict [
      ("deployment_id", Rule.integer.required),
      ("name", Rule.string.required),
      ("descriptor", Rule.string.required),
      ("id", Rule.string.required),
      ("parameters", parametersRule)])
    Deployment.ofValue? Deployment.toValue := by
  refine Agrees.record fun v hv => ?_
  have hdeploymentId := id_back.required.require "deployment_id" hv (by simp) rfl
  have hname := text_back.required.require "name" hv (by simp) rfl
  have hdescriptor := text_back.required.require "descriptor" hv (by simp) rfl
  have hid := text_back.required.require "id" hv (by simp) rfl
  have hparameters := Parameter.back.itemsOrNone "parameters" hv (by simp [parametersRule])
  refine ReadsWhen.congr
      (hdeploymentId.bind fun deploymentId hdeploymentId => hname.bind fun name hname =>
    hdescriptor.bind fun descriptor hdescriptor => hid.bind fun id hid =>
    hparameters.bind fun parameters hparameters => .of_some trivial ?_) ?_
  · let d : Deployment := { deploymentId, name, descriptor, id, parameters }
    obtain ⟨fdeploymentId, fname, fdescriptor, fid, fparameters⟩ := d.field?_toValue
    refine ⟨conforms_dict ?_ d.isRecord_toValue.only, ?_⟩
    · simp only [List.forall_mem_cons]
      exact ⟨.of_some fdeploymentId hdeploymentId.conforms, .of_some fname hname.conforms,
        .of_some fdescriptor hdescriptor.conforms, .of_some fid hid.conforms,
        .of_some fparameters hparameters.conforms, List.forall_mem_nil _⟩
    · rw [Deployment.ofValue?, Value.require_of_isReadBack fdeploymentId hdeploymentId,
        Value.require_of_isReadBack fname hname,
        Value.require_of_isReadBack fdescriptor hdescriptor,
        Value.require_of_isReadBack fid hid,
        Value.itemsOrNone?_of_isReadBack fparameters hparameters]
      rfl
  · simp [parametersRule]

/-- The fields of the tree of a metrics block. -/
theorem MetricsBlock.field?_toValue (m : MetricsBlock) :
    m.toValue.field? "metrics_collection_id" = some (.int m.id) ∧
      m.toValue.field? "description" = m.description.map .str ∧
      m.toValue.field? "parameters" = some (listTree Parameter.toValue m.parameters) := by
  cases hdescription : m.description <;>
    simp [MetricsBlock.toValue, hdescription, Value.textEntry, Value.field?, Value.lookup, listTree]

/-- The tree of a metrics block has no fields but its own. -/
theorem MetricsBlock.isRecord_toValue (m : MetricsBlock) :
    m.toValue.IsRecord ["metrics_collection_id", "description", "parameters"] := by
  obtain ⟨id, description, parameters⟩ := m
  cases description with
  | none =>
    exact Value.isRecord_of_keys ["metrics_collection_id", "parameters"] rfl (by decide) (by decide)
  | some _ =>
    exact Value.isRecord_of_keys ["description", "metrics_collection_id", "parameters"]
      rfl (by decide) (by decide)

/-- Metrics blocks are read back. -/
theorem MetricsBlock.back : WritesBack (.dict [
      ("metrics_collection_id", Rule.integer.required),
      ("description", .string),
      ("parameters", parametersRule.required)])
    MetricsBlock.ofValue? MetricsBlock.toValue := by
  refine Agrees.record fun v hv => ?_
  have hid := id_back.required.require "metrics_collection_id" hv (by simp) rfl
  have hdescription := text_back.optional "description" hv (by simp)
  have hparameters :=
    Parameter.back.list.required.require "parameters" hv (by simp [parametersRule]) rfl
  refine ReadsWhen.congr (hid.bind fun id hid => hdescription.bind fun description hdescription =>
    hparameters.bind fun parameters hparameters => .of_some trivial ?_) ?_
  · let m : MetricsBlock := { id, description, parameters }
    obtain ⟨fid, fdescription, fparameters⟩ := m.field?_toValue
    refine ⟨conforms_dict ?_ m.isRecord_toValue.only, ?_⟩
    · simp only [List.forall_mem_cons]
      exact ⟨.of_some fid hid.conforms,
        .of_map fdescription rfl fun s hs => (hdescription s hs).conforms,
        .of_some fparameters hparameters.conforms, List.forall_mem_nil _⟩
    · rw [MetricsBlock.ofValue?, Value.require_of_isReadBack fid hid,
        Value.optional?_of_isReadBack fdescription hdescription,
        Value.require_of_isReadBack fparameters hparameters]
      rfl
  · simp [parametersRule]

/-- The fields of the tree of an execution. -/
theorem Execution.field?_toValue (e : Execution) :
    e.toValue.field? "execution_id" = some (.int e.id) ∧ e.toValue.field? "name" = e.name.map .str ∧
      e.toValue.field? "testcase_ids" = some (listTree .int e.testcaseIds) := by
  cases hname : e.name <;>
    simp [Execution.toValue, hname, Value.textEntry, Value.field?, Value.lookup, listTree]

/-- The tree of an execution has no fields but its own. -/
theorem Execution.isRecord_toValue (e : Execution) :
    e.toValue.IsRecord ["execution_id", "name", "testcase_ids"] := by
  obtain ⟨id, name, testcaseIds⟩ := e
  cases name with
  | none =>
    exact Value.isRecord_of_keys ["execution_id", "testcase_ids"] rfl (by decide) (by decide)
  | some _ =>
    exact Value.isRecord_of_keys ["execution_id", "name", "testcase_ids"] rfl (by decide)
      (by decide)

/-- Executions are read back. -/
theorem Execution.back : WritesBack (.dict [
      ("execution_id", Rule.integer.required),
      ("name", .string),
      ("testcase_ids", (Rule.listOf .integer).required)])
    Execution.ofValue? Execution.toValue := by
  refine Agrees.record fun v hv => ?_
  have hid := id_back.required.require "execution_id" hv (by simp) rfl
  have hname := text_back.optional "name" hv (by simp)
  have htestcaseIds := id_back.itemsOrNone_required "testcase_ids" hv (by simp)
  refine ReadsWhen.congr (hid.bind fun id hid => hname.bind fun name hname =>
    htestcaseIds.bind fun testcaseIds htestcaseIds => .of_some trivial ?_) ?_
  · let e : Execution := { id, name, testcaseIds }
    obtain ⟨fid, fname, ftestcaseIds⟩ := e.field?_toValue
    refine ⟨conforms_dict ?_ e.isRecord_toValue.only, ?_⟩
    · simp only [List.forall_mem_cons]
      exact ⟨.of_some fid hid.conforms, .of_map fname rfl fun s hs => (hname s hs).conforms,
        .of_some ftestcaseIds htestcaseIds.conforms.of_required, List.forall_mem_nil _⟩
    · rw [Execution.ofValue?, Value.require_of_isReadBack fid hid,
        Value.optional?_of_isReadBack fname hname,
        Value.itemsOrNone?_of_isReadBack ftestcaseIds htestcaseIds]
      rfl
  · simp

/-- The fields of the tree of a batch. -/
theorem Batch.field?_toValue (b : Batch) :
    b.toValue.field? "batch_id" = some (.int b.id) ∧
      b.toValue.field? "scope" = some (.str b.scope) ∧
      b.toValue.field? "executions" = some (listTree Execution.toValue b.executions) :=
  ⟨rfl, rfl, rfl⟩

/-- The tree of a batch has no fields but its own. -/
theorem Batch.isRecord_toValue (b : Batch) :
    b.toValue.IsRecord ["batch_id", "scope", "executions"] :=
  Value.isRecord_of_keys ["batch_id", "executions", "scope"] rfl (by decide) (by decide)

/-- Batches are read back. -/
theorem Batch.back : WritesBack (.dict [
      ("batch_id", Rule.integer.required),
      ("scope", Rule.string.required),
      ("executions", (Rule.listOf (.dict [
        ("execution_id", Rule.integer.required),
        ("name", .string),
        ("testcase_ids", (Rule.listOf .integer).required)])).required)])
    Batch.ofValue? Batch.toValue := by
  refine Agrees.record fun v hv => ?_
  have hid := id_back.required.require "batch_id" hv (by simp) rfl
  have hscope := text_back.required.require "scope" hv (by simp) rfl
  have hexecutions := Execution.back.list.required.require "executions" hv (by simp) rfl
  refine ReadsWhen.congr (hid.bind fun id hid => hscope.bind fun scope hscope =>
    hexecutions.bind fun executions hexecutions => .of_some trivial ?_) ?_
  · let b : Batch := { id, scope, executions }
    obtain ⟨fid, fscope, fexecutions⟩ := b.field?_toValue
    refine ⟨conforms_dict ?_ b.isRecord_toValue.only, ?_⟩
    · simp only [List.forall_mem_cons]
      exact ⟨.of_some fid hid.conforms, .of_some fscope hscope.conforms,
        .of_some fexecutions hexecutions.conforms, List.forall_mem_nil _⟩
    · rw [Batch.ofValue?, Value.require_of_isReadBack fid hid,
        Value.require_of_isReadBack fscope hscope,
        Value.require_of_isReadBack fexecutions hexecutions]
      rfl
  · simp

/-- The fields of the tree of the test information. -/
theorem TestInfo.field?_toValue (i : TestInfo) :
    i.toValue.field? "testbed_id" = some (.str i.testbedId) ∧
      i.toValue.field? "netapp_id" = some (.str i.netappId) ∧
      i.toValue.field? "network_service_id" = some (.str i.networkServiceId) ∧
      i.toValue.field? "description" = i.description.map .str := by
  cases hdescription : i.description <;>
    simp [TestInfo.toValue, hdescription, Value.textEntry, Value.field?, Value.lookup]

/-- The tree of the test information has no fields but its own. -/
theorem TestInfo.isRecord_toValue (i : TestInfo) :
    i.toValue.IsRecord ["netapp_id", "network_service_id", "testbed_id", "description"] := by
  obtain ⟨testbedId, netappId, networkServiceId, description⟩ := i
  cases description with
  | none =>
    exact Value.isRecord_of_keys ["netapp_id", "network_service_id", "testbed_id"] rfl (by decide)
      (by decide)
  | some _ =>
    exact Value.isRecord_of_keys ["description", "netapp_id", "network_service_id", "testbed_id"]
      rfl
      (by decide) (by decide)

/-- The test information is read back. -/
theorem TestInfo.back : WritesBack testInfoRule TestInfo.ofValue? TestInfo.toValue := by
  refine Agrees.record fun v hv => ?_
  have htestbedId := text_back.required.require "testbed_id" hv (by simp) rfl
  have hnetappId := text_back.required.require "netapp_id" hv (by simp) rfl
  have hnetworkServiceId := text_back.required.require "network_service_id" hv (by simp) rfl
  have hdescription := text_back.optional "description" hv (by simp)
  refine ReadsWhen.congr
      (htestbedId.bind fun testbedId htestbedId => hnetappId.bind fun netappId hnetappId =>
    hnetworkServiceId.bind fun networkServiceId hnetworkServiceId =>
    hdescription.bind fun description hdescription => .of_some trivial ?_) ?_
  · let i : TestInfo := { testbedId, netappId, networkServiceId, description }
    obtain ⟨ftestbedId, fnetappId, fnetworkServiceId, fdescription⟩ := i.field?_toValue
    refine ⟨conforms_dict ?_ i.isRecord_toValue.only, ?_⟩
    · simp only [List.forall_mem_cons]
      exact ⟨.of_some fnetappId hnetappId.conforms,
        .of_some fnetworkServiceId hnetworkServiceId.conforms,
        .of_some ftestbedId htestbedId.conforms,
        .of_map fdescription rfl fun s hs => (hdescription s hs).conforms, List.forall_mem_nil _⟩
    · rw [TestInfo.ofValue?, Value.require_of_isReadBack ftestbedId htestbedId,
        Value.require_of_isReadBack fnetappId hnetappId,
        Value.require_of_isReadBack fnetworkServiceId hnetworkServiceId,
        Value.optional?_of_isReadBack fdescription hdescription]
      rfl
  · simp only [List.forall_mem_cons]
    tauto

/-- The fields of the tree of a setup. -/
theorem Setup.field?_toValue (s : Setup) :
    s.toValue.field? "deployments" = some (listTree Deployment.toValue s.deployments) ∧
      s.toValue.field? "testcases" = some (listTree Testcase.toValue s.testcases) ∧
      s.toValue.field? "metrics_collection" = s.metrics.map (listTree MetricsBlock.toValue) := by
  cases hmetrics :
    s.metrics <;> simp [Setup.toValue, hmetrics, Value.field?, Value.lookup, listTree]

/-- The tree of a setup has no fields but its own. -/
theorem Setup.isRecord_toValue (s : Setup) :
    s.toValue.IsRecord ["deployments", "testcases", "metrics_collection"] := by
  obtain ⟨deployments, testcases, metrics⟩ := s
  cases metrics with
  | none => exact Value.isRecord_of_keys ["deployments", "testcases"] rfl (by decide) (by decide)
  | some _ =>
    exact Value.isRecord_of_keys ["deployments", "metrics_collection", "testcases"] rfl (by decide)
      (by decide)

/-- Setups are read back. -/
theorem Setup.back : WritesBack (.dict [
      ("deployments", deploymentsRule.required),
      ("testcases", testcasesRule.required),
      ("metrics_collection", metricsBlocksRule)])
    Setup.ofValue? Setup.toValue := by
  refine Agrees.record fun v hv => ?_
  have hdeployments :=
    Deployment.back.list.required.require "deployments" hv (by simp [deploymentsRule]) rfl
  have htestcases :=
    Testcase.back.list.required.require "testcases" hv (by simp [testcasesRule]) rfl
  have hmetrics :=
    MetricsBlock.back.list.optional "metrics_collection" hv (by simp [metricsBlocksRule])
  refine ReadsWhen.congr
      (hdeployments.bind fun deployments hdeployments => htestcases.bind fun testcases htestcases =>
    hmetrics.bind fun metrics hmetrics => .of_some trivial ?_) ?_
  · let s : Setup := { deployments, testcases, metrics }
    obtain ⟨fdeployments, ftestcases, fmetrics⟩ := s.field?_toValue
    refine ⟨conforms_dict ?_ s.isRecord_toValue.only, ?_⟩
    · simp only [List.forall_mem_cons]
      exact ⟨.of_some fdeployments hdeployments.conforms, .of_some ftestcases htestcases.conforms,
        .of_map fmetrics rfl fun ms hms => (hmetrics ms hms).conforms, List.forall_mem_nil _⟩
    · rw [Setup.ofValue?, Value.require_of_isReadBack fdeployments hdeployments,
        Value.require_of_isReadBack ftestcases htestcases,
        Value.optional?_of_isReadBack fmetrics hmetrics]
      rfl
  · simp [deploymentsRule, testcasesRule, metricsBlocksRule]

namespace Descriptor

/-- The tree of setup and execution. -/
def phasesTree (setup : Setup) (execution : List Batch) : Value :=
  .dict [("execution", listTree Batch.toValue execution), ("setup", setup.toValue)]

/-- The fields of the tree of the test phases. -/
theorem field?_phasesTree (setup : Setup) (execution : List Batch) :
    (phasesTree setup execution).field? "setup" = some setup.toValue ∧
      (phasesTree setup execution).field? "execution" = some (listTree Batch.toValue execution) :=
  ⟨rfl, rfl⟩

/-- The tree of the test phases has no fields but its own. -/
theorem isRecord_phasesTree (setup : Setup) (execution : List Batch) :
    (phasesTree setup execution).IsRecord ["setup", "execution"] :=
  Value.isRecord_of_keys ["execution", "setup"] rfl (by decide) (by decide)

/-- The fields of the tree of a descriptor. -/
theorem field?_toValue (d : Descriptor) :
    d.toValue.field? "test_info" = some d.info.toValue ∧
      d.toValue.field? "test_phases" = some (phasesTree d.setup d.execution) :=
  ⟨rfl, rfl⟩

/-- The tree of a descriptor has no fields but its own. -/
theorem isRecord_toValue (d : Descriptor) : d.toValue.IsRecord ["test_info", "test_phases"] :=
  Value.isRecord_of_keys ["test_info", "test_phases"] rfl (by decide) (by decide)

/-- The sections of a document that a descriptor leaves out are not written. -/
theorem back : WritesBack descriptorRule ofValue? toValue := by
  refine Agrees.required (Agrees.record fun v hv => ?_)
  obtain ⟨phases, hphases⟩ := hv.required ("test_phases", testPhasesRule.required) (by simp) rfl
  have hfollows := (hv.conforms _ (by simp) phases hphases).follows rfl
  have hinfo := TestInfo.back.required.require "test_info" hv (by simp) rfl
  have hsetup := Setup.back.required.require "setup" hfollows (by simp) rfl
  have hexecution :=
    Batch.back.list.required.require "execution" hfollows (by simp [executionRule]) rfl
  rw [ofValue?_of_phases hphases]
  refine ReadsWhen.congr (hinfo.bind fun info hinfo => hsetup.bind fun setup hsetup =>
    hexecution.bind fun execution hexecution => .of_some trivial ?_) ?_
  · let d : Descriptor := { info, setup, execution }
    obtain ⟨finfo, fphases⟩ := d.field?_toValue
    obtain ⟨fsetup, fexecution⟩ := field?_phasesTree setup execution
    have cphases : Conforms testPhasesRule (phasesTree setup execution) := by
      refine conforms_dict ?_ (isRecord_phasesTree setup execution).only
      simp only [List.forall_mem_cons]
      exact ⟨.of_some fsetup hsetup.conforms, .of_some fexecution hexecution.conforms,
        List.forall_mem_nil _⟩
    refine ⟨conforms_dict ?_ ⟨_, rfl, by simp⟩, ?_⟩
    · simp only [List.forall_mem_cons]
      exact ⟨.of_some finfo hinfo.conforms, .of_some fphases cphases.of_required,
        .of_absent rfl rfl, .of_absent rfl rfl, List.forall_mem_nil _⟩
    · rw [ofValue?_of_phases fphases, Value.require_of_isReadBack finfo hinfo,
        Value.require_of_isReadBack fsetup hsetup,
        Value.require_of_isReadBack fexecution hexecution]
      rfl
  · refine Iff.trans ?_ (sections_inRange_iff hphases hfollows.only).symm
    simp [phaseRules, executionRule]

/-- What is written of a descriptor that was read follows the schema and is read as the
descriptor. -/
theorem parse_toValue {document : Value} {d : Descriptor} (h : parse document = .ok d) :
    checkDescriptor d.toValue = [] ∧ parse d.toValue = .ok d := by
  obtain ⟨hcheck, hread⟩ := parse_eq_ok_iff.mp h
  have hback := ((back document ((check_eq_nil_iff _ _).mp hcheck)).sound d hread).2
  have hagain : checkDescriptor d.toValue = [] := (check_eq_nil_iff _ _).mpr hback.conforms
  exact ⟨hagain, parse_eq_ok_iff.mpr ⟨hagain, hback.reads⟩⟩

end Descriptor
end PipelineManager
