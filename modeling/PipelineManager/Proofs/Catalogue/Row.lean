import Mathlib.Logic.Function.Defs
import PipelineManager.Catalogue.Row
import PipelineManager.Proofs.Document.Entries
import PipelineManager.Proofs.Document.JsonText

/-!
# Reading back rows of the catalogue

An entry that is written to a row is read back from it with all of its fields: the variables in
order, each with its options in order, its mandatory flag and its texts, whatever characters these
hold.
-/

namespace PipelineManager

namespace Variable

/-- The tree of an option. -/
def optionTree (o : String) : Value := .dict [("name", .str o)]

/-- A variable is read back from its tree. -/
theorem ofValue?_toValue (v : Variable) : ofValue? v.toValue = some v := by
  have hoptions : v.toValue.itemsOrNone? "possible_options" option? = some v.options :=
    Value.itemsBy?_map fun _ _ => rfl
  unfold ofValue?
  rw [hoptions]
  rfl

/-- The tree of a variable is canonical. -/
theorem canonical_toValue (v : Variable) : v.toValue.Canonical := by
  have hoption (o : String) : (optionTree o).Canonical :=
    ⟨List.pairwise_singleton _ _, trivial, trivial⟩
  have hoptions :=
    Value.canonicalItems_iff.mpr (List.forall_mem_map.mpr fun o (_ : o ∈ v.options) => hoption o)
  refine ⟨?_, trivial, trivial, hoptions, trivial, trivial, trivial⟩
  show ["description", "mandatory", "possible_options", "type", "variable_name"].Pairwise (· < ·)
  decide

/-- A variable nests its options two deep. -/
theorem isNumberless_toValue (v : Variable) (depth : Nat) :
    Json.IsNumberless (depth + 3) v.toValue := by
  have hoptions : Json.IsNumberless (depth + 2) (.list (v.options.map optionTree)) := by
    intro tree htree
    obtain ⟨o, -, rfl⟩ := List.mem_map.mp htree
    simp [optionTree, Json.IsNumberless]
  have hoptionTree : (fun o => Value.dict [("name", .str o)]) = optionTree := rfl
  simp only [toValue, Json.IsNumberless, List.forall_mem_cons, hoptionTree]
  exact ⟨trivial, trivial, hoptions, trivial, trivial, fun _ h => absurd h List.not_mem_nil⟩

/-- Variables are read back from their column. -/
theorem ofColumnText?_columnText (vars : List Variable) :
    ofColumnText? (columnText vars) = some vars := by
  have hnumberless : Json.IsNumberless Json.maxDepth (.list (vars.map toValue)) := by
    intro tree htree
    obtain ⟨v, -, rfl⟩ := List.mem_map.mp htree
    exact v.isNumberless_toValue 123
  have hcanonical : (Value.list (vars.map toValue)).Canonical :=
    Value.canonicalItems_iff.mpr (List.forall_mem_map.mpr fun v _ => canonical_toValue v)
  rw [ofColumnText?, columnText, Json.read?_text hnumberless hcanonical, Option.bind_some]
  exact Value.itemsBy?_map fun v _ => ofValue?_toValue v

end Variable

/-- An entry is read back from its row. -/
theorem CatalogueEntry.entry?_toRow (e : CatalogueEntry) : e.toRow.entry? = some e := by
  rw [CatalogueRow.entry?, toRow, Variable.ofColumnText?_columnText]
  rfl

/-- Different entries have different rows. -/
theorem CatalogueEntry.toRow_injective : Function.Injective CatalogueEntry.toRow := by
  intro e d h
  have hread := congrArg CatalogueRow.entry? h
  rw [entry?_toRow, entry?_toRow] at hread
  exact Option.some.inj hread

end PipelineManager
