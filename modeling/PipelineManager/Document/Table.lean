/-!
# Ordered tables

Rows that are kept in the order of their keys, at most one under each key.
-/

namespace PipelineManager.Table

/-- Puts a row at its place among ordered rows. A row of the same key is renewed instead. -/
def upsert {α : Type} (same before : α → α → Bool) (renew : α → α → α) (row : α) : List α → List α
  | [] => [row]
  | r :: rest =>
    if same row r then renew r row :: rest
    else if before row r then row :: r :: rest
    else r :: upsert same before renew row rest

end PipelineManager.Table
