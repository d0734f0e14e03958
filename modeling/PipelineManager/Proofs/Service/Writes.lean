import PipelineManager.Proofs.Service.Requests
import PipelineManager.Proofs.Warehouse.Writes

/-!
# What sessions write

A session writes to the warehouse by the uploads of its requests that succeed, and by nothing
else. So whatever else happens in between, a place of the warehouse holds what the session
wrote there last.
-/

namespace PipelineManager

/-! ## Writes -/

/-- The place that a call wrote to and what it wrote there, if it was an upload that succeeded. -/
def Exchange.write? (x : Exchange) : Option (List String × ByteArray) :=
  match x.call, x.fault with
  | .upload path contents, none => (Location.place? path).map fun place => (place, contents)
  | _, _ => none

/-- What was written in a trial, in order. -/
def Trial.writes (t : Trial) : List (List String × ByteArray) := t.past.filterMap Exchange.write?

namespace World

/-- What is written when an event happens, in order. -/
def writes (w : World) : Event → List (List String × ByteArray)
  | .request q plan => (Service.exec (Trial.answer plan) q.service { world := w }).2.writes
  | _ => []

/-- What is written in a session, in order. -/
def written (w : World) : List Event → List (List String × ByteArray)
  | [] => []
  | e :: rest => w.writes e ++ (w.perform e).written rest

/-- What a place of the warehouse holds. -/
def file? (w : World) (place : List String) : Option ByteArray := w.warehouse.tree.file? place

/-- Events in sequence lead on from where the first lead. -/
theorem after_append (w : World) (events later : List Event) :
    w.after (events ++ later) = (w.after events).after later :=
  List.foldl_append

/-! ## Calls -/

/-- Only an upload changes the warehouse. -/
theorem warehouse_answerWith (mishap : Option Mishap) {c : Call}
    (hc : ∀ path contents, c ≠ .upload path contents) (w : World) :
    (w.answerWith mishap c).2.warehouse = w.warehouse := by
  have hstore {α : Type} (call : RunCall) (r : Except StoreFault (Store × α)) :
      (w.ofStore call r).2.warehouse = w.warehouse := by
    rcases w.ofStore_cases call r with ⟨e, h⟩ | ⟨s, a, -, h⟩ <;> rw [h]
  have hfleet {α : Type} (call : AgentCall) (r : α × Fleet) :
      (w.ofFleet call r).2.warehouse = w.warehouse := by
    rcases w.ofFleet_cases call r with ⟨e, h⟩ | h <;> rw [h]
  rcases w.answerWith_snd_cases mishap c with h | h <;> rw [h]
  cases c with
  | upload path contents => exact absurd rfl (hc path contents)
  | appendStatus runId state success => rw [answer_appendStatus rfl]
  | createRun _ | run _ | setRunAgent _ _ | setCommunicationToken _ _ | setJob _ _ _
    | setResultLocations _ _ _
  | addRunTest _ _ | runTests _ | recordTestResult _ _ _ _ => exact hstore _ _
  | agentsOf _ | agent _ | createCredential _ _ _ _ | submitJob _ _ _ | startJob _ _
    | lastBuildNumber _ _
  | fetchLog _ _ _ => exact hfleet _ _
  | _ => rfl

/-- An upload has no mishap. -/
theorem answerWith_upload (mishap : Option Mishap) (path : String) (contents : ByteArray)
    (w : World) :
    w.answerWith mishap (.upload path contents) = w.ofUpload (w.warehouse.upload path contents) :=
  Trial.answerWith_of_failing?_eq_none (fun _ => rfl) mishap w

/-- What uploads keep of the warehouse holds after an event. -/
theorem warehouse_perform {holds : Warehouse → Prop}
    (hstep : ∀ files path contents, holds files → holds (Warehouse.upload files path contents).1)
    {w : World} (hw : holds w.warehouse) (e : Event) : holds (w.perform e).warehouse := by
  cases e with
  | request q plan =>
    have hcall : ∀ c mishap (v : World),
        True → holds v.warehouse → holds (v.answerWith mishap c).2.warehouse := by
      intro c mishap v _ hv
      by_cases hc : ∃ path contents, c = .upload path contents
      · obtain ⟨path, contents, rfl⟩ := hc
        rw [answerWith_upload]
        exact hstep v.warehouse path contents hv
      · rwa [warehouse_answerWith mishap fun path contents h => hc ⟨path, contents, h⟩]
    exact attempt_invariant (Program.asks_true q.service.run) hcall hw plan
  | _ => exact hw

/-- What uploads keep of the warehouse holds after a session. -/
theorem warehouse_after {holds : Warehouse → Prop}
    (hstep : ∀ files path contents, holds files → holds (Warehouse.upload files path contents).1)
    {w : World} (hw : holds w.warehouse) (events : List Event) :
    holds (w.after events).warehouse := by
  induction events generalizing w with
  | nil => exact hw
  | cons e rest ih => exact ih (warehouse_perform hstep hw e)

/-- A session leaves directories where they are. -/
theorem directories_after (w : World) (events : List Event) :
    w.warehouse.tree.directories ⊆ (w.after events).warehouse.tree.directories := by
  have hstep : ∀ (files : Warehouse) path contents,
    w.warehouse.tree.directories ⊆ files.tree.directories →
      w.warehouse.tree.directories ⊆ (files.upload path contents).1.tree.directories :=
    fun files path contents h => List.Subset.trans h (files.directories_upload path contents)
  exact warehouse_after hstep (List.Subset.refl _) events

end World

namespace Trial

variable {plan : Nat → Option Mishap} {w : World} {t : Trial}

/-- Whether all places of the warehouse hold what was written there last in a trial, and else what
they held in the world that the trial began with. -/
def HoldsLast (w : World) (t : Trial) : Prop :=
  ∀ place, t.world.file? place = (lastWrite? place t.writes).or (w.file? place)

/-- A call adds the write that it makes. -/
theorem writes_answer (c : Call) (t : Trial) :
    (answer plan c t).2.writes =
      t.writes ++ (Exchange.write? ⟨t.world.store, c, (answer plan c t).1⟩).toList := by
  rw [writes, past_answer, List.filterMap_append, List.filterMap_cons, List.filterMap_nil]
  cases Exchange.write? ⟨t.world.store, c, (answer plan c t).1⟩ <;> rfl

/-- An upload writes what it uploads if it succeeds, and nothing if it fails. -/
theorem HoldsLast.upload (h : HoldsLast w t) (path : String) (contents : ByteArray) :
    HoldsLast w (answer plan (.upload path contents) t).2 := by
  intro place
  have hanswer := t.world.answerWith_upload (plan t.past.length) path contents
  have hfile : (answer plan (.upload path contents) t).2.world.file? place =
      (t.world.warehouse.upload path contents).1.tree.file? place := by
    rw [world_answer, hanswer]
    rfl
  rw [writes_answer, lastWrite?_append, answer_fst, hanswer, hfile]
  rcases hresult : (t.world.warehouse.upload path contents).2 with e | _
  · rw [Warehouse.file?_upload_of_error hresult]
    simp only [World.ofUpload, hresult, Except.mapError, Exchange.fault, Call.fault?, Call.faultOf?,
      Exchange.write?, Option.toList_none, lastWrite?_nil, Option.none_or]
    exact h place
  · obtain ⟨location, hlocation, -, hwritten⟩ := Warehouse.file?_upload_of_ok hresult
    have hplace : Location.place? path = some location.parts := by
      rw [Location.place?, hlocation]; rfl
    rw [hwritten]
    simp only [World.ofUpload, hresult, Except.mapError, Exchange.fault, Call.fault?, Call.faultOf?,
      Exchange.write?, hplace, Option.map_some, Option.toList_some, lastWrite?_singleton]
    split
    · rfl
    · exact h place

/-- A trial keeps holding what was written last. -/
theorem HoldsLast.answer (h : HoldsLast w t) (c : Call) :
    HoldsLast w (Trial.answer plan c t).2 := by
  by_cases hc : ∃ path contents, c = .upload path contents
  · obtain ⟨path, contents, rfl⟩ := hc
    exact h.upload path contents
  · intro place
    have hother : ∀ path contents, c ≠ .upload path contents :=
      fun path contents heq => hc ⟨path, contents, heq⟩
    have hnone : Exchange.write? ⟨t.world.store, c, (Trial.answer plan c t).1⟩ = none := by
      cases c with
      | upload path contents => exact absurd rfl (hother path contents)
      | _ => rfl
    rw [writes_answer, hnone, Option.toList_none, List.append_nil, World.file?, world_answer,
      World.warehouse_answerWith _ hother]
    exact h place

end Trial

/-! ## Sessions -/

namespace World

variable {w : World}

/-- After an event, places hold what it wrote. -/
theorem file?_perform (w : World) (e : Event) (place : List String) :
    (w.perform e).file? place = (lastWrite? place (w.writes e)).or (w.file? place) := by
  cases e with
  | request q plan =>
    have hstep : ∀ c (t : Trial),
        True → Trial.HoldsLast w t → Trial.HoldsLast w (Trial.answer plan c t).2 :=
      fun c t _ h => h.answer c
    have hbegin : Trial.HoldsLast w { world := w } := fun place => rfl
    exact (Program.asks_true q.service.run).run_invariant hstep hbegin place
  | _ => rfl

/-- After a session, places hold what was written there last. -/
theorem file?_after (w : World) (events : List Event) (place : List String) :
    (w.after events).file? place = (lastWrite? place (w.written events)).or (w.file? place) := by
  induction events generalizing w with
  | nil => rfl
  | cons e rest ih =>
    have hrest : (w.after (e :: rest)).file? place = ((w.perform e).after rest).file? place := rfl
    rw [hrest, ih, file?_perform, written, lastWrite?_append, Option.or_assoc]

end World
end PipelineManager
