import PipelineManager.Proofs.Service.Writes

/-!
# Uploads that break off

An upload makes directories one by one, empties the file at its path and writes to it. Whatever
stops it on the way is not undone: it leaves some of the directories, or a file that holds anything.
A torn trial is a trial in which uploads break off by a plan of their own.
-/

namespace PipelineManager

/-- Where an upload breaks off: on the way to its file, when a number of directories are made, or in
the file, when some contents are written. -/
inductive Tear
  | onWay (made : Nat)
  | inFile (written : ByteArray)

namespace Warehouse

variable {w : Warehouse} {path : String}

/-- The files that an upload leaves when it breaks off. Nothing is begun for a path that is
refused. -/
def torn (w : Warehouse) (path : String) : Tear → Warehouse
  | .onWay made =>
    match Location.ofPath path with
    | .error _ => w
    | .ok location =>
      { w with tree := (makeParents w.tree { location with parts := location.parts.take made }).1 }
  | .inFile written => (w.upload path written).1

/-- Directories that are made for a part of the way are on the way. -/
theorem touches_makeParents {location : Location} (hlocation : Location.ofPath path = .ok location)
    (made : Nat) :
    Touches path w
      { w with tree := (makeParents w.tree { location with parts := location.parts.take made }).1 }
    where
  root := rfl
  kept := directories_makeParents _ _
  made d hd := by
    have hplace : Location.place? path = some location.parts := by
      rw [Location.place?, hlocation]
      rfl
    have hway : (location.parts.take made).dropLast <+: location.parts.dropLast := by
      rw [List.dropLast_eq_take, List.dropLast_eq_take, List.take_take]
      have hlength :
          min ((location.parts.take made).length - 1) made ≤ location.parts.length - 1 := by
        rw [List.length_take]
        omega
      exact List.take_prefix_take_left hlength
    exact (mem_directories_makeParents hd).imp_right fun h => ⟨_, hplace, h.trans hway⟩
  files names _ := FileTree.file?_of_files_eq (files_makeParents _ _) names

/-- An upload that breaks off touches nothing but its path. -/
theorem touches_torn (w : Warehouse) (path : String) (tear : Tear) :
    Touches path w (w.torn path tear) := by
  cases tear with
  | onWay made =>
    cases hlocation : Location.ofPath path with
    | error e => simpa only [torn, hlocation] using Touches.refl path w
    | ok location => simpa only [torn, hlocation] using touches_makeParents hlocation made
  | inFile written => exact w.touches_upload path written

end Warehouse

namespace Trial

/-- The answer to a call in a torn trial. A second plan tells which uploads break off, where, and
with what failure. -/
def answerTorn (plan : Nat → Option Mishap) (tears : Nat → Option (Fault × Tear)) (c : Call)
    (t : Trial) : c.Answer × Trial :=
  match c, tears t.past.length with
  | .upload path contents, some (cause, tear) =>
    (.error cause,
      { world := { t.world with warehouse := t.world.warehouse.torn path tear }
        past := t.past ++
          [⟨t.world.store, .upload path contents, .error cause⟩] })
  | c, _ => answer plan c t

variable {plan : Nat → Option Mishap} {tears : Nat → Option (Fault × Tear)} {t : Trial}

/-- A call that is no upload is answered as in any trial. -/
theorem answerTorn_of_ne_upload {c : Call} (hc : ∀ path contents, c ≠ .upload path contents) :
    answerTorn plan tears c t = answer plan c t := by
  cases c with
  | upload path contents => exact absurd rfl (hc path contents)
  | _ => rfl

/-- An upload that does not break off is answered as in any trial. -/
theorem answerTorn_of_none {c : Call} (hwhole : tears t.past.length = none) :
    answerTorn plan tears c t = answer plan c t := by
  cases c with
  | upload path contents => simp only [answerTorn, hwhole]
  | _ => rfl

/-- When no upload breaks off, a torn trial is a trial. -/
theorem answerTorn_none (plan : Nat → Option Mishap) :
    answerTorn plan (fun _ => none) = answer plan :=
  funext fun _ => funext fun _ => answerTorn_of_none rfl

/-- An upload is carried out, or it fails and touches nothing but its path. -/
theorem answerTorn_upload (plan : Nat → Option Mishap) (tears : Nat → Option (Fault × Tear))
    (t : Trial) (path : String) (contents : ByteArray) :
    let r := t.world.warehouse.upload path contents
    let after := answerTorn plan tears (.upload path contents) t
    (after.1 = r.2.mapError .warehouse ∧ after.2.world = { t.world with warehouse := r.1 }) ∨
      ∃ cause files, after.1 = .error cause ∧ t.world.warehouse.Touches path files ∧
        after.2.world = { t.world with warehouse := files } := by
  intro r after
  cases htear : tears t.past.length with
  | none =>
    have hanswer := t.world.answerWith_upload (plan t.past.length) path contents
    have hafter : after = answer plan (.upload path contents) t := answerTorn_of_none htear
    rw [hafter]
    exact .inl ⟨congrArg Prod.fst hanswer, congrArg Prod.snd hanswer⟩
  | some x =>
    obtain ⟨cause, tear⟩ := x
    refine .inr ⟨cause, _, ?_, t.world.warehouse.touches_torn path tear, ?_⟩ <;>
      simp only [after, answerTorn, htear]

end Trial
end PipelineManager
