import PipelineManager.Proofs.Text.Digits
import PipelineManager.Service.Submission

/-!
# Names of credentials and jobs

A credential and a job are named for their run by its identifier in decimal digits, which ends the
name. Digits hold no dash, so the identifier of a job is what follows the last dash, whatever
dashes the texts before it hold.
-/

namespace PipelineManager

namespace Json

/-- No dash stands in the digits of a number. -/
theorem dash_notMem_repr (n : Nat) : '-' ∉ (Nat.repr n).toList := fun h =>
  absurd (isDigit_of_mem_repr h) (by decide)

/-- A number that is not negative is written by its digits. -/
theorem intText_of_nonneg {n : Int} (h : 0 ≤ n) : intText n = Nat.repr n.natAbs := if_neg (by omega)

/-- A negative number is written with a dash in front of its digits. -/
theorem intText_of_neg {n : Int} (h : n < 0) : intText n = "-" ++ Nat.repr n.natAbs := if_pos h

/-- A written number has dashes and digits only. -/
theorem mem_intText {n : Int} {c : Char} (h : c ∈ (intText n).toList) :
    c = '-' ∨ c.isDigit = true := by
  rcases Int.lt_or_le n 0 with hn | hn
  · rw [intText_of_neg hn, String.toList_append] at h
    exact (List.mem_cons.mp h).imp_right isDigit_of_mem_repr
  · rw [intText_of_nonneg hn] at h
    exact .inr (isDigit_of_mem_repr h)

/-- Behind the last letter of a text that ends with a dash and an identifier there are
these two alone. -/
theorem letter_notMem_dash_intText (n : Int) : 'd' ∉ '-' :: (intText n).toList := by
  intro hd
  rcases List.mem_cons.mp hd with hd | hd
  · exact absurd hd (by decide)
  · exact absurd (mem_intText hd) (by decide)

/-- No dash stands in a written number iff it is not negative. -/
theorem dash_notMem_intText_iff {n : Int} : '-' ∉ (intText n).toList ↔ 0 ≤ n := by
  rcases Int.lt_or_le n 0 with hn | hn
  · rw [intText_of_neg hn]
    simp [hn]
  · rw [intText_of_nonneg hn]
    exact iff_of_true (dash_notMem_repr _) hn

/-- Different numbers are written differently. -/
theorem intText_injective : Function.Injective intText := by
  intro m n h
  have hsign : 0 ≤ m ↔ 0 ≤ n := by rw [← dash_notMem_intText_iff, h, dash_notMem_intText_iff]
  have habs : m.natAbs = n.natAbs := by
    rcases Int.lt_or_le m 0 with hm | hm
    · rw [intText_of_neg hm, intText_of_neg (by omega)] at h
      exact repr_injective ((String.append_right_inj _).mp h)
    · rw [intText_of_nonneg hm, intText_of_nonneg (hsign.mp hm)] at h
      exact repr_injective h
  omega

end Json

/-- Different runs have different token credentials. -/
theorem tokenCredential_injective : Function.Injective tokenCredential := fun _ _ h =>
  Json.intText_injective ((String.append_right_inj _).mp h)

/-- The name of a job is the two ids and the run, with dashes between them. -/
theorem toList_jobName (info : TestInfo) (runId : Int) :
    (jobName info runId).toList =
      (info.netappId.toList ++ '-' :: info.networkServiceId.toList) ++ '-' ::
      (Json.intText runId).toList := by
  simp [jobName]

/-- Runs with different identifiers have different jobs, whatever they are runs of. -/
theorem jobName_ne {m n : Int} (hm : 0 ≤ m) (hn : 0 ≤ n) (hne : m ≠ n) (info info' : TestInfo) :
    jobName info m ≠ jobName info' n := by
  intro h
  have htext := congrArg String.toList h
  rw [toList_jobName, toList_jobName] at htext
  have hdigits := eq_of_append_separator (Json.dash_notMem_intText_iff.mpr hm)
    (Json.dash_notMem_intText_iff.mpr hn) htext
  exact hne (Json.intText_injective (String.toList_inj.mp hdigits))

/-- Below zero a sign can be taken for a dash. -/
example : jobName ⟨"tb", "app", "net", none⟩ (-1) = jobName ⟨"tb", "app", "net-", none⟩ 1 := by
  decide

end PipelineManager
