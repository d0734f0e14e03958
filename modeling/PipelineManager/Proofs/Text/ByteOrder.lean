import Mathlib.Data.List.Lex
import Mathlib.Data.String.Basic

/-!
# The order of texts

Texts are ordered by their characters. That is the order of their UTF-8 bytes: the encoding of a
character with a smaller code is smaller at the first byte in which the two differ.
-/

namespace PipelineManager.Text

/-- The UTF-8 bytes of a text. -/
def bytes (s : String) : List UInt8 := s.toByteArray.data.toList

/-- The bytes of a text are those of its characters. -/
theorem bytes_eq (s : String) : bytes s = s.toList.flatMap String.utf8EncodeChar := by
  have hbytes : bytes (String.ofList s.toList) = s.toList.flatMap String.utf8EncodeChar := by
    rw [bytes, String.toByteArray_ofList, List.utf8Encode, List.data_toByteArray]
  rwa [String.ofList_toList] at hbytes

/-- Bytes are ordered by the first one, and by the others where it is the same. -/
theorem byte_cons_lt {n m : Nat} {xs ys : List UInt8} (hm : m < 256) (hle : n ≤ m)
    (htail : n = m → xs < ys) :
    UInt8.ofNat n :: xs < UInt8.ofNat m :: ys := by
  rcases Nat.lt_or_eq_of_le hle with hlt | rfl
  · have hsize : UInt8.size = 256 := rfl
    exact List.Lex.rel ((UInt8.ofNat_lt_iff_lt (by omega) (by omega)).mpr hlt)
  · exact List.Lex.cons (htail rfl)

/-- The encoding of a character with a smaller code comes first, whatever follows. -/
theorem encodeChar_append_lt {c d : Char} (h : c < d) (xs ys : List UInt8) :
    String.utf8EncodeChar c ++ xs < String.utf8EncodeChar d ++ ys := by
  have hcode : c.val.toNat < d.val.toNat := h
  have hbound : d.val.toNat < 0x110000 := by
    have hvalid := d.valid
    simp only [UInt32.isValidChar, Nat.isValidChar] at hvalid
    omega
  unfold String.utf8EncodeChar
  generalize c.val.toNat = n at hcode
  generalize d.val.toNat = m at hcode hbound
  dsimp only
  -- Each code takes one to four bytes. The first bytes tell the lengths apart; of encodings of one
  -- length, the first byte that differs decides.
  split_ifs
  all_goals
    simp only [List.cons_append, List.nil_append]
    repeat' first
      | omega
      | refine byte_cons_lt (by omega) (by omega) fun _ => ?_

/-- Bytes are in the order of the characters. -/
theorem flatMap_encodeChar_lt {cs ds : List Char} (h : cs < ds) :
    cs.flatMap String.utf8EncodeChar < ds.flatMap String.utf8EncodeChar := by
  induction h with
  | @nil d ds =>
    have hne : String.utf8EncodeChar d ≠ [] := by
      unfold String.utf8EncodeChar
      dsimp only
      split_ifs <;> simp
    obtain ⟨b, bs, hbs⟩ := List.exists_cons_of_ne_nil hne
    rw [List.flatMap_cons, hbs]
    exact List.Lex.nil
  | rel hlt => exact encodeChar_append_lt hlt _ _
  | @cons c cs ds _ ih =>
    rw [List.flatMap_cons, List.flatMap_cons]
    exact List.append_left_lt ih

/-- The order of texts is the order of their bytes. -/
theorem lt_iff_bytes_lt (a b : String) : a < b ↔ bytes a < bytes b := by
  rw [String.lt_iff_toList_lt, bytes_eq, bytes_eq]
  constructor
  · exact flatMap_encodeChar_lt
  · intro h
    rcases lt_trichotomy a.toList b.toList with hlt | heq | hgt
    · exact hlt
    · rw [heq] at h
      exact absurd h (List.lt_asymm h)
    · exact absurd h (List.lt_asymm (flatMap_encodeChar_lt hgt))

end PipelineManager.Text
