import PipelineManager.Proofs.Text.ByteOrder
import PipelineManager.Text.Utf8

/-!
# Reading back UTF-8

The bytes of a text are well-formed, and the text that they are read as is that text.
-/

namespace PipelineManager.Text.Utf8

/-! ## Characters -/

/-- A character with no bytes due is complete. -/
theorem continued_zero (value low high : Nat) (bytes : List UInt8) :
    continued value 0 low high bytes = (some value, bytes) := by rw [continued]

/-- A byte that continues a character brings six bits. -/
theorem continued_cons {value due low high n : Nat} (hlow : low ≤ n) (hhigh : n ≤ high)
    (hn : n < 256) (bytes : List UInt8) :
    continued value (due + 1) low high (UInt8.ofNat n :: bytes) =
      continued (value * 64 + (n - 0x80)) due 0x80 0xBF bytes := by
  have hbyte : (UInt8.ofNat n).toNat = n := UInt8.toNat_ofNat_of_lt' hn
  rw [continued, hbyte, if_pos ⟨hlow, hhigh⟩]

/-- The bytes of a character are read as that character, whatever follows. -/
theorem decode_encodeChar (c : Char) (rest : List UInt8) :
    decode (String.utf8EncodeChar c ++ rest) = some c :: decode rest := by
  have hvalid : c.val.toNat < 0xD800 ∨ 0xDFFF < c.val.toNat ∧ c.val.toNat < 0x110000 := c.valid
  have hchar : Char.ofNat c.val.toNat = c := Char.ofNat_toNat c
  suffices h : ∃ b bytes, String.utf8EncodeChar c = b :: bytes ∧
      ∀ rest, first b (bytes ++ rest) = (some c.val.toNat, rest) by
    obtain ⟨b, bytes, hencoded, hfirst⟩ := h
    rw [hencoded, List.cons_append, decode, hfirst]
    simp only [Option.map_some, hchar]
  unfold String.utf8EncodeChar
  generalize c.val.toNat = n at hvalid
  dsimp only
  -- One case for each number of bytes. Of three and of four bytes, the first one narrows the range
  -- of the second, which leaves out the surrogates and what has no code.
  split_ifs
  all_goals
    refine ⟨_, _, rfl, fun rest => ?_⟩
    unfold first
    simp only [UInt8.toNat_ofNat', List.cons_append, List.nil_append]
  · rw [if_pos (by omega), Nat.mod_eq_of_lt (by omega)]
  · rw [if_neg (by omega), if_pos (by omega), continued_cons (by omega) (by omega) (by omega),
      continued_zero]
    simp only [Prod.mk.injEq, Option.some_inj, and_true]
    omega
  all_goals
    rw [if_neg (by omega), if_neg (by omega)]
    split_ifs
    all_goals first
      | omega
      | simp (disch := omega)
        only [continued_cons, continued_zero, Prod.mk.injEq, Option.some_inj, and_true]
        omega

/-! ## Texts -/

/-- The bytes of a text are read back. -/
theorem strict?_bytes (s : String) : strict? (bytes s) = some s := by
  have hread (cs : List Char) : (decode (cs.flatMap String.utf8EncodeChar)).mapM id = some cs := by
    induction cs with
    | nil => rw [List.flatMap_nil, decode, List.mapM_nil]; rfl
    | cons c cs ih => rw [List.flatMap_cons, decode_encodeChar, List.mapM_cons, ih]; rfl
  rw [strict?, bytes_eq, hread, Option.map_some, String.ofList_toList]

/-- The loop that lists bytes adds those that are left to those it has. -/
theorem toList_loop (contents : ByteArray) (i : Nat) (front : List UInt8) :
    ByteArray.toList.loop contents i front = front.reverse ++ contents.data.toList.drop i := by
  fun_induction ByteArray.toList.loop contents i front with
  | case1 i front h ih =>
    have hi : i < contents.data.toList.length := by simpa using h
    have hbyte : contents.get! i = contents.data.toList[i] := getElem!_pos contents.data i hi
    rw [ih, List.drop_eq_getElem_cons hi, hbyte, List.reverse_cons, List.append_assoc,
      List.singleton_append]
  | case2 i front h => rw [List.drop_eq_nil_of_le (by simpa using h), List.append_nil]

/-- What is kept of a text is read as that text. -/
theorem strict?_toUTF8 (s : String) : strict? s.toUTF8.toList = some s := by
  have hlist : s.toUTF8.toList = bytes s := toList_loop s.toUTF8 0 []
  rw [hlist, strict?_bytes]

end PipelineManager.Text.Utf8
