import PipelineManager.Document.Json.Reader
import PipelineManager.Document.Json.Writer

/-!
# Reading back JSON text

The text that is written for a tree without numbers is read back as that tree. Strings may hold any
characters: those that the writer escapes are what the reader takes the escapes for.
-/

namespace PipelineManager

/-! ## Canonical trees -/

namespace Value

/-- An entry whose key comes behind all others is put last. -/
theorem insert_of_forall_lt {key : String} {v : Value} {entries : List (String × Value)}
    (h : ∀ e ∈ entries, e.1 < key) : insert key v entries = entries ++ [(key, v)] := by
  induction entries with
  | nil => rfl
  | cons e rest ih =>
    have he : e.1 < key := h e List.mem_cons_self
    have hne : key ≠ e.1 := fun heq => String.lt_irrefl key (by simp [heq] at he)
    have hnot : ¬ key < e.1 := String.lt_asymm he
    rw [insert, if_neg hne, if_neg hnot, ih fun d hd => h d (List.mem_cons_of_mem e hd),
      List.cons_append]

/-- Entries in the order of their keys are sorted. -/
theorem sorted_of_pairwise {entries : List (String × Value)}
    (h : (entries.map (·.1)).Pairwise (· < ·)) :
    sorted entries = entries := by
  have hfold : ∀ rest known : List (String × Value), ((known ++ rest).map (·.1)).Pairwise (· < ·) →
      rest.foldl (fun acc e => insert e.1 e.2 acc) known = known ++ rest := by
    intro rest
    induction rest with
    | nil =>
      intro known _
      simp
    | cons e rest ih =>
      intro known hpairwise
      have hlast : ∀ d ∈ known, d.1 < e.1 := by
        intro d hd
        rw [List.map_append, List.pairwise_append] at hpairwise
        exact hpairwise.2.2 d.1 (List.mem_map_of_mem hd) e.1 (by simp)
      rw [List.foldl_cons, insert_of_forall_lt hlast, ih _ (by simpa using hpairwise)]
      simp
  exact hfold entries [] h

mutual
/-- A tree that is canonical stays as it is. -/
theorem canonical_eq_self {v : Value} (h : v.Canonical) : v.canonical = v := by
  match v, h with
  | list items, h => rw [canonical, canonicalItems_eq_self h]
  | dict entries, h => rw [canonical, canonicalEntries_eq_self h.2, sorted_of_pairwise h.1]
  | null, _ | bool _, _ | int _, _ | real _, _ | str _, _ => rfl

/-- Canonical items are left as they are. -/
theorem canonicalItems_eq_self {items : List Value} (h : CanonicalItems items) :
    canonicalItems items = items := by
  match items, h with
  | [], _ => rfl
  | v :: rest, h => rw [canonicalItems, canonical_eq_self h.1, canonicalItems_eq_self h.2]

/-- Canonical entries are left as they are. -/
theorem canonicalEntries_eq_self {entries : List (String × Value)} (h : CanonicalEntries entries) :
    canonicalEntries entries = entries := by
  match entries, h with
  | [], _ => rfl
  | (k, v) :: rest, h => rw [canonicalEntries, canonical_eq_self h.1, canonicalEntries_eq_self h.2]
end

end Value

namespace Json

/-! ## Strings -/

/-- The two digits of a control character stand for it. -/
theorem hexUnit?_control {n : Nat} (h : n < 32) :
    hexUnit? '0' '0' (hexDigit (n / 16)) (hexDigit (n % 16)) = some n := by
  have hall : ∀ n : Fin 32,
      hexUnit? '0' '0' (hexDigit (n / 16)) (hexDigit (n % 16)) = some n.val := by decide
  exact hall ⟨n, h⟩

/-- An escaped control character is read as that character. -/
theorem readStringTail_control {c : Char} (h : c.toNat < 32) (rest : List Char) :
    readStringTail
      ('\\' :: 'u' :: '0' :: '0' :: hexDigit (c.toNat / 16) :: hexDigit (c.toNat % 16) :: rest) =
      (readStringTail rest).map fun r => (c :: r.1, r.2) := by
  have htrailing : isTrailingUnit c.toNat = false := by simp [isTrailingUnit]; omega
  have hleading : isLeadingUnit c.toNat = false := by simp [isLeadingUnit]; omega
  rw [readStringTail, hexUnit?_control h]
  simp [htrailing, hleading]

/-- A character that needs no escape is read as it is. -/
theorem readStringTail_plain {c : Char} (hquote : c ≠ '"') (hslash : c ≠ '\\') (h : 32 ≤ c.toNat)
    (rest : List Char) :
    readStringTail (c :: rest) = (readStringTail rest).map fun r => (c :: r.1, r.2) := by
  have hcontrol : ¬ c.toNat < 32 := by omega
  rw [readStringTail.eq_def]
  simp [hslash, hcontrol]

/-- What the writer escapes, the reader takes the escape for. -/
theorem readStringTail_escapeChar (c : Char) (rest : List Char) :
    readStringTail (escapeChar c ++ rest) = (readStringTail rest).map fun r => (c :: r.1, r.2) := by
  have hnat {n : Nat} (h : c.toNat = n) : c = Char.ofNat n := by rw [← h, Char.ofNat_toNat]
  unfold escapeChar
  split
  · next h => rw [h]; rfl
  split
  · next h => rw [h]; rfl
  split
  · next h => rw [h]; rfl
  split
  · next h => rw [h]; rfl
  split
  · next h => rw [h]; rfl
  split
  · next h => rw [hnat h]; rfl
  split
  · next h => rw [hnat h]; rfl
  split
  · next h => exact readStringTail_control h rest
  · next hquote hslash _ _ _ _ _ hcontrol =>
      exact readStringTail_plain hquote hslash (by omega) rest

/-- A quoted string is read up to its closing quote. -/
theorem readStringTail_quoted (s rest : List Char) :
    readStringTail (s.flatMap escapeChar ++ '"' :: rest) = some (s, rest) := by
  induction s with
  | nil => rfl
  | cons c s ih =>
    rw [List.flatMap_cons, List.append_assoc, readStringTail_escapeChar, ih]
    rfl

/-- A quoted text is its escaped characters between quotes. -/
theorem toList_quoted (s : String) :
    (quoted s).toList = '"' :: (s.toList.flatMap escapeChar ++ ['"']) := by
  rw [quoted, String.toList_ofList]
  rfl

/-! ## Values -/

/-- Whether a tree has no numbers, and lists and dictionaries nest in it at most so deep. -/
def IsNumberless : Nat → Value → Prop
  | _, .null | _, .bool _ | _, .str _ => True
  | depth + 1, .list items => ∀ v ∈ items, IsNumberless depth v
  | depth + 1, .dict entries => ∀ e ∈ entries, IsNumberless depth e.2
  | _, _ => False

variable {depth : Nat}

/-- A list is written between brackets. -/
theorem toList_list (items : List Value) :
    (text (.list items)).toList = '[' :: ((itemsText items).toList ++ [']']) := by
  simp [text]

/-- A dictionary is written between braces. -/
theorem toList_dict (entries : List (String × Value)) :
    (text (.dict entries)).toList = '\x7b' :: ((entriesText entries).toList ++ ['\x7d']) := by
  simp [text]

/-- Items are written with a comma between them. -/
theorem toList_itemsText (v : Value) (w : Value) (rest : List Value) :
    (itemsText (v :: w :: rest)).toList =
      (text v).toList ++ ',' :: (itemsText (w :: rest)).toList := by
  simp [itemsText]

/-- The text of a tree starts with a character that is no blank and ends no list. -/
theorem exists_cons_text {v : Value} (h : IsNumberless depth v) :
    ∃ c cs, (text v).toList = c :: cs ∧ isBlank c = false ∧ c ≠ ']' := by
  cases v with
  | null => exact ⟨'n', ['u', 'l', 'l'], rfl, rfl, by decide⟩
  | bool b =>
    cases b with
    | true => exact ⟨'t', ['r', 'u', 'e'], rfl, rfl, by decide⟩
    | false => exact ⟨'f', ['a', 'l', 's', 'e'], rfl, rfl, by decide⟩
  | int n => cases depth <;> exact h.elim
  | real x => cases depth <;> exact h.elim
  | str s => exact ⟨'"', _, toList_quoted s, rfl, by decide⟩
  | list items => exact ⟨'[', _, toList_list items, rfl, by decide⟩
  | dict entries => exact ⟨'\x7b', _, toList_dict entries, rfl, by decide⟩

/-- The text of items starts with that of the first one. -/
theorem exists_toList_itemsText (v : Value) (rest : List Value) :
    ∃ tail, (itemsText (v :: rest)).toList = (text v).toList ++ tail := by
  cases rest with
  | nil => exact ⟨[], by simp [itemsText]⟩
  | cons w rest => exact ⟨_, toList_itemsText v w rest⟩

/-- No blank is skipped in front of items, and no list ends there. -/
theorem skipBlanks_itemsText {v : Value} (h : IsNumberless depth v) (others : List Value)
    (rest : List Char) :
    ∃ c cs, (itemsText (v :: others)).toList ++ rest = c :: cs ∧ skipBlanks (c :: cs) = c :: cs ∧
      c ≠ ']' := by
  obtain ⟨tail, htail⟩ := exists_toList_itemsText v others
  obtain ⟨c, cs, hc, hblank, hend⟩ := exists_cons_text h
  refine ⟨c, cs ++ (tail ++ rest), by simp [htail, hc], ?_, hend⟩
  rw [skipBlanks, List.dropWhile_cons_of_neg (by simp [hblank])]

/-- A written value starts with no blank. -/
theorem skipBlanks_text {v : Value} (h : IsNumberless depth v) (rest : List Char) :
    skipBlanks ((text v).toList ++ rest) = (text v).toList ++ rest := by
  obtain ⟨c, cs, hc, hskip, -⟩ := skipBlanks_itemsText h [] rest
  rw [itemsText] at hc
  rw [hc, hskip]

/-- Whether enough fuel reads back the text of a tree, whatever follows it. -/
def ReadsBack (depth : Nat) (v : Value) : Prop :=
  ∀ fuel rest,
    2 * (text v).toList.length ≤ fuel →
    readValue fuel depth ((text v).toList ++ rest) = some (v, rest)

/-- Written items are read back. -/
theorem readItems_text {items : List Value} (hne : items ≠ [])
    (hitems : ∀ v ∈ items, IsNumberless depth v) (hread : ∀ v ∈ items, ReadsBack depth v)
    (fuel : Nat) (rest : List Char) (hfuel : 2 * (itemsText items).toList.length + 1 ≤ fuel) :
    readItems fuel depth ((itemsText items).toList ++ ']' :: rest) = some (items, rest) := by
  induction items generalizing fuel with
  | nil => exact absurd rfl hne
  | cons v others ih =>
    obtain ⟨fuel, rfl⟩ : ∃ n, fuel = n + 1 := ⟨fuel - 1, by omega⟩
    have hv := hread v List.mem_cons_self
    cases others with
    | nil =>
      have hfirst := hv fuel (']' :: rest) (by simp only [itemsText] at hfuel; omega)
      rw [itemsText, readItems, hfirst]
      rfl
    | cons w others =>
      rw [toList_itemsText, List.length_append, List.length_cons] at hfuel
      have hfirst := hv fuel (',' :: ((itemsText (w :: others)).toList ++ ']' :: rest)) (by omega)
      have hothers := ih (by simp) (fun x hx => hitems x (List.mem_cons_of_mem v hx))
        (fun x hx => hread x (List.mem_cons_of_mem v hx)) fuel (by omega)
      obtain ⟨c, cs, hc, hskip, -⟩ :=
        skipBlanks_itemsText (hitems w (List.mem_cons_of_mem v List.mem_cons_self)) others
        (']' :: rest)
      have hcomma : skipBlanks (',' :: c :: cs) = ',' :: c :: cs := rfl
      rw [hc] at hfirst hothers
      rw [toList_itemsText, List.append_assoc, List.cons_append, hc, readItems, hfirst]
      simp only [Option.bind_eq_bind, Option.bind_some, hcomma, hskip, hothers]
      rfl

/-- A key, its colon and its value as they stand in the text of a dictionary. -/
theorem toList_entriesText (e d : String × Value) (rest : List (String × Value)) :
    (entriesText [e]).toList =
      '"' :: (e.1.toList.flatMap escapeChar ++ '"' :: ':' :: (text e.2).toList) ∧
      (entriesText (e :: d :: rest)).toList =
        (entriesText [e]).toList ++ ',' :: (entriesText (d :: rest)).toList := by
  simp [entriesText, toList_quoted]

/-- Written entries start with a quote. -/
theorem exists_toList_entriesText (e : String × Value) (rest : List (String × Value)) :
    ∃ cs, (entriesText (e :: rest)).toList = '"' :: cs := by
  obtain ⟨hone, -⟩ := toList_entriesText e e []
  cases rest with
  | nil => exact ⟨_, hone⟩
  | cons d rest =>
    obtain ⟨-, hmore⟩ := toList_entriesText e d rest
    exact ⟨_, hmore.trans (by rw [hone]; rfl)⟩

/-- Written entries are read back. -/
theorem readEntries_text {entries : List (String × Value)} (hne : entries ≠ [])
    (hentries : ∀ e ∈ entries, IsNumberless depth e.2) (hread : ∀ e ∈ entries, ReadsBack depth e.2)
    (fuel : Nat) (rest : List Char) (hfuel : 2 * (entriesText entries).toList.length + 1 ≤ fuel) :
    readEntries fuel depth ((entriesText entries).toList ++ '\x7d' :: rest) =
      some (entries, rest) := by
  induction entries generalizing fuel with
  | nil => exact absurd rfl hne
  | cons e others ih =>
    obtain ⟨fuel, rfl⟩ : ∃ n, fuel = n + 1 := ⟨fuel - 1, by omega⟩
    obtain ⟨key, v⟩ := e
    have hv : ReadsBack depth v := hread (key, v) List.mem_cons_self
    have hskip := skipBlanks_text (hentries (key, v) List.mem_cons_self)
    have hcolon (cs : List Char) : skipBlanks (':' :: cs) = ':' :: cs := rfl
    cases others with
    | nil =>
      obtain ⟨hone, -⟩ := toList_entriesText (key, v) (key, v) []
      rw [hone] at hfuel
      simp only [List.length_append, List.length_cons] at hfuel
      have hend (cs : List Char) : skipBlanks ('\x7d' :: cs) = '\x7d' :: cs := rfl
      have hfirst := hv fuel ('\x7d' :: rest) (by omega)
      rw [hone, List.cons_append, List.append_assoc, List.cons_append, List.cons_append,
        readEntries]
      simp only [readStringTail_quoted, Option.bind_eq_bind, Option.bind_some, hcolon, hskip,
        hfirst, hend, String.ofList_toList]
      rfl
    | cons d others =>
      obtain ⟨hone, hmore⟩ := toList_entriesText (key, v) d others
      rw [hmore, hone] at hfuel
      simp only [List.length_append, List.length_cons] at hfuel
      have hcomma (cs : List Char) : skipBlanks (',' :: cs) = ',' :: cs := rfl
      have hquote (cs : List Char) : skipBlanks ('"' :: cs) = '"' :: cs := rfl
      have hothers := ih (by simp) (fun x hx => hentries x (List.mem_cons_of_mem _ hx))
        (fun x hx => hread x (List.mem_cons_of_mem _ hx)) fuel (by omega)
      obtain ⟨cs, hcs⟩ := exists_toList_entriesText d others
      have hfirst :=
        hv fuel (',' :: ((entriesText (d :: others)).toList ++ '\x7d' :: rest)) (by omega)
      rw [hcs, List.cons_append] at hfirst hothers
      rw [hmore, hone, hcs]
      simp only [List.cons_append, List.append_assoc]
      rw [readEntries]
      simp only [readStringTail_quoted, Option.bind_eq_bind, Option.bind_some, hcolon, hskip,
        hfirst, hcomma, hquote, hothers, String.ofList_toList]
      rfl

/-- Scalars are read back at any depth. -/
theorem readsBack_of_scalar {v : Value} (h : IsNumberless 0 v) : ReadsBack depth v := by
  intro fuel rest hfuel
  obtain ⟨c, cs, hc, -, -⟩ := exists_cons_text h
  obtain ⟨fuel, rfl⟩ : ∃ n, fuel = n + 1 := by
    rw [hc, List.length_cons] at hfuel
    exact ⟨fuel - 1, by omega⟩
  cases v with
  | null => rfl
  | bool b => cases b <;> rfl
  | str s =>
    rw [text, toList_quoted, List.cons_append, List.append_assoc, readValue, List.singleton_append,
      readStringTail_quoted, Option.map_some, String.ofList_toList]
  | int n => exact h.elim
  | real x => exact h.elim
  | list items => exact h.elim
  | dict entries => exact h.elim

/-- A tree without numbers is read back from its text. -/
theorem readsBack_of_isNumberless {v : Value} (h : IsNumberless depth v) : ReadsBack depth v := by
  induction depth generalizing v with
  | zero => exact readsBack_of_scalar h
  | succ depth ih =>
    cases v with
    | list items =>
      intro fuel rest hfuel
      rw [toList_list] at hfuel ⊢
      simp only [List.length_append, List.length_cons] at hfuel
      obtain ⟨fuel, rfl⟩ : ∃ n, fuel = n + 1 := ⟨fuel - 1, by omega⟩
      cases items with
      | nil => rfl
      | cons v others =>
        have hitems := readItems_text (by simp) h (fun x hx => ih (h x hx)) fuel rest (by omega)
        obtain ⟨c, cs, hc, hskip, hend⟩ :=
          skipBlanks_itemsText (h v List.mem_cons_self) others (']' :: rest)
        rw [hc] at hitems
        rw [List.cons_append, List.append_assoc, List.singleton_append, hc, readValue]
        simp only [hskip]
        split
        · next hclosed => exact absurd (List.cons.inj hclosed).1 hend
        · rw [hitems]
          rfl
    | dict entries =>
      intro fuel rest hfuel
      rw [toList_dict] at hfuel ⊢
      simp only [List.length_append, List.length_cons] at hfuel
      obtain ⟨fuel, rfl⟩ : ∃ n, fuel = n + 1 := ⟨fuel - 1, by omega⟩
      cases entries with
      | nil => rfl
      | cons e others =>
        have hentries := readEntries_text (by simp) h (fun x hx => ih (h x hx)) fuel rest (by omega)
        obtain ⟨cs, hcs⟩ := exists_toList_entriesText e others
        have hskip (cs : List Char) : skipBlanks ('"' :: cs) = '"' :: cs := rfl
        rw [hcs, List.cons_append] at hentries
        rw [List.cons_append, List.append_assoc, List.singleton_append, hcs, List.cons_append,
          readValue]
        simp only [hskip]
        exact congrArg (Option.map fun r => (Value.dict r.1, r.2)) hentries
    | null | bool _ | str _ => exact readsBack_of_scalar trivial
    | int n => exact h.elim
    | real x => exact h.elim

/-- The text of a canonical tree without numbers is read as that tree. -/
theorem read?_text {v : Value} (h : IsNumberless maxDepth v) (hcanonical : v.Canonical) :
    read? (text v) = some v := by
  have hread := readsBack_of_isNumberless h (2 * (text v).toList.length + 2) [] (by omega)
  have hskip := skipBlanks_text h []
  rw [List.append_nil] at hread hskip
  have hempty : (skipBlanks []).isEmpty = true := rfl
  rw [read?, readFirst, hskip, hread]
  simp only [hempty, if_true]
  rw [Value.canonical_eq_self hcanonical]

end Json
end PipelineManager
