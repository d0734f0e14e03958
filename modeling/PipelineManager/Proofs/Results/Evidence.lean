import PipelineManager.Proofs.Text.Search
import PipelineManager.Results.Report

/-!
# Evidence that nothing failed

A report passes when its count of failures is 0. The count is taken from behind the first `fail="`
in the tag of the total statistics, wherever that stands, and it is 0 when it is missing or no
numeral. So a report passes unless a positive count stands there, and the tag shows that nothing
failed only when that count is the value of its attribute.
-/

namespace PipelineManager.Report

/-! ## Counts -/

/-- Whether a text is a decimal numeral of a number: digits, with a plus in front of them or not. -/
def IsNumeral (cs : List Char) (n : Nat) : Prop :=
  ∃ ds, (cs = ds ∨ cs = '+' :: ds) ∧ ds ≠ [] ∧ (∀ d ∈ ds, d.isDigit = true) ∧
    Decimal.digitsValue ds = n

/-- A numeral of 0 ends in a 0. -/
theorem IsNumeral.zero_mem {cs : List Char} (h : IsNumeral cs 0) : '0' ∈ cs := by
  obtain ⟨ds, hcs, hne, hdigits, hvalue⟩ := h
  have hlast : '0' ∈ ds := by
    obtain ⟨front, d, rfl⟩ := ds.eq_nil_or_concat'.resolve_left hne
    have hd : d.isDigit = true := hdigits d (by simp)
    have hzero : Decimal.digitValue d = 0 := by
      rw [Decimal.digitsValue, List.foldl_concat] at hvalue
      exact (Nat.add_eq_zero_iff.mp hvalue).2
    have hsame : d = '0' := by
      have hrange : 48 ≤ d.toNat ∧ d.toNat ≤ 57 := by
        simpa [Char.isDigit, UInt32.le_iff_toNat_le] using hd
      refine Char.toNat_inj.mp (?_ : d.toNat = 48)
      simp only [Decimal.digitValue] at hzero
      have h0 : '0'.toNat = 48 := rfl
      omega
    simp [hsame]
  rcases hcs with rfl | rfl
  · exact hlast
  · exact List.mem_cons_of_mem _ hlast

/-- A count is read from the numerals of numbers of 64 bits. -/
theorem count?_eq_some_iff {cs : List Char} {n : Nat} :
    count? cs = some n ↔ IsNumeral cs n ∧ Word.isUnsigned n = true := by
  have hread (ds : List Char) :
      (if !ds.isEmpty && ds.all (·.isDigit) && Word.isUnsigned (Decimal.digitsValue ds) then
        some (Decimal.digitsValue ds) else none) = some n ↔
        (ds ≠ [] ∧ (∀ d ∈ ds, d.isDigit = true) ∧ Decimal.digitsValue ds = n) ∧
            Word.isUnsigned n = true := by
    constructor
    · intro h
      split at h
      · next hdigits =>
        obtain rfl := Option.some.inj h
        simpa [and_assoc] using hdigits
      · cases h
    · rintro ⟨⟨hne, hdigits, rfl⟩, hfits⟩
      rw [if_pos (by simpa [hfits, hne] using hdigits)]
  unfold count?
  split
  · next ds =>
    refine (hread ds).trans (and_congr_left' ⟨fun h => ⟨ds, .inr rfl, h⟩, ?_⟩)
    rintro ⟨ds', hds | hds, h⟩
    · exact absurd (h.2.1 '+' (hds ▸ List.mem_cons_self)) (by decide)
    · exact (List.cons.inj hds).2 ▸ h
  · next hplus =>
    refine (hread cs).trans (and_congr_left' ⟨fun h => ⟨cs, .inl rfl, h⟩, ?_⟩)
    rintro ⟨ds, hds | hds, h⟩
    · exact hds ▸ h
    · exact absurd hds (hplus ds)

/-- What a count is looked for behind. -/
def countMark (name : String) : List Char := name.toList ++ "=\"".toList

/-- Whether a count is taken from the attributes of a tag: its numeral stands behind the first mark,
up to the next quote. -/
def Takes (name : String) (attributes : List Char) (n : Nat) : Prop :=
  ∃ front rest, attributes = front ++ countMark name ++ rest ∧
    (∀ front' rest',
      attributes = front' ++ countMark name ++ rest' → front.length ≤ front'.length) ∧
    IsNumeral (Text.before ['"'] rest) n ∧ Word.isUnsigned n = true

/-- A count is taken iff it is read behind the first mark of its name. -/
theorem takes_iff {name : String} {attributes : List Char} {n : Nat} :
    Takes name attributes n ↔
      ∃ front rest, Text.cut? (countMark name) attributes = some (front, rest) ∧
        count? (Text.before ['"'] rest) = some n := by
  simp only [Takes, Text.cut?_eq_some_iff, count?_eq_some_iff, and_assoc]

/-- A count that is not 0 is one that is taken. -/
theorem count_eq_iff_of_pos {name : String} {attributes : List Char} {n : Nat} (hn : 0 < n) :
    count name attributes = n ↔ Takes name attributes n := by
  rw [takes_iff, count, ← countMark]
  cases hcut : Text.cut? (countMark name) attributes with
  | none => simpa using fun h : 0 = n => absurd hn (by omega)
  | some parts =>
    obtain ⟨front, rest⟩ := parts
    dsimp only
    constructor
    · intro h
      cases hread : count? (Text.before ['"'] rest) with
      | none =>
        rw [hread, Option.getD_none] at h
        omega
      | some m =>
        rw [hread, Option.getD_some] at h
        exact ⟨front, rest, rfl, h ▸ hread⟩
    · rintro ⟨front', rest', hparts, hread⟩
      obtain ⟨rfl, rfl⟩ := Prod.mk.inj (Option.some.inj hparts)
      rw [hread, Option.getD_some]

/-! ## Attributes -/

/-- A character that belongs to the name of an attribute. -/
def isNameChar (c : Char) : Bool := Text.isWordChar c || c = '-' || c = '.' || c = ':'

/-- The quote that is open behind a text in a tag, if one is. -/
def openQuote? (cs : List Char) : Option Char :=
  cs.foldl (fun quote? c =>
    match quote? with
    | none => if c = '"' ∨ c = '\'' then some c else none
    | some quote => if c = quote then none else some quote) none

/-- Whether an attribute can begin behind a text in a tag: no value and no other name is
under way. -/
def BeginsName (front : List Char) : Prop :=
  openQuote? front = none ∧ ∀ c ∈ front.getLast?, isNameChar c = false

/-- Whether the attributes of a tag hold one of a name with a value, in quotes of either kind. -/
def HasAttribute (name value attributes : List Char) : Prop :=
  ∃ front gap gap' quote back,
    attributes = front ++ name ++ gap ++ '=' :: (gap' ++ quote :: (value ++ quote :: back)) ∧
    BeginsName front ∧ (∀ c ∈ gap ++ gap', Text.isBlank c = true) ∧ (quote = '"' ∨ quote = '\'') ∧
    quote ∉ value

/-- Whether the attributes of a tag show that nothing failed: one is named for failures, and its
value is a numeral of 0. -/
def ShowsNoFailure (attributes : List Char) : Prop :=
  ∃ value, HasAttribute "fail".toList value attributes ∧ IsNumeral value 0

/-- Whether the first mark for failures in the attributes of a tag is that of the attribute itself,
and its value is a numeral of a number of 64 bits. -/
def StatesFailures (attributes : List Char) (n : Nat) : Prop :=
  ∃ front value back, attributes = front ++ countMark "fail" ++ (value ++ '"' :: back) ∧
    (∀ front' rest',
      attributes = front' ++ countMark "fail" ++ rest' → front.length ≤ front'.length) ∧
    BeginsName front ∧ '"' ∉ value ∧ IsNumeral value n ∧ Word.isUnsigned n = true

/-- The failures that are stated are taken. -/
theorem StatesFailures.takes {attributes : List Char} {n : Nat} (h : StatesFailures attributes n) :
    Takes "fail" attributes n := by
  obtain ⟨front, value, back, hattributes, hfirst, -, hvalue, hnumeral, hfits⟩ := h
  exact ⟨front, value ++ '"' :: back, hattributes, hfirst,
    (Text.before_append hvalue back).symm ▸ hnumeral, hfits⟩

/-- Where no failures are stated, none is shown. -/
theorem StatesFailures.showsNoFailure {attributes : List Char} (h : StatesFailures attributes 0) :
    ShowsNoFailure attributes := by
  obtain ⟨front, value, back, hattributes, -, hbegins, hvalue, hnumeral, -⟩ := h
  refine ⟨value, ⟨front, [], [], '"', back, ?_, hbegins, by simp, .inl rfl, hvalue⟩, hnumeral⟩
  simpa [countMark] using hattributes

/-! ## Reports that pass -/

/-- A text with total statistics is summarised, and the count of failures is the one in them. -/
theorem exists_read?_of_total? {text : String} {attributes : List Char}
    (h : total? text.toList = some attributes) :
    ∃ r, read? text = some r ∧ r.failed = count "fail" attributes := by
  rw [read?]
  simp only [h]
  exact ⟨_, rfl, rfl⟩

/-- The count of failures comes from the total statistics. -/
theorem exists_total_of_read? {text : String} {r : Report} (h : read? text = some r) :
    ∃ attributes, total? text.toList = some attributes ∧ r.failed = count "fail" attributes := by
  obtain ⟨attributes, htotal, hr⟩ := Option.bind_eq_some_iff.mp h
  obtain rfl := Option.some.inj hr
  exact ⟨attributes, htotal, rfl⟩

/-- A report passes unless a positive count of failures is taken. -/
theorem success_iff {r : Report} {attributes : List Char} (h : r.failed = count "fail" attributes) :
    r.success = true ↔ ∀ n, 0 < n → ¬ Takes "fail" attributes n := by
  have hsuccess : r.success = true ↔ count "fail" attributes = 0 := by simp [success, h]
  rw [hsuccess]
  constructor
  · intro hzero n hn htakes
    have hcount := (count_eq_iff_of_pos hn).mpr htakes
    omega
  · intro hnone
    rcases Nat.eq_zero_or_pos (count "fail" attributes) with hzero | hpos
    · exact hzero
    · exact absurd ((count_eq_iff_of_pos hpos).mp rfl) (hnone _ hpos)

/-- One count at most is taken. -/
theorem takes_unique {name : String} {attributes : List Char} {m n : Nat}
    (hm : Takes name attributes m) (hn : Takes name attributes n) : m = n := by
  obtain ⟨front, rest, hcut, hread⟩ := takes_iff.mp hm
  obtain ⟨front', rest', hcut', hread'⟩ := takes_iff.mp hn
  obtain ⟨rfl, rfl⟩ := Prod.mk.inj (Option.some.inj (hcut.symm.trans hcut'))
  exact Option.some.inj (hread.symm.trans hread')

/-- A report passes only on evidence exactly when its total statistics show that nothing failed,
or a positive count stands behind the first mark for failures in them. If that mark is
the attribute's own and its value is a number, the report passes exactly when that number is 0,
which is evidence. -/
theorem passes_on_evidence_iff {text : String} {r : Report} (h : read? text = some r) :
    ∃ attributes, total? text.toList = some attributes ∧
      ((r.success = true → ShowsNoFailure attributes) ↔
        ShowsNoFailure attributes ∨ ∃ n, 0 < n ∧ Takes "fail" attributes n) ∧
      ∀ n, StatesFailures attributes n →
        (r.success = true ↔ n = 0) ∧ (r.success = true → ShowsNoFailure attributes) := by
  obtain ⟨attributes, htotal, hfailed⟩ := exists_total_of_read? h
  have hsuccess := success_iff hfailed
  refine ⟨attributes, htotal, ?_, fun n hstates => ?_⟩
  · constructor
    · intro honly
      by_cases hpositive : ∃ n, 0 < n ∧ Takes "fail" attributes n
      · exact .inr hpositive
      · exact .inl (honly (hsuccess.mpr fun n hn htakes => hpositive ⟨n, hn, htakes⟩))
    · rintro (hshows | ⟨n, hn, htakes⟩) hpasses
      · exact hshows
      · exact absurd htakes (hsuccess.mp hpasses n hn)
  · have hzero : r.success = true ↔ n = 0 := by
      rw [hsuccess]
      constructor
      · intro hnone
        rcases Nat.eq_zero_or_pos n with hn | hn
        · exact hn
        · exact absurd hstates.takes (hnone n hn)
      · rintro rfl m hm htakes
        exact absurd (takes_unique htakes hstates.takes) (by omega)
    refine ⟨hzero, fun hpasses => ?_⟩
    obtain rfl := hzero.mp hpasses
    exact hstates.showsNoFailure

/-- The total statistics of a report by their attributes. -/
def totalReport (attributes : String) : String :=
  "<total><stat" ++ attributes ++ ">All</stat></total>"

/-- A report that states no failures passes, on evidence. -/
theorem passes_on_evidence_iff_stated :
    ∃ r attributes, read? (totalReport " pass=\"2\" fail=\"0\"") = some r ∧
      total? (totalReport " pass=\"2\" fail=\"0\"").toList = some attributes ∧
      StatesFailures attributes 0 ∧ r.success = true ∧ ShowsNoFailure attributes := by
  have htotal :
      total? (totalReport " pass=\"2\" fail=\"0\"").toList =
        some " pass=\"2\" fail=\"0\"".toList := by decide
  have hcut : Text.cut? (countMark "fail") " pass=\"2\" fail=\"0\"".toList =
      some (" pass=\"2\" ".toList, "0\"".toList) := by decide
  have hzero : IsNumeral ['0'] 0 :=
    ⟨['0'], .inl rfl, by decide, List.forall_mem_singleton.mpr rfl, rfl⟩
  have hbegins : BeginsName " pass=\"2\" ".toList := by
    refine ⟨by decide, ?_⟩
    rintro c ⟨⟩
    rfl
  have hstates : StatesFailures " pass=\"2\" fail=\"0\"".toList 0 :=
    ⟨_, ['0'], [], Text.append_of_cut? hcut, fun _ _ => Text.length_le_of_cut? hcut,
      hbegins, by decide, hzero, by decide⟩
  obtain ⟨r, hread, -⟩ := exists_read?_of_total? htotal
  obtain ⟨attributes, hsame, -, hstated⟩ := passes_on_evidence_iff hread
  obtain rfl := Option.some.inj (htotal.symm.trans hsame)
  have hpasses : r.success = true := (hstated 0 hstates).1.mpr rfl
  exact ⟨r, _, hread, htotal, hstates, hpasses, (hstated 0 hstates).2 hpasses⟩

/-- A report passes though its total statistics state 3 failures, behind an attribute whose name
ends like theirs, and one passes whose total statistics name none. -/
theorem passes_without_evidence :
    (∃ r attributes, read? (totalReport " xfail=\"0\" fail=\"3\"") = some r ∧ r.success = true ∧
      total? (totalReport " xfail=\"0\" fail=\"3\"").toList = some attributes ∧
      ¬ ShowsNoFailure attributes) ∧
    ∃ r attributes, read? (totalReport " pass=\"1\"") = some r ∧ r.success = true ∧
      total? (totalReport " pass=\"1\"").toList = some attributes ∧
      ¬ ShowsNoFailure attributes := by
  have hpasses {tag : String} (htotal : total? (totalReport tag).toList = some tag.toList)
      (hcount : count "fail" tag.toList = 0) (hshows : ¬ ShowsNoFailure tag.toList) :
      ∃ r attributes, read? (totalReport tag) = some r ∧ r.success = true ∧
        total? (totalReport tag).toList = some attributes ∧ ¬ ShowsNoFailure attributes := by
    obtain ⟨r, hread, hfailed⟩ := exists_read?_of_total? htotal
    refine ⟨r, _, hread, ?_, htotal, hshows⟩
    rw [success, hfailed, hcount]
    rfl
  refine ⟨hpasses (by decide) (by decide) ?_, hpasses (by decide) (by decide) ?_⟩
  · rintro ⟨value, ⟨front, gap, gap', quote, back, htag, hbegins, -⟩, hnumeral⟩
    have hfront : front = " xfail=\"0\" fail=\"3\"".toList.take front.length := by simp [htag]
    have hrest : " xfail=\"0\" fail=\"3\"".toList.drop front.length =
        "fail".toList ++ (gap ++ '=' :: (gap' ++ quote :: (value ++ quote :: back))) := by
          simp [htag]
    have hshort : front.length < 19 := by
      have hlength : " xfail=\"0\" fail=\"3\"".toList.length = 19 := by decide
      rw [htag] at hlength
      simp only [List.length_append, List.length_cons] at hlength
      omega
    -- The name stands in two places: in the first it ends another one, behind the second there is
    -- no 0.
    have hplace : front.length = 2 ∨ front.length = 11 :=
      (by decide : ∀ k < 19,
        "fail".toList <+: " xfail=\"0\" fail=\"3\"".toList.drop k → k = 2 ∨ k = 11)
        front.length hshort ⟨_, hrest.symm⟩
    rcases hplace with hk | hk
    · rw [hk] at hfront
      exact absurd (hbegins.2 'x' (by rw [hfront]; decide)) (by decide)
    · have hzero : '0' ∈ " xfail=\"0\" fail=\"3\"".toList.drop 11 := by
        rw [← hk, hrest]
        simp [hnumeral.zero_mem]
      exact absurd hzero (by decide)
  · rintro ⟨value, ⟨front, gap, gap', quote, back, htag, -⟩, hnumeral⟩
    have hzero : '0' ∈ " pass=\"1\"".toList := by
      rw [htag]
      simp [hnumeral.zero_mem]
    exact absurd hzero (by decide)

/-- A count that is no numeral is taken for 0. -/
example : count "fail" " fail=\"-1\"".toList = 0 := by decide

end PipelineManager.Report
