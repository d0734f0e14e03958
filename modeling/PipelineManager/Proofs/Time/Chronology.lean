import Mathlib.Data.List.MinMax
import Mathlib.Data.Int.Order.Basic
import PipelineManager.Time.Moment

/-!
# The order of moments

Moments are ordered by their numbers, from the year down. The rank of a moment agrees with that
order for moments whose numbers are in range, as those of every moment that is read are. The
earliest and the latest of some moments depend only on which moments there are.
-/

namespace PipelineManager.Moment

variable {a b m : Moment} {ms : List Moment}

/-! ## The order and the rank -/

/-- The numbers of a moment, from the year down. -/
def numbers (m : Moment) : List Int :=
  [m.year, m.month, m.day, m.hour, m.minute, m.second, m.nanosecond]

/-- Whether a moment comes before another: the first number in which they differ is smaller. -/
def Before (a b : Moment) : Prop := a.numbers < b.numbers

instance (a b : Moment) : Decidable (a.Before b) :=
  inferInstanceAs (Decidable (a.numbers < b.numbers))

/-- Whether each number behind the year is one of a calendar and a clock. -/
structure InRange (m : Moment) : Prop where
  month : m.month < 13
  day : m.day < 32
  hour : m.hour < 24
  minute : m.minute < 60
  second : m.second < 61
  nanosecond : m.nanosecond < 1000000000

/-- A month has at most 31 days. -/
theorem daysOf_le (year : Int) (month : Nat) : Calendar.daysOf year month ≤ 31 := by
  unfold Calendar.daysOf
  split
  · split <;> omega
  · split
    · omega
    · split <;> omega

/-- There is no day behind the last month. -/
theorem daysOf_eq_zero (year : Int) {month : Nat} (h : 13 ≤ month) :
    Calendar.daysOf year month = 0 := by
  unfold Calendar.daysOf
  rw [if_neg (by omega), if_neg (by omega), if_neg (by omega)]

/-- A valid moment has its parts in range. -/
theorem inRange_of_isValid (h : m.isValid = true) : m.InRange := by
  simp only [isValid, Bool.and_eq_true, decide_eq_true_eq] at h
  obtain ⟨⟨⟨⟨⟨⟨⟨-, -⟩, hday⟩, hdays⟩, hhour⟩, hminute⟩, hsecond⟩, hnanosecond⟩ := h
  have hmonth : m.month < 13 := by
    by_contra hmonth
    have hzero := daysOf_eq_zero m.year (not_lt.mp hmonth)
    omega
  have hle := daysOf_le m.year m.month
  exact ⟨hmonth, by omega, hhour, hminute, by omega, hnanosecond⟩

/-- What is read is a day of the calendar and a time of day. -/
theorem inRange_of_read? {cs : List Char} (h : read? cs = some m) : m.InRange := by
  simp only [read?, Option.bind_eq_bind, Option.bind_eq_some_iff] at h
  obtain ⟨_, _, _, _, _, _, _, _, _, _, _, _, _, _, h⟩ := h
  split at h
  · next hvalid =>
    obtain rfl := Option.some.inj h
    exact inRange_of_isValid (Bool.and_eq_true_iff.mp hvalid).2
  · cases h

/-- The numbers in range are the digits of the rank, each to its own base. -/
theorem rank_lt_iff (ha : a.InRange) (hb : b.InRange) : a.rank < b.rank ↔ a.Before b := by
  obtain ⟨_, _, _, _, _, _⟩ := ha
  obtain ⟨_, _, _, _, _, _⟩ := hb
  simp only [rank, Before, numbers, List.cons_lt_cons_iff, List.not_lt_nil, and_false, or_false]
  omega

/-- A leap second comes before the next minute. -/
example : (⟨2016, 12, 31, 23, 59, 60, 0⟩ : Moment).Before ⟨2017, 1, 1, 0, 0, 0, 0⟩ := by decide

/-- Moments in range are determined by their ranks. -/
theorem eq_of_rank_eq (ha : a.InRange) (hb : b.InRange) (h : a.rank = b.rank) : a = b := by
  obtain ⟨_, _, _, _, _, _⟩ := ha
  obtain ⟨_, _, _, _, _, _⟩ := hb
  have hnumbers : a.year = b.year ∧ a.month = b.month ∧ a.day = b.day ∧ a.hour = b.hour ∧
      a.minute = b.minute ∧ a.second = b.second ∧ a.nanosecond = b.nanosecond := by
    simp only [rank] at h
    omega
  cases a
  cases b
  simpa only [mk.injEq] using hnumbers

/-- Of two different moments in range, one is before the other. -/
theorem eq_of_not_before (ha : a.InRange) (hb : b.InRange) (hab : ¬ a.Before b)
    (hba : ¬ b.Before a) : a = b := by
  rw [← rank_lt_iff ha hb] at hab
  rw [← rank_lt_iff hb ha] at hba
  exact eq_of_rank_eq ha hb (by omega)

/-! ## The first of some moments -/

/-- Whether an optional moment is the first of those with a property, in an order of moments. It is
missing when no moment has the property. -/
def IsFirstIn (before : Moment → Moment → Prop) (P : Moment → Prop) : Option Moment → Prop
  | none => ∀ m, ¬ P m
  | some m => P m ∧ ∀ other, P other → ¬ before other m

/-- Whether an optional moment is the earliest of those with a property. -/
def IsEarliest (P : Moment → Prop) : Option Moment → Prop := IsFirstIn Before P

/-- Whether an optional moment is the latest of those with a property. -/
def IsLatest (P : Moment → Prop) : Option Moment → Prop := IsFirstIn (fun a b => b.Before a) P

namespace IsFirstIn

variable {before : Moment → Moment → Prop} {P Q : Moment → Prop} {o o' : Option Moment}

/-- The first moment depends only on which moments there are. -/
theorem congr (h : IsFirstIn before P o) (hPQ : ∀ m, P m ↔ Q m) : IsFirstIn before Q o := by
  obtain rfl : P = Q := funext fun m => propext (hPQ m)
  exact h

/-- Moments of which neither is before the other being equal, there is only one first. -/
theorem unique (htotal : ∀ a b, P a → P b → ¬ before a b → ¬ before b a → a = b)
    (h : IsFirstIn before P o) (h' : IsFirstIn before P o') : o = o' := by
  cases o with
  | none =>
    cases o' with
    | none => rfl
    | some b => exact absurd h'.1 (h b)
  | some a =>
    cases o' with
    | none => exact absurd h.1 (h' a)
    | some b => rw [htotal a b h.1 h'.1 (h'.2 a h.1) (h.2 b h'.1)]

/-- With more moments the first one does not come after what it was. -/
theorem mono (h : IsFirstIn before P (some m)) (hPQ : ∀ m, P m → Q m) (h' : IsFirstIn before Q o') :
    ∃ b, o' = some b ∧ ¬ before m b := by
  cases o' with
  | none => exact absurd (hPQ m h.1) (h' m)
  | some b => exact ⟨b, rfl, h'.2 m (hPQ m h.1)⟩

end IsFirstIn

/-- A fold that keeps the first of the moments with the least key. -/
theorem foldl_mem_argmin {β : Type} [Preorder β] [DecidableLT β] (key : Moment → β) (m : Moment)
    (ms : List Moment) :
    ms.foldl (fun a b => if key b < key a then b else a) m ∈ (m :: ms).argmin key := by
  induction ms using List.reverseRecOn with
  | nil => rfl
  | append_singleton ms b ih =>
    rw [← List.cons_append, List.argmin_concat, Option.mem_def.mp ih, List.foldl_append,
      List.foldl_cons, List.foldl_nil]
    dsimp only
    split <;> rfl

/-- Where a smaller key is what comes before, the moment that is kept is the first of all. -/
theorem isFirstIn_foldl {before : Moment → Moment → Prop} (key : Moment → Int)
    (hkey : ∀ a ∈ m :: ms, ∀ b ∈ m :: ms, before a b → key a < key b) :
    IsFirstIn before (· ∈ m :: ms)
      (some (ms.foldl (fun a b => if key b < key a then b else a) m)) := by
  have hleast := foldl_mem_argmin key m ms
  have hmem := List.argmin_mem hleast
  refine ⟨hmem, fun other hother hbefore => ?_⟩
  exact absurd (hkey other hother _ hmem hbefore) (not_lt.mpr (List.le_of_mem_argmin hother hleast))

/-- The earliest of moments in range is found. -/
theorem isEarliest_earliest? (h : ∀ m ∈ ms, m.InRange) : IsEarliest (· ∈ ms) (earliest? ms) := by
  cases ms with
  | nil => exact fun m => List.not_mem_nil
  | cons m ms => exact isFirstIn_foldl rank fun a ha b hb => (rank_lt_iff (h a ha) (h b hb)).mpr

/-- The latest of moments in range is found. -/
theorem isLatest_latest? (h : ∀ m ∈ ms, m.InRange) : IsLatest (· ∈ ms) (latest? ms) := by
  cases ms with
  | nil => exact fun m => List.not_mem_nil
  | cons m ms =>
    have hlater : later = fun a b => if -b.rank < -a.rank then b else a := by
      funext a b
      simp only [later, Int.neg_lt_neg_iff]
    rw [latest?, hlater]
    exact isFirstIn_foldl (fun m => -m.rank) fun a ha b hb hbefore =>
      Int.neg_lt_neg ((rank_lt_iff (h b hb) (h a ha)).mpr hbefore)

end PipelineManager.Moment
