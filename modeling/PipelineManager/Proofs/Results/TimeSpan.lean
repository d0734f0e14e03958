import PipelineManager.Proofs.Results.StatusTags
import PipelineManager.Proofs.Time.Chronology

/-!
# The time that a test spans

A report starts with the earliest readable start and ends with the latest readable end of the
status tags in front of its statistics. Both are taken from the set of these tags, so that their
order and what follows them does not matter, and with a further tag the start is no later
and the end no earlier.
-/

namespace PipelineManager.Report

variable {text text' : String} {r r' : Report} {m : Moment}

/-- Whether a moment is a readable time of a report: one that the first attribute of a name has for
its value, in a status tag in front of the statistics. -/
def HasTime (name text : String) (m : Moment) : Prop :=
  ∃ attributes value, HasStatusTag (body text.toList) attributes ∧
    IsFirstValue false name.toList attributes value ∧ Moment.read? value = some m

/-- The moments that are read are the times of the status tags. -/
theorem mem_moments_iff {name : String} : m ∈ moments name text.toList ↔ HasTime name text m := by
  simp only [moments, List.mem_filterMap, mem_statusTags_iff, moment?, Option.bind_eq_some_iff,
    attribute?_eq_some_iff, HasTime]
  constructor
  · rintro ⟨attributes, htag, value, hvalue, hread⟩
    exact ⟨attributes, value, htag, hvalue, hread⟩
  · rintro ⟨attributes, value, htag, hvalue, hread⟩
    exact ⟨attributes, htag, value, hvalue, hread⟩

/-- The times of a report are in range. -/
theorem HasTime.inRange {name : String} (h : HasTime name text m) : m.InRange := by
  obtain ⟨_, _, _, _, hread⟩ := h
  exact Moment.inRange_of_read? hread

/-- A report with more status tags has more times. -/
theorem HasTime.mono {name : String} (h : HasTime name text m)
    (htags : ∀ attributes,
      HasStatusTag (body text.toList) attributes → HasStatusTag (body text'.toList) attributes) :
    HasTime name text' m := by
  obtain ⟨attributes, value, htag, hvalue, hread⟩ := h
  exact ⟨attributes, value, htags attributes htag, hvalue, hread⟩

/-- A report spans the readable times of its status tags. -/
structure Spans (text : String) (r : Report) : Prop where
  start : Moment.IsEarliest (HasTime "starttime" text) r.startedAt
  finish : Moment.IsLatest (HasTime "endtime" text) r.endedAt

/-- A report that is read spans the times of its status tags. -/
theorem spans_of_read? (h : read? text = some r) : Spans text r := by
  obtain ⟨attributes, -, hr⟩ := Option.bind_eq_some_iff.mp h
  obtain rfl := Option.some.inj hr
  have hrange (name : String) : ∀ m ∈ moments name text.toList, m.InRange :=
    fun m hm => (mem_moments_iff.mp hm).inRange
  exact ⟨(Moment.isEarliest_earliest? (hrange _)).congr fun _ => mem_moments_iff,
    (Moment.isLatest_latest? (hrange _)).congr fun _ => mem_moments_iff⟩

/-- The same status tags span the same time. -/
theorem Spans.eq (h : Spans text r) (h' : Spans text' r')
    (htags : ∀ attributes,
      HasStatusTag (body text'.toList) attributes ↔ HasStatusTag (body text.toList) attributes) :
    r'.startedAt = r.startedAt ∧ r'.endedAt = r.endedAt := by
  have htime (name : String) (m : Moment) : HasTime name text' m ↔ HasTime name text m :=
    ⟨fun hm => hm.mono fun attributes => (htags attributes).mp,
      fun hm => hm.mono fun attributes => (htags attributes).mpr⟩
  constructor
  · exact (h'.start.congr (htime _)).unique
      (fun a b ha hb hab hba => Moment.eq_of_not_before ha.inRange hb.inRange hab hba) h.start
  · exact (h'.finish.congr (htime _)).unique
      (fun a b ha hb hab hba => Moment.eq_of_not_before ha.inRange hb.inRange hba hab) h.finish

/-- Whether a report starts no later and ends no earlier than another one, where that has
such times. -/
structure Covers (r' r : Report) : Prop where
  start : ∀ m, r.startedAt = some m → ∃ m', r'.startedAt = some m' ∧ ¬ m.Before m'
  finish : ∀ m, r.endedAt = some m → ∃ m', r'.endedAt = some m' ∧ ¬ m'.Before m

/-- More status tags span more time. -/
theorem Spans.covers (h : Spans text r) (h' : Spans text' r')
    (htags : ∀ attributes,
      HasStatusTag (body text.toList) attributes → HasStatusTag (body text'.toList) attributes) :
    Covers r' r := by
  obtain ⟨hstart, hfinish⟩ := h
  constructor
  · intro m hm
    rw [hm] at hstart
    exact hstart.mono (fun _ htime => htime.mono htags) h'.start
  · intro m hm
    rw [hm] at hfinish
    exact hfinish.mono (fun _ htime => htime.mono htags) h'.finish

/-- The body of a report ends in front of its statistics. -/
theorem body_append_statistics (front rest rest' : String) :
    body (front ++ "<statistics>" ++ rest').toList =
      body (front ++ "<statistics>" ++ rest).toList := by
  rw [String.toList_append, String.toList_append, String.toList_append, String.toList_append]
  exact Text.before_append_piece front.toList statisticsMark rest.toList rest'.toList

/-- A report starts with the earliest readable start and ends with the latest readable end of
the status tags in front of its statistics, and has none where none is readable. Texts with
the same such tags, in whatever order, give the same times, and so do texts that differ from
the first statistics on. With a further tag between the others the start is no later
and the end no earlier. -/
theorem times_span_status_tags (h : read? text = some r) :
    Moment.IsEarliest (HasTime "starttime" text) r.startedAt ∧
    Moment.IsLatest (HasTime "endtime" text) r.endedAt ∧
    (∀ text' r', read? text' = some r' →
      (∀ attributes,
        HasStatusTag (body text'.toList) attributes ↔ HasStatusTag (body text.toList) attributes) →
      r'.startedAt = r.startedAt ∧ r'.endedAt = r.endedAt) ∧
    (∀ front rest rest' r', text = front ++ "<statistics>" ++ rest →
      read? (front ++ "<statistics>" ++ rest') = some r' →
      r'.startedAt = r.startedAt ∧ r'.endedAt = r.endedAt) ∧
    ∀ front back attributes text' r', body text.toList = front ++ back → IsBetweenTags front back →
      body text'.toList = front ++ (statusMark ++ attributes ++ '>' :: back) →
      read? text' = some r' →
      Covers r' r := by
  have hspans := spans_of_read? h
  refine ⟨hspans.start, hspans.finish, fun text' r' h' htags => hspans.eq (spans_of_read? h') htags,
    ?_, ?_⟩
  · rintro front rest rest' r' rfl h'
    refine hspans.eq (spans_of_read? h') fun attributes => ?_
    rw [body_append_statistics front rest rest']
  · intro front back attributes text' r' hbody hplace hbody' h'
    refine hspans.covers (spans_of_read? h') fun other hother => ?_
    rw [hbody] at hother
    rw [hbody']
    exact hother.insert hplace (statusMark ++ attributes)

/-- The attributes of a status tag without a readable end. -/
def openEnded : String := " starttime=\"20240105 1:0:2\" endtime=\"-\""

/-- The attributes of a status tag with a readable start and a readable end. -/
def closedSpan : String := " starttime=\"20240105 1:0:1\" endtime=\"20240105 1:0:5\""

/-- A report with two status tags. -/
def twoSpans (statistics : String) : String :=
  "<status" ++ openEnded ++ "><status" ++ closedSpan ++ ">" ++ "<statistics>" ++ statistics

/-- The status tags of the report with two spans. -/
theorem statusTags_twoSpans :
    statusTags (body (twoSpans "<total><stat>").toList) =
      [openEnded.toList, closedSpan.toList] := by
  have hbody : body (twoSpans "<total><stat>").toList =
      statusMark ++
          (openEnded.toList ++ '>' :: (statusMark ++ (closedSpan.toList ++ '>' :: []))) := by
    simp only [twoSpans, openEnded, closedSpan, String.toList_append]
    decide +kernel
  rw [hbody, statusTags_of_here (statusHere?_eq_some_iff.mpr ⟨rfl, by decide, by decide⟩),
    statusTags_of_here (statusHere?_eq_some_iff.mpr ⟨rfl, by decide, by decide⟩), statusTags]

/-- The times of the report with two spans, whatever its statistics. -/
theorem times_span_status_tags_two :
    ∃ r, read? (twoSpans "<total><stat>") = some r ∧
      r.startedAt = some ⟨2024, 1, 5, 1, 0, 1, 0⟩ ∧ r.endedAt = some ⟨2024, 1, 5, 1, 0, 5, 0⟩ ∧
      Moment.IsEarliest (HasTime "starttime" (twoSpans "<total><stat>")) r.startedAt ∧
      Moment.IsLatest (HasTime "endtime" (twoSpans "<total><stat>")) r.endedAt ∧
      ∀ statistics r', read? (twoSpans statistics) = some r' →
        r'.startedAt = r.startedAt ∧ r'.endedAt = r.endedAt := by
  have htotal : total? (twoSpans "<total><stat>").toList = some [] := by
    simp only [twoSpans, openEnded, closedSpan, String.toList_append]
    decide +kernel
  have hstart : moments "starttime" (twoSpans "<total><stat>").toList =
      [⟨2024, 1, 5, 1, 0, 2, 0⟩, ⟨2024, 1, 5, 1, 0, 1, 0⟩] := by
    rw [moments, statusTags_twoSpans]
    decide +kernel
  have hend : moments "endtime" (twoSpans "<total><stat>").toList = [⟨2024, 1, 5, 1, 0, 5, 0⟩] := by
    rw [moments, statusTags_twoSpans]
    decide +kernel
  have hread : read? (twoSpans "<total><stat>") =
      some ⟨0, 0, some ⟨2024, 1, 5, 1, 0, 1, 0⟩, some ⟨2024, 1, 5, 1, 0, 5, 0⟩⟩ := by
    rw [read?]
    simp only [htotal, hstart, hend]
    decide
  have htimes := times_span_status_tags hread
  exact ⟨_, hread, rfl, rfl, htimes.1, htimes.2.1,
    fun statistics r' => htimes.2.2.2.1 _ _ statistics r' rfl⟩

end PipelineManager.Report
