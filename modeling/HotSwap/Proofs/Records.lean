/-
What a history holds.

A history is given reports one after another, and refuses those of an attempt that it has a
row of already.  A report in UTC is read back as it was; of any other one the outcome is read
back, but at points in time that are late by its distance from UTC.

* `History.offer`, `History.after` — a history that is given reports;
* `Store.latestFirst_perm`, `Store.latestFirst_sorted` — rows in the order of their starts;
* `History.Recorded` — what the rows of a history are, kept by each report;
* `Latest`, `History.Holds`, `History.after_holds` — what a history gives back after any
  reports in UTC;
* `History.keep_get_of_fresh` — what becomes of one report whose distance from UTC is known.
-/
import Mathlib.Data.List.Induction
import HotSwap.Proofs.Completions

namespace HotSwap

/-! ### The order of starts -/

namespace Store

variable {r : Row} {rows : List Row}

/-- One row does not start after another. -/
def NotAfter (x y : Row) : Prop := x.startedAt ≤ y.startedAt

/-- Rows go from the latest start to the earliest. -/
def Sorted (rows : List Row) : Prop := rows.Pairwise fun x y => NotAfter y x

theorem place_perm (r : Row) (rows : List Row) : (place r rows).Perm (r :: rows) := by
  induction rows with
  | nil => exact .refl _
  | cons x rest ih =>
    rw [place]
    split
    · exact .refl _
    · exact (ih.cons x).trans (.swap r x rest)

theorem Sorted.place (h : Sorted rows) : Sorted (place r rows) := by
  induction rows with
  | nil => exact List.pairwise_singleton _ _
  | cons x rest ih =>
    obtain ⟨hx, hrest⟩ := List.pairwise_cons.mp h
    rw [Store.place]
    split
    · next hle =>
      refine List.pairwise_cons.mpr ⟨fun y hy => ?_, h⟩
      rcases List.mem_cons.mp hy with rfl | hy
      · exact hle
      · exact Int.le_trans (hx y hy) hle
    · next hlt =>
      refine List.pairwise_cons.mpr ⟨fun y hy => ?_, ih hrest⟩
      rcases List.mem_cons.mp ((place_perm r rest).mem_iff.mp hy) with rfl | hy
      · exact Int.le_of_lt (Int.not_le.mp hlt)
      · exact hx y hy

private theorem foldl_place (rows : List Row) : ∀ {sorted : List Row}, Sorted sorted →
    (rows.foldl (fun sorted r => place r sorted) sorted).Perm (rows ++ sorted) ∧
      Sorted (rows.foldl (fun sorted r => place r sorted) sorted) := by
  induction rows with
  | nil => exact fun h => ⟨.refl _, h⟩
  | cons r rows ih =>
    intro sorted h
    obtain ⟨hperm, hsorted⟩ := ih h.place
    refine ⟨hperm.trans ?_, hsorted⟩
    calc (rows ++ place r sorted).Perm (rows ++ r :: sorted) :=
          (place_perm r sorted).append_left rows
      _ |>.Perm (r :: (rows ++ sorted)) := List.perm_middle

/-- Nothing is lost when rows are put in order. -/
theorem latestFirst_perm (s : Store) : s.latestFirst.Perm s.rows := by
  simpa [latestFirst] using (foldl_place s.rows List.Pairwise.nil).1

theorem latestFirst_sorted (s : Store) : Sorted s.latestFirst :=
  (foldl_place s.rows List.Pairwise.nil).2

theorem get?_eq_none {s : Store} {id : String} :
    s.get? id = none ↔ ∀ row ∈ s.rows, row.attemptId ≠ id := by
  simp [get?]

theorem mem_of_get? {s : Store} {id : String} {row : Row} (h : s.get? id = some row) :
    row ∈ s.rows ∧ row.attemptId = id := by
  have hid := List.find?_some h
  exact ⟨List.mem_of_find?_eq_some h, by simpa using hid⟩

/-- A row goes in behind the others, unless there is one of its attempt. -/
theorem insert_eq (s : Store) (row : Row) : s.insert row =
    if (s.get? row.attemptId).isSome then .error .duplicate
    else .ok { rows := s.rows ++ [row] } := by
  rw [insert]
  cases s.get? row.attemptId <;> rfl

end Store

/-! ### Histories that are given reports -/

namespace History

/-- Gives a report to a history: whether that is refused, and the history then.  A report
that is refused leaves the history as it was. -/
def offer (h : History) (r : UpdateReport) : Except HistoryError Unit × History :=
  match h.keep r with
  | .ok h' => (.ok (), h')
  | .error e => (.error e, h)

/-- A new history that has been given some reports, one after another. -/
def after (reports : List UpdateReport) : History :=
  reports.foldl (fun h r => (h.offer r).2) {}

/-- All records that a history could give back. -/
def records (h : History) : List AttemptRecord :=
  match h.store with
  | some s => s.rows.map (·.toRecord)
  | none => []

/-- The rows of a history are those of some reports: there is one of each attempt, and it is
that of the first report of the attempt. -/
def Recorded (h : History) (reports : List UpdateReport) : Prop :=
  ∃ s : Store, h.store = some s ∧ (s.rows.map Row.attemptId).Nodup ∧
    ∀ id, s.get? id = (reports.find? fun r => r.attemptId == id).map Row.ofReport

section

variable {h : History} {s : Store} {r : UpdateReport} {reports : List UpdateReport}
  {id : String} (hs : h.store = some s)

include hs

theorem get_of_open : h.get id = .ok ((s.get? id).map (·.toRecord)) := by
  rw [get, opened, hs]
  rfl

theorem recent_of_open {limit : Int} (hlow : 1 ≤ limit) (hhigh : limit ≤ greatestLimit) :
    h.recent limit = .ok ((s.recent limit.toNat).map (·.toRecord)) := by
  rw [recent, if_neg (Int.not_lt.mpr hlow), opened, hs]
  show (if greatestLimit < limit then _ else _) = _
  rw [if_neg (Int.not_lt.mpr hhigh)]
  rfl

theorem keep_of_open : h.keep r = if (s.get? r.attemptId).isSome then .error .duplicate
    else .ok { store := some { rows := s.rows ++ [.ofReport r] } } := by
  rw [keep, opened, hs]
  show (s.insert (.ofReport r)).bind _ = _
  rw [Store.insert_eq, show (Row.ofReport r).attemptId = r.attemptId from rfl]
  split <;> rfl

theorem offer_of_open : h.offer r = if (s.get? r.attemptId).isSome then (.error .duplicate, h)
    else (.ok (), { store := some { rows := s.rows ++ [.ofReport r] } }) := by
  rw [offer, keep_of_open hs]
  cases (s.get? r.attemptId).isSome <;> rfl

end

section

variable {h : History} {reports : List UpdateReport}

/-- A report is kept or, if there is a row of its attempt, refused. -/
theorem Recorded.offer (hrecorded : h.Recorded reports) (r : UpdateReport) :
    (h.offer r).2.Recorded (reports ++ [r]) := by
  obtain ⟨s, hs, hkeyed, hfirst⟩ := hrecorded
  rw [offer_of_open hs]
  cases hget : s.get? r.attemptId with
  | some row =>
    refine ⟨s, hs, hkeyed, fun id => ?_⟩
    rw [hfirst, List.find?_append]
    cases hfind : reports.find? fun r => r.attemptId == id with
    | some _ => rfl
    | none =>
      have hid : r.attemptId ≠ id := by
        rintro rfl
        rw [hfirst, hfind] at hget
        cases hget
      simp [hid]
  | none =>
    refine ⟨{ rows := s.rows ++ [.ofReport r] }, rfl, ?_, fun id => ?_⟩
    · rw [List.map_append, List.nodup_append]
      refine ⟨hkeyed, List.pairwise_singleton _ _, fun id hid id' hid' => ?_⟩
      obtain ⟨row, hrow, rfl⟩ := List.mem_map.mp hid
      obtain rfl : id' = (Row.ofReport r).attemptId := by simpa using hid'
      exact Store.get?_eq_none.mp hget row hrow
    · have hold := hfirst id
      rw [Store.get?] at hold ⊢
      rw [List.find?_append, List.find?_append, hold]
      cases reports.find? fun r => r.attemptId == id with
      | some _ => rfl
      | none => by_cases hid : r.attemptId = id <;> simp [Row.ofReport, hid]

theorem recorded_after (reports : List UpdateReport) : (after reports).Recorded reports := by
  induction reports using List.reverseRecOn with
  | nil => exact ⟨{}, rfl, .nil, fun _ => rfl⟩
  | append_singleton reports r ih =>
    rw [after, List.foldl_concat]
    exact ih.offer r

end

end History

/-! ### What a history gives back -/

/-- Both stamps of a report are in UTC. -/
def UpdateReport.InUtc (r : UpdateReport) : Prop :=
  r.startedAt.offset = some 0 ∧ r.completedAt.offset = some 0

theorem Stamp.utc_wall {s : Stamp} (h : s.offset = some 0) : utc s.wall = s := by
  rw [utc, ← h]

/-- A report in UTC is read back as it was. -/
theorem UpdateReport.InUtc.toRecord {r : UpdateReport} (h : r.InUtc) :
    (Row.ofReport r).toRecord = r.record := by
  simp [Row.ofReport, Row.toRecord, record, Stamp.utc_wall h.1, Stamp.utc_wall h.2]

/-- A stamp names a point in time that is not after that of another one. -/
def Stamp.NotAfter (s t : Stamp) : Prop :=
  ∃ i j, s.instant = some i ∧ t.instant = some j ∧ i ≤ j

theorem Row.notAfter_toRecord {x y : Row} (h : Store.NotAfter x y) :
    x.toRecord.startedAt.NotAfter y.toRecord.startedAt :=
  ⟨x.startedAt, y.startedAt, congrArg some (Int.sub_zero _), congrArg some (Int.sub_zero _), h⟩

/-- Some records are the latest of those that are stored, as many as the limit allows. -/
structure Latest (limit : Nat) (stored latest : List AttemptRecord) : Prop where
  count : latest.length = min limit stored.length
  distinct : (latest.map (·.attemptId)).Nodup
  sorted : latest.Pairwise fun x y => y.startedAt.NotAfter x.startedAt
  /-- Together with those that are left out, they are all that is stored. -/
  rest : ∃ omitted, (latest ++ omitted).Perm stored ∧
    ∀ x ∈ latest, ∀ y ∈ omitted, y.startedAt.NotAfter x.startedAt

/-- What a history answers that has been given some reports. -/
structure History.Holds (h : History) (reports : List UpdateReport) : Prop where
  refuses : ∀ r, (∃ e, (h.offer r).1 = .error e) ↔
    ∃ record ∈ h.records, record.attemptId = r.attemptId
  unchanged : ∀ r e, (h.offer r).1 = .error e → e = .duplicate ∧ (h.offer r).2 = h
  first : ∀ id, h.get id = .ok ((reports.find? fun r => r.attemptId == id).map (·.record))
  latest : ∀ limit, 1 ≤ limit → limit ≤ greatestLimit →
    ∃ latest, h.recent limit = .ok latest ∧ Latest limit.toNat h.records latest

theorem Store.latest_recent (s : Store) (hkeyed : (s.rows.map Row.attemptId).Nodup)
    (limit : Nat) :
    Latest limit (s.rows.map (·.toRecord)) ((s.recent limit).map (·.toRecord)) := by
  have hsplit : s.recent limit ++ s.latestFirst.drop limit = s.latestFirst :=
    List.take_append_drop limit s.latestFirst
  have hsorted := s.latestFirst_sorted
  have hdistinct := (s.latestFirst_perm.map Row.attemptId).nodup_iff.mpr hkeyed
  rw [← hsplit] at hsorted hdistinct
  obtain ⟨hrecent, -, hacross⟩ := List.pairwise_append.mp hsorted
  rw [List.map_append] at hdistinct
  refine ⟨?_, ?_, List.pairwise_map.mpr (hrecent.imp Row.notAfter_toRecord),
    (s.latestFirst.drop limit).map (·.toRecord), ?_, fun x hx y hy => ?_⟩
  · rw [List.length_map, List.length_map, recent, List.length_take,
      s.latestFirst_perm.length_eq]
  · rw [List.map_map]
    exact (List.nodup_append.mp hdistinct).1
  · rw [← List.map_append, hsplit]
    exact s.latestFirst_perm.map _
  · obtain ⟨row, hrow, rfl⟩ := List.mem_map.mp hx
    obtain ⟨row', hrow', rfl⟩ := List.mem_map.mp hy
    exact Row.notAfter_toRecord (hacross row hrow row' hrow')

namespace History

/-- **What a history holds.**  After any reports in UTC a history refuses just those of
attempts that it has a record of, and stays as it is; it gives back the first report of each
attempt, and the latest ones. -/
theorem after_holds (reports : List UpdateReport) (hutc : ∀ r ∈ reports, r.InUtc) :
    (after reports).Holds reports := by
  obtain ⟨s, hs, hkeyed, hfirst⟩ := recorded_after reports
  generalize after reports = h at hs
  have hrecords : h.records = s.rows.map (·.toRecord) := by rw [records, hs]
  refine ⟨fun r => ?_, fun r e he => ?_, fun id => ?_, fun limit hlow hhigh => ?_⟩
  · rw [offer_of_open hs, hrecords]
    cases hget : s.get? r.attemptId with
    | some row =>
      obtain ⟨hrow, hid⟩ := Store.mem_of_get? hget
      exact iff_of_true ⟨_, rfl⟩ ⟨row.toRecord, List.mem_map_of_mem hrow, hid⟩
    | none =>
      refine iff_of_false (by simp) ?_
      rintro ⟨record, hrecord, hid⟩
      obtain ⟨row, hrow, rfl⟩ := List.mem_map.mp hrecord
      exact Store.get?_eq_none.mp hget row hrow hid
  · rw [offer_of_open hs] at he ⊢
    split at he
    · next hsome => exact ⟨(Except.error.inj he).symm, by rw [if_pos hsome]⟩
    · cases he
  · rw [get_of_open hs, hfirst, Option.map_map]
    refine congrArg _ (Option.map_congr fun r hr => ?_)
    exact (hutc r (List.mem_of_find?_eq_some hr)).toRecord
  · rw [recent_of_open hs hlow hhigh, hrecords]
    exact ⟨_, rfl, s.latest_recent hkeyed _⟩

end History

/-- A report of an attempt that has succeeded within one second. -/
def Sample.report (attemptId : String) (start : Stamp) : UpdateReport where
  attemptId
  state := .running
  candidateDigest := ""
  startedAt := start
  completedAt := { start with wall := start.wall + 1000000 }

/-- Two attempts that have started at once, and another report of the first one. -/
def Sample.reports : List UpdateReport :=
  [Sample.report "a" (.utc 7), Sample.report "b" (.utc 7), Sample.report "a" (.utc 9)]

theorem History.after_holds_reports :
    (∀ r ∈ Sample.reports, r.InUtc) ∧ (after Sample.reports).Holds Sample.reports :=
  have hutc : ∀ r ∈ Sample.reports, r.InUtc := by
    simp [Sample.reports, Sample.report, UpdateReport.InUtc, Stamp.utc]
  ⟨hutc, after_holds _ hutc⟩

example : (History.after Sample.reports).recent 5 =
    .ok [(Sample.report "b" (.utc 7)).record, (Sample.report "a" (.utc 7)).record] := by
  rfl

/-! ### Distances from UTC -/

namespace Stamp

variable {s : Stamp} {offset : Int} (h : s.offset = some offset)

include h

/-- A wall-clock reading that is taken as UTC is late by its distance from UTC. -/
theorem instant_utc_wall : (utc s.wall).instant = s.instant.map (· + offset) := by
  simp [instant, utc, h]

theorem instant_utc_wall_eq_iff : (utc s.wall).instant = s.instant ↔ s.offset = some 0 := by
  rw [instant_utc_wall h, instant, h]
  simp only [Option.map_some, Option.some.injEq]
  omega

end Stamp

/-- A record, its points in time left out. -/
def AttemptRecord.timeless (record : AttemptRecord) : AttemptRecord :=
  { record with startedAt := .utc 0, completedAt := .utc 0 }

/-- **What becomes of a report.**  A report of an attempt that a history has no row of is kept
and read back with its outcome, but at points in time that are late by its distances from UTC:
they are those of the report only if it is in UTC. -/
theorem History.keep_get_of_fresh {h : History} {r : UpdateReport} {start completion : Int}
    (hfresh : h.get r.attemptId = .ok none) (hstart : r.startedAt.offset = some start)
    (hcompletion : r.completedAt.offset = some completion) :
    ∃ h' record, h.keep r = .ok h' ∧ h'.get r.attemptId = .ok (some record) ∧
      record.timeless = r.record.timeless ∧
      record.startedAt.instant = r.startedAt.instant.map (· + start) ∧
      record.completedAt.instant = r.completedAt.instant.map (· + completion) ∧
      (record.startedAt.instant = r.startedAt.instant ∧
        record.completedAt.instant = r.completedAt.instant ↔ r.InUtc) := by
  obtain ⟨_ | s⟩ := h
  · cases hfresh
  · have hnone : s.get? r.attemptId = none := by
      simpa [get_of_open rfl] using hfresh
    have hkeep : History.keep { store := some s } r =
        .ok { store := some { rows := s.rows ++ [.ofReport r] } } := by
      rw [keep_of_open rfl, hnone]
      rfl
    exact ⟨_, _, hkeep, get_of_keep hkeep, rfl, Stamp.instant_utc_wall hstart,
      Stamp.instant_utc_wall hcompletion,
      and_congr (Stamp.instant_utc_wall_eq_iff hstart) (Stamp.instant_utc_wall_eq_iff hcompletion)⟩

/-- One hour after UTC. -/
def Sample.hourLate : Stamp := { wall := 3600000007, offset := some 3600000000 }

theorem History.keep_get_of_fresh_hourLate :
    ∃ h' record, History.keep {} (Sample.report "a" Sample.hourLate) = .ok h' ∧
      h'.get "a" = .ok (some record) ∧
      record.timeless = (Sample.report "a" Sample.hourLate).record.timeless ∧
      record.startedAt.instant = some 3600000007 ∧
      record.completedAt.instant = some 3601000007 ∧
      (record.startedAt.instant = some 7 ∧ record.completedAt.instant = some 1000007 ↔
        (Sample.report "a" Sample.hourLate).InUtc) :=
  keep_get_of_fresh (h := {}) (r := Sample.report "a" Sample.hourLate) rfl rfl rfl

end HotSwap
