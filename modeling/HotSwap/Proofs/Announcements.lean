/-
What is told about an attempt.

* `eventsOf`, `reportsOf` — what the journal shows of an attempt: the events that the
  observers were told, and the reports that the history was to keep;
* `Entry.isAbout` — the entries that they are read from;
* `Entry.isAbout_of_murmur`, `Request.isAbout_of_precedes` — what is never about the
  attempt: the ends of others, and what others ask for before their ends.
-/
import HotSwap.Proofs.Tellings

namespace HotSwap

variable {id : String} {es es' : List Entry}

/-- The event that the observers are told. -/
def Entry.event? : Entry → Option Event
  | .asked (.publish e) => some e
  | _ => none

/-- The report that the history is to keep. -/
def Entry.report? : Entry → Option UpdateReport
  | .asked (.keepReport r) => some r
  | _ => none

/-- Whether an entry is about an attempt: an event of it, or its report. -/
def Entry.isAbout (id : String) (e : Entry) : Bool :=
  e.event?.any (fun e => e.attemptId? == some id) || e.report?.any fun r => r.attemptId == id

/-- The events of an attempt, in the order in which the observers were told. -/
def eventsOf (id : String) (es : List Entry) : List Event :=
  (es.filterMap Entry.event?).filter fun e => e.attemptId? == some id

/-- The reports of an attempt that the history was to keep. -/
def reportsOf (id : String) (es : List Entry) : List UpdateReport :=
  (es.filterMap Entry.report?).filter fun r => r.attemptId == id

theorem eventsOf_append : eventsOf id (es ++ es') = eventsOf id es ++ eventsOf id es' := by
  rw [eventsOf, List.filterMap_append, List.filter_append]
  rfl

theorem reportsOf_append : reportsOf id (es ++ es') = reportsOf id es ++ reportsOf id es' := by
  rw [reportsOf, List.filterMap_append, List.filter_append]
  rfl

/-- Only entries about the attempt matter. -/
theorem eventsOf_filter : eventsOf id (es.filter (Entry.isAbout id)) = eventsOf id es := by
  induction es with
  | nil => rfl
  | cons e es ih =>
    cases hevent : e.event? with
    | none => cases hkeep : e.isAbout id <;> simp_all [eventsOf]
    | some event =>
      cases hid : event.attemptId? == some id <;> cases hkeep : e.isAbout id <;>
        simp_all [eventsOf, Entry.isAbout]

theorem reportsOf_filter : reportsOf id (es.filter (Entry.isAbout id)) = reportsOf id es := by
  induction es with
  | nil => rfl
  | cons e es ih =>
    cases hreport : e.report? with
    | none => cases hkeep : e.isAbout id <;> simp_all [reportsOf]
    | some report =>
      cases hid : report.attemptId == id <;> cases hkeep : e.isAbout id <;>
        simp_all [reportsOf, Entry.isAbout]

/-! ### What is not about an attempt -/

/-- What an attempt asks for before its end is not about any other attempt. -/
theorem Request.isAbout_of_precedes {r : Request} {own : String} (hr : r.Precedes own)
    (hown : own ≠ id) : (Entry.asked r).isAbout id = false := by
  cases r with
  | publish e =>
    have hother : ∀ other, e.attemptId? = some other → other = own := by
      cases e with
      | updateCompleted => exact hr.elim
      | _ => exact hr
    have hid : e.attemptId? ≠ some id := fun hid => hown (hother id hid).symm
    simpa [Entry.isAbout, Entry.event?, Entry.report?] using hid
  | keepReport report => exact hr.elim
  | _ => rfl

namespace Entry

theorem isAbout_of_ofFiles {e : Entry} (he : e.OfFiles) : e.isAbout id = false := by
  cases e <;> first | rfl | exact he.elim

theorem isAbout_of_murmur {e : Entry} (he : e.Murmur (· ≠ id)) : e.isAbout id = false := by
  cases e with
  | asked r =>
    cases r with
    | publish e =>
      cases e with
      | updateCompleted other =>
        have hother : other ≠ id := he
        simpa [isAbout, event?, report?, Event.attemptId?] using hother
      | _ => exact he.elim
    | keepReport report =>
      have hother : report.attemptId ≠ id := he
      simpa [isAbout, event?, report?] using hother
    | _ => exact he.elim
  | _ => rfl

theorem isAbout_answered {r : Request} {answer : Except Fault r.Answer} :
    (answered r answer).isAbout id = false := rfl

end Entry

end HotSwap
