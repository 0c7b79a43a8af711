/-
How updates conclude.

An update returns a report, tells of its end exactly once and last of all, and has its
report kept once, whatever goes wrong; and however it exits, it gives the desk back.

* `Concluded` — an attempt has ended as its report says, in all that was told;
* `UpdateReport.record` — what a history gives back for a report;
* `Updater.ends_apply_concluded` — an update concludes as its report says;
* `Updater.ends_apply_atRest`, `Updater.ends_apply_accepted` — it leaves the desk free, and
  on a free desk an update is accepted.
-/
import HotSwap.History.Store
import HotSwap.Proofs.Announcements

namespace HotSwap

open Act

variable {σ : Type} {w w' : World σ} {link : Link σ} {plan : UpdatePlan} {id : String}
  {es es' : List Entry} {report : UpdateReport}

/-! ### What is told in the end -/

/-- Whether an event is the end of an attempt. -/
def Event.isEnd : Event → Bool
  | .updateCompleted .. => true
  | _ => false

/-- What a history gives back for a report. -/
def UpdateReport.record (r : UpdateReport) : AttemptRecord where
  attemptId := r.attemptId
  startedAt := r.startedAt
  completedAt := r.completedAt
  state := r.state
  digest := r.candidateDigest
  drainForced := r.drainForced
  failedPhase := r.failedPhase
  failureKind := r.failureKind
  error := r.error
  rollbackError := r.rollbackError

/-- An attempt has ended as its report says, in all that was told: its end was told
once, after every other event of it; the history was to keep the report once, and a
history that does keep it gives it back. -/
structure Concluded (plan : UpdatePlan) (report : UpdateReport) (es : List Entry) : Prop where
  told : ∃ before duration, report.duration = .ok duration ∧
    eventsOf report.attemptId es = before ++ [.updateCompleted report.attemptId report.state
      report.succeeded duration report.failureKind] ∧ ∀ e ∈ before, e.isEnd = false
  kept : reportsOf report.attemptId es = if plan.keepsReports then [report] else []
  readBack : ∀ history history' : History, history.keep report = .ok history' →
    history'.get report.attemptId = .ok (some report.record)

/-! ### Histories -/

/-- A row that goes into a store is found there. -/
theorem Store.get?_of_insert {s s' : Store} {r : Row} (h : s.insert r = .ok s') :
    s'.get? r.attemptId = some r := by
  rw [insert] at h
  split at h
  · cases h
  · next hnone =>
    obtain rfl := Except.ok.inj h
    rw [get?] at hnone ⊢
    rw [List.find?_append, hnone, Option.none_or, List.find?_cons_of_pos (by simp)]

/-- A history that keeps a report gives back its row. -/
theorem History.get_of_keep {history history' : History} {report : UpdateReport}
    (h : history.keep report = .ok history') :
    history'.get report.attemptId = .ok (some (Row.ofReport report).toRecord) := by
  obtain ⟨_ | store⟩ := history
  · cases h
  · cases hinsert : store.insert (.ofReport report) with
    | error e => simp [keep, opened, hinsert, bind, Except.bind] at h
    | ok store' =>
      obtain rfl : { store := some store' } = history' := by
        simpa [keep, opened, hinsert, bind, Except.bind, pure, Except.pure] using h
      have hrow : store'.get? report.attemptId = some (.ofReport report) :=
        Store.get?_of_insert hinsert
      simp [get, opened, hrow, bind, Except.bind, pure, Except.pure]

namespace Attempt

variable (a : Attempt) (o : Outcome) (drained : Option DrainReport) (completedAt : Int)

/-- The stamps of the report of an attempt are in UTC, so that nothing of them is
lost. -/
theorem record_report : (Row.ofReport (a.report o drained completedAt)).toRecord =
    (a.report o drained completedAt).record := rfl

theorem duration_report :
    (a.report o drained completedAt).duration = .ok (completedAt - a.startedAt) := by
  simp [report, UpdateReport.duration, Stamp.utc, Stamp.since]

end Attempt

/-! ### The end of an attempt -/

section

variable (hes : ∀ e ∈ es, ¬ e.Murmur (· = id))

include hes

/-- Where nothing is told of the end of an attempt, none of its events is the end. -/
theorem isEnd_of_mem_eventsOf {e : Event} (he : e ∈ eventsOf id es) : e.isEnd = false := by
  obtain ⟨he, heid⟩ := List.mem_filter.mp he
  obtain ⟨entry, hentry, hevent⟩ := List.mem_filterMap.mp he
  cases e with
  | updateCompleted other state succeeded duration kind =>
    have hother : other = id := by simpa [Event.attemptId?] using heid
    cases entry with
    | asked r =>
      cases r with
      | publish e =>
        obtain rfl : e = .updateCompleted other state succeeded duration kind := by
          simpa [Entry.event?] using hevent
        exact absurd hother (hes _ hentry)
      | _ => cases hevent
    | _ => cases hevent
  | _ => rfl

/-- Where nothing is told of the end of an attempt, no report of it is kept. -/
theorem reportsOf_eq_nil : reportsOf id es = [] := by
  rw [reportsOf, List.filter_eq_nil_iff]
  intro r hr hrid
  obtain ⟨entry, hentry, hreport⟩ := List.mem_filterMap.mp hr
  cases entry with
  | asked request =>
    cases request with
    | keepReport r' =>
      obtain rfl : r' = r := by simpa [Entry.report?] using hreport
      exact hes _ hentry (eq_of_beq hrid)
    | _ => cases hreport
  | _ => cases hreport

end

theorem eventsOf_conclusion {duration : Int} : eventsOf report.attemptId
    (plan.conclusion report duration) = [.updateCompleted report.attemptId report.state
      report.succeeded duration report.failureKind] := by
  rw [UpdatePlan.conclusion]
  split <;> simp [eventsOf, Entry.event?, Event.attemptId?]

theorem reportsOf_conclusion {duration : Int} : reportsOf report.attemptId
    (plan.conclusion report duration) = if plan.keepsReports then [report] else [] := by
  rw [UpdatePlan.conclusion]
  split <;> simp [reportsOf, Entry.report?, List.filterMap_cons]

/-- What an attempt tells up to its end, and then its end. -/
theorem concluded_of_filter {a : Attempt} {o : Outcome} {drained : Option DrainReport}
    {completedAt : Int} {before : List Entry}
    (hreport : report = a.report o drained completedAt)
    (hbefore : ∀ e ∈ before, ¬ e.Murmur (· = a.id))
    (hes : es.filter (Entry.isAbout a.id) = before ++
      (plan.conclusion report (completedAt - a.startedAt)).filter (Entry.isAbout a.id)) :
    Concluded plan report es := by
  have hid : report.attemptId = a.id := by rw [hreport]; rfl
  rw [← hid] at hbefore hes
  refine ⟨⟨eventsOf report.attemptId before, completedAt - a.startedAt, ?_, ?_, fun e he => ?_⟩, ?_,
    fun history history' hkeep => ?_⟩
  · rw [hreport, Attempt.duration_report]
  · rw [← eventsOf_filter, hes, eventsOf_append, eventsOf_filter, eventsOf_conclusion]
  · exact isEnd_of_mem_eventsOf hbefore he
  · rw [← reportsOf_filter, hes, reportsOf_append, reportsOf_filter, reportsOf_conclusion,
      reportsOf_eq_nil hbefore, List.nil_append]
  · rw [History.get_of_keep hkeep, hreport, Attempt.record_report]

/-! ### Updates -/

/-- Whether an entry tells the observers that an attempt starts. -/
def Entry.isStart : Entry → Bool
  | .asked (.publish (.updateStarted ..)) => true
  | _ => false

/-- The observers have been told that an attempt starts. -/
def Accepted (es : List Entry) : Prop := ∃ e ∈ es, e.isStart = true

/-- No attempt holds the desk: there is no phase, and no token. -/
def Desk.AtRest (d : Desk) : Prop := d.engaged = false ∧ d.phase = .idle ∧ d.token = none

section

variable {q : Bool → σ → Prop} {A : String → Prop}
  {L : (r : Request) → Except Fault r.Answer → Prop} {a : Attempt}
  (hlink : link.Hears q A (Entry.isAbout a.id) L)
  (hordinary : ∀ r e, L r (.error e) → e.interrupts = false)

include hlink hordinary

/-- Nothing is told of the end of an attempt before it comes. -/
theorem Attempt.framed_untold (hclose : ∀ s e, ¬ L (.closeSpan s) (.error e)) :
    a.Framed link plan
      (World.Tells q (Entry.isAbout a.id) fun l => ∀ e ∈ l, ¬ e.Murmur (· = a.id))
      (World.Silent q (Entry.isAbout a.id)) (fun e => e.interrupts = false) fun _ => False := by
  have huntold : ∀ r : Request, r.Precedes a.id → ∀ answer,
      ∀ e ∈ (r.noted answer).filter (Entry.isAbout a.id), ¬ e.Murmur (· = a.id) := by
    intro r hr answer e he
    obtain ⟨he, -⟩ := List.mem_filter.mp he
    rcases List.mem_pair.mp he with rfl | rfl
    · exact Request.not_concludes_of_precedes hr
    · exact Request.not_concludes_of_precedes hr
  refine hlink.framed hordinary (fun _ h => h) (fun _ he => he.elim)
    (fun _ _ h => h.tells (by simp)) (fun s => ?_) (fun _ => Entry.isAbout_of_ofFiles) a
    (fun r _ => huntold r) fun listens => ?_
  · exact hlink.ask_within rfl (fun _ => rfl) (hclose s)
  · exact validateAndStart_within (fun _ h => h) (hlink.keeps_tells hordinary fun r hr =>
      huntold r (Request.precedes_of_isValidation hr a.id)) _ _
      (hlink.ask_tells (hordinary _) (huntold _ trivial))

/-- An attempt ends as it says. -/
theorem Attempt.ends_finish_concluded (o : Outcome) (drained : Option DrainReport)
    (w : World σ) : (a.finish link plan o drained).Ends w
      (fun report w' => ∃ o drained completedAt, report = a.report o drained completedAt ∧
        w.Reads q (Entry.isAbout a.id) ((plan.conclusion report
          (completedAt - a.startedAt)).filter (Entry.isAbout a.id)) w')
      fun _ _ => False := by
  refine (hlink.finish_yields (fun r _ e => hordinary r e) (fun _ _ _ => rfl) a o drained w).mono
    ?_ ?_
  · rintro report w' ⟨l, ⟨completedAt, hreport, rfl⟩, hw⟩
    exact ⟨o, drained, completedAt, hreport, hw⟩
  · rintro e w' ⟨l, he, -⟩
    exact he

end

namespace Updater

variable {h : Host σ} {given : σ → String → Prop} {E : Request → Fault → Prop}

section

variable (hids : h.GivesOnce given) (hraises : h.Raises E)
  (hordinary : ∀ r e, E r e → e.interrupts = false)

include hids hraises

theorem hears_about (plan : UpdatePlan) (id : String) (depth : Nat) :
    (h.link (console plan) depth).Hears (fun b s => b = true ∧ given s id) (· ≠ id)
      (Entry.isAbout id) (Host.Raising E) :=
  (hids.abides hraises id).hears_console (fun _ _ hs => hs.1)
    (fun _ => Entry.isAbout_of_murmur) plan depth

include hordinary

/-- An update returns its report and concludes as it says. -/
theorem ends_apply_concluded (hclose : ∀ s e, ¬ E (.closeSpan s) e) (depth : Nat) (raw : Bytes)
    (w : World σ) : (apply (h.link (console plan) depth) plan raw).Ends w
      (fun report w' => report.attemptId = (h.freshId w.host).1 ∧
        given w'.host report.attemptId ∧ w.Grown w' ∧ Concluded plan report (w.since w'))
      fun _ _ => False := by
  generalize hlink₀ : h.link (console plan) depth = link
  have hid : (newAttempt link raw w).id = (h.freshId w.host).1 := by
    rw [newAttempt, ← hlink₀, Host.freshId_link]
  have hgiven : given (afterStart link w).host (newAttempt link raw w).id := by
    rw [hid, afterStart, ← hlink₀, Host.freshId_link, Host.now_link]
    exact hids.now _ _ (hids.noted _)
  have hlink := hlink₀ ▸ hears_about hids hraises plan (newAttempt link raw w).id depth
  have hF : ∀ r e, Host.Raising E r (.error e) → e.interrupts = false := fun r e he =>
    hordinary r e (he e rfl)
  have hfinish := @Attempt.ends_finish_concluded _ link plan _ _ _ _ hlink hF
  -- the end has been read, after what was told before
  have hend : ∀ {w₁ w' : World σ} {before : List Entry} {o drained completedAt} {report},
      w₁.journal = w.journal → (∀ e ∈ before, ¬ e.Murmur (· = (newAttempt link raw w).id)) →
      report = (newAttempt link raw w).report o drained completedAt →
      (w₁.since w').filter (Entry.isAbout (newAttempt link raw w).id) = before ++
        (plan.conclusion report (completedAt - (newAttempt link raw w).startedAt)).filter
          (Entry.isAbout (newAttempt link raw w).id) →
      w₁.Grown w' → given w'.host (newAttempt link raw w).id →
      report.attemptId = (h.freshId w.host).1 ∧ given w'.host report.attemptId ∧ w.Grown w' ∧
        Concluded plan report (w.since w') := by
    intro w₁ w' before o drained completedAt report hjournal hbefore hreport hes hgrown hgiven'
    have hreportId : report.attemptId = (newAttempt link raw w).id := by rw [hreport]; rfl
    rw [World.since, hjournal] at hes
    rw [World.Grown, hjournal] at hgrown
    exact ⟨hreportId.trans hid, by rwa [hreportId], hgrown,
      concluded_of_filter hreport hbefore hes⟩
  cases hdesk : w.desk.engaged with
  | false =>
    rw [ends_apply_of_free hdesk]
    have hframed := @Attempt.framed_untold _ link plan _ _ _ _ hlink hF fun s e he =>
      hclose s e (he e rfl)
    refine (Attempt.ends_attempt_framed (G := fun _ => False) hframed (fun o drained w =>
      (hfinish o drained w).of_safe)
      (fun _ _ _ _ he => he.elim) raw _).mono ?_ ?_
    · rintro report w' ⟨w₁, w₂, h₁, ⟨o, drained, completedAt, hreport, h₂⟩, h₃⟩
      obtain ⟨hmeets₁, -, hgrown₁, hbefore⟩ := h₁ ⟨rfl, hgiven⟩
      obtain ⟨hmeets₂, -, -, hgrown₂, hes₂⟩ := h₂ hmeets₁
      obtain ⟨hmeets₃, -, -, hgrown₃, hes₃⟩ := h₃ hmeets₂
      refine @hend (engaged (afterStart link w)) w' _ o drained completedAt report rfl hbefore
        hreport ?_ ((hgrown₁.trans hgrown₂).trans hgrown₃) hmeets₃.2
      have hsince := (hgrown₁.trans hgrown₂).since_trans hgrown₃
      rw [hgrown₁.since_trans hgrown₂] at hsince
      show ((engaged (afterStart link w)).since w').filter _ = _
      rw [hsince, List.filter_append, List.filter_append, hes₂, hes₃, List.append_nil]
    · rintro e w' ⟨⟨he | he, hi⟩ | he, -⟩
      · exact Fault.ordinary he hi
      · exact he
      · exact he
  | true =>
    rw [ends_apply_of_engaged hdesk, ends_bind, Attempt.say, Act.say, ends_record]
    refine (hfinish _ _ _).mono ?_ fun _ _ he => he
    rintro report w' ⟨o, drained, completedAt, hreport, h₁⟩
    obtain ⟨hmeets', -, -, hgrown, hes⟩ := h₁ ⟨hdesk, hgiven⟩
    exact @hend (afterStart link w) w' [] o drained completedAt report rfl
      (by simp) hreport hes hgrown hmeets'.2

end

/-! ### The desk -/

/-- An update that finds the desk free leaves it free, with no phase and no token,
whichever way it ends. -/
theorem ends_apply_atRest (hfree : w.desk.engaged = false) (raw : Bytes) :
    (apply link plan raw).Ends w (fun _ w' => w'.desk.AtRest) fun _ w' => w'.desk.AtRest :=
  (ends_apply_of_free hfree).mpr (.of_forall (fun _ _ => ⟨rfl, rfl, rfl⟩) fun _ _ => ⟨rfl, rfl, rfl⟩)

/-- An attempt that has the desk tells that it starts, whatever then comes. -/
theorem ends_attempt_accepted {E : Request → Fault → Prop}
    (hlink : link.Hears (fun b _ => b = true) (fun _ => True) Entry.isStart (Host.Raising E))
    (a : Attempt) (raw : Bytes) (hengaged : w.desk.engaged = true) :
    (attempt link plan a raw).Ends w (fun _ w' => Accepted (w.since w'))
      fun _ w' => Accepted (w.since w') := by
  let q : Bool → σ → Prop := fun b _ => b = true
  let R : World σ → World σ → Prop := World.Tells q Entry.isStart fun _ => True
  have hany : ∀ r e, Host.Raising E r (.error e) → True := fun _ _ _ => trivial
  have hR : ∀ {α : Type} {b : Act σ α} {P : α → List Entry → Prop} {E' : Fault → List Entry → Prop},
      b.Yields q Entry.isStart P E' → b.Within R fun _ => True := fun h =>
    h.tells (fun _ _ _ => trivial) fun _ _ _ => ⟨trivial, trivial⟩
  have hframed : a.Framed link plan R R (fun _ => True) fun _ => True :=
    hlink.framed hany (fun _ _ => trivial) (fun _ _ => trivial) (fun _ _ h => h)
      (fun s => hR (hlink.ask (.closeSpan s))) (fun e he => by cases e <;> first | rfl | exact he.elim)
      a (fun _ _ _ _ => trivial) fun listens => validateAndStart_within (fun _ _ => trivial)
        (hlink.keeps_tells hany fun _ _ _ => trivial) _ _ (hR (hlink.ask .startProcessing))
  have hfinish : ∀ o drained, (a.finish link plan o drained).Within R fun _ => True :=
    fun o drained => a.finish_within plan o drained hlink.time_within.tells
      (fun _ _ _ _ => hR (hlink.ask _)) fun _ _ => hR (hlink.ask _)
  -- what has been told stays told
  let S : World σ → Prop := fun w' =>
    w'.desk.engaged = true ∧ w.Grown w' ∧ Accepted (w.since w')
  have hgo : ∀ {w₁ w₂ : World σ}, S w₁ → R w₁ w₂ → S w₂ := by
    rintro w₁ w₂ ⟨hengaged₁, hgrown₁, e, he, hstart⟩ h₂
    obtain ⟨hengaged₂, -, hgrown₂, -⟩ := h₂ hengaged₁
    refine ⟨hengaged₂, hgrown₁.trans hgrown₂, e, ?_, hstart⟩
    rw [hgrown₁.since_trans hgrown₂]
    exact List.mem_append_left _ he
  have hperform : (a.perform link plan raw).Ends w (fun _ => S) fun _ => S := by
    rw [Attempt.perform, ends_bind, Attempt.say, Act.say, ends_record, ends_bind, Attempt.say,
      Act.say, ends_record]
    have hstarted : ∀ {w₁ w' : World σ} {answer}, w₁.desk.engaged = true →
        w₁.journal = w.journal →
        w₁.Reads q Entry.isStart (((Request.publish (.updateStarted a.id a.digest a.size)).noted
          answer).filter Entry.isStart) w' → S w' := by
      intro w₁ w' answer hengaged₁ hjournal h
      obtain ⟨hengaged', -, -, hgrown, hes⟩ := h hengaged₁
      rw [World.Grown, hjournal] at hgrown
      rw [World.since, hjournal] at hes
      refine ⟨hengaged', hgrown, .asked (.publish (.updateStarted a.id a.digest a.size)), ?_, rfl⟩
      refine List.mem_of_mem_filter (p := Entry.isStart) ?_
      rw [World.since, hes]
      exact List.mem_filter.mpr ⟨List.mem_cons_self .., rfl⟩
    refine (hlink.publish_reads _ _).bind ?_ ?_
    · rintro - w₁ ⟨l, ⟨answer, rfl⟩, h₁⟩
      have hS₁ := hstarted hengaged rfl h₁
      refine (Attempt.ends_traced_framed (Q := fun _ => R) (G := fun _ => True) hframed hfinish
        (fun _ _ _ _ _ h => h) raw w₁).mono ?_ fun _ _ he => hgo hS₁ he.2
      rintro - w' ⟨w₂, w₃, h₂, h₃, h₄⟩
      exact hgo hS₁ (Course.trans h₂ (Course.trans h₃ h₄))
    · rintro e w₁ ⟨l, ⟨answer, rfl⟩, h₁⟩
      exact hstarted hengaged rfl h₁
  rw [attempt, ends_bind, ends_guarded]
  refine hperform.mono (fun _ _ h => h.2.2) fun e w₁ hS₁ => ?_
  split
  · exact hS₁.2.2
  · show (finishUnexpected link plan a e).Ends w₁ _ _
    rw [finishUnexpected, ends_bind, ends_desk, ends_bind, Attempt.sayFault, ends_record]
    have hlog : ∀ log, S { w₁ with log } := fun log => hgo hS₁ (Course.log w₁ log)
    exact (hfinish _ _ _).mono (fun _ _ h => (hgo (hlog _) h).2.2) fun _ _ h =>
      (hgo (hlog _) h.2).2.2

/-- Whether an update was accepted shows in what the observers are told: an accepted
one tells that it starts. -/
theorem ends_apply_accepted (h : Host σ) (depth : Nat) (raw : Bytes) (w : World σ) :
    (apply (h.link (console plan) depth) plan raw).Ends w
      (fun _ w' => Accepted (w.since w') ↔ w.desk.engaged = false)
      fun _ w' => Accepted (w.since w') ↔ w.desk.engaged = false := by
  have hdeaf : ∀ e : Entry, e.Murmur (fun _ => True) → e.isStart = false := by
    rintro (r | _ | _ | _ | _) he
    · cases r with
      | publish e => cases e <;> first | rfl | exact he.elim
      | _ => rfl
    all_goals rfl
  have hlink : (h.link (console plan) depth).Hears (fun b _ => b = true) (fun _ => True)
      Entry.isStart _ :=
    (h.raises_any.abides (· = true)).hears_console (fun _ _ hb => hb) hdeaf plan depth
  generalize h.link (console plan) depth = link at hlink
  cases hdesk : w.desk.engaged with
  | false =>
    rw [ends_apply_of_free hdesk]
    exact (ends_attempt_accepted hlink _ raw rfl).mono (fun _ _ h => iff_of_true h rfl)
      fun _ _ h => iff_of_true h rfl
  | true =>
    rw [ends_apply_of_engaged hdesk, ends_bind, Attempt.say, Act.say, ends_record]
    have hfinish := Attempt.finish_within plan (newAttempt link raw w) refused none
      (hlink.time_within (F := fun _ => True))
      (fun _ _ _ _ => hlink.concludes_within hdeaf trivial) fun _ _ =>
        hlink.concludes_within hdeaf trivial
    have hnot : ∀ {w₁ w' : World σ}, w₁.Silent (fun b _ => b = true) Entry.isStart w' →
        w₁.desk.engaged = true → w₁.journal = w.journal → ¬ Accepted (w.since w') := by
      rintro w₁ w' hsilent hengaged hjournal ⟨e, he, hstart⟩
      obtain ⟨-, -, -, -, hes⟩ := hsilent hengaged
      rw [World.since, hjournal] at hes
      exact List.filter_eq_nil_iff.mp hes e he hstart
    refine (hfinish _).mono (fun _ w' h => iff_of_false (hnot h hdesk rfl) (by simp)) ?_
    exact fun _ w' h => iff_of_false (hnot h.2 hdesk rfl) (by simp)

end Updater

end HotSwap
