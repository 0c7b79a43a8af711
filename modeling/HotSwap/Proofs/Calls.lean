/-
Updates one after the other, and inside one another.

While an update is running, its host can order further ones, which are refused; when
it has ended, the next one can come.  Each of them is an attempt with an identifier of
its own, and over a whole run all that is told of an attempt is what it concludes
with.

* `Untold` — nothing is told of an attempt;
* `World.Accounts` — between two worlds all is told of an attempt, or nothing;
* `Updater.apply_accounts_of_keeps` — an update accounts for every attempt, itself and
  those that are ordered meanwhile;
* `Updater.Calls` — updates one after the other, with whatever others do in between;
* `Updater.concluded_of_calls` — the result.

Design notes: of an attempt that was given its identifier before, nothing is told any
more; this is what lets the stretches of a run be put together.
-/
import HotSwap.Proofs.Completions

namespace HotSwap

open Act

variable {σ : Type} {w w' w'' : World σ} {plan : UpdatePlan} {id : String}
  {es es' : List Entry} {given : σ → String → Prop} {report : UpdateReport}

/-! ### Attempts of which all is told, or nothing -/

/-- Nothing is told of an attempt. -/
def Untold (id : String) (es : List Entry) : Prop := eventsOf id es = [] ∧ reportsOf id es = []

namespace Untold

theorem append (h : Untold id es) (h' : Untold id es') : Untold id (es ++ es') := by
  rw [Untold, eventsOf_append, reportsOf_append, h.1, h.2, h'.1, h'.2]
  exact ⟨rfl, rfl⟩

theorem singleton {e : Entry} (he : e.isAbout id = false) : Untold id [e] := by
  rw [Untold, ← eventsOf_filter, ← reportsOf_filter, List.filter_cons_of_neg (by simp [he])]
  exact ⟨rfl, rfl⟩

end Untold

namespace Concluded

/-- Entries that tell nothing of an attempt do not matter for how it concludes. -/
theorem append_left (h : Concluded plan report es) (h' : Untold report.attemptId es') :
    Concluded plan report (es' ++ es) := by
  refine ⟨?_, ?_, h.readBack⟩
  · rw [eventsOf_append, h'.1]
    exact h.told
  · rw [reportsOf_append, h'.2]
    exact h.kept

theorem append_right (h : Concluded plan report es) (h' : Untold report.attemptId es') :
    Concluded plan report (es ++ es') := by
  refine ⟨?_, ?_, h.readBack⟩
  · rw [eventsOf_append, h'.1, List.append_nil]
    exact h.told
  · rw [reportsOf_append, h'.2, List.append_nil]
    exact h.kept

/-- Of an attempt that has concluded, something is told. -/
theorem not_untold (h : Concluded plan report es) : ¬ Untold report.attemptId es := by
  obtain ⟨before, duration, -, hevents, -⟩ := h.told
  rintro ⟨hnone, -⟩
  rw [hevents] at hnone
  simp at hnone

end Concluded

/-- Between two worlds either nothing is told of an attempt or all; and nothing, if its
identifier was given before, or is not given yet. -/
structure World.Accounts (given : σ → String → Prop) (plan : UpdatePlan) (id : String)
    (w w' : World σ) : Prop where
  stays : given w.host id → given w'.host id
  grown : w.Grown w'
  apart : given w.host id ∨ ¬ given w'.host id → Untold id (w.since w')
  told : Untold id (w.since w') ∨ ∃ report, report.attemptId = id ∧
    Concluded plan report (w.since w')

namespace World

theorem accounts_of_untold (hgiven : given w.host id → given w'.host id) (hgrown : w.Grown w')
    (h : Untold id (w.since w')) : w.Accounts given plan id w' :=
  ⟨hgiven, hgrown, fun _ => h, .inl h⟩

/-- Where the journal stays as it is, nothing is told. -/
theorem accounts_of_journal (hgiven : given w.host id → given w'.host id)
    (hjournal : w'.journal = w.journal) : w.Accounts given plan id w' := by
  refine accounts_of_untold hgiven (grown_of_journal hjournal) ?_
  rw [since_of_journal hjournal]
  exact ⟨rfl, rfl⟩

theorem accounts_enter {e : Entry} (he : e.isAbout id = false) :
    w.Accounts given plan id (w.enter e) := by
  refine accounts_of_untold (fun h => h) (grown_enter w e) ?_
  rw [since_enter]
  exact .singleton he

theorem Accounts.trans (h : w.Accounts given plan id w') (h' : w'.Accounts given plan id w'') :
    w.Accounts given plan id w'' := by
  have hsince := h.grown.since_trans h'.grown
  refine ⟨fun hgiven => h'.stays (h.stays hgiven), h.grown.trans h'.grown, fun hor => ?_, ?_⟩
  · rw [hsince]
    rcases hor with hgiven | hnot
    · exact (h.apart (.inl hgiven)).append (h'.apart (.inl (h.stays hgiven)))
    · exact (h.apart (.inr fun hgiven => hnot (h'.stays hgiven))).append (h'.apart (.inr hnot))
  · rw [hsince]
    rcases h.told with huntold | ⟨report, rfl, hconcluded⟩
    · exact h'.told.imp huntold.append fun ⟨report, hid, hconcluded⟩ =>
        ⟨report, hid, hconcluded.append_left (hid ▸ huntold)⟩
    · -- the identifier has been given by now, so that nothing more is told
      have hgiven : given w'.host report.attemptId := by
        by_contra hnot
        exact hconcluded.not_untold (h.apart (.inr hnot))
      exact .inr ⟨report, rfl, hconcluded.append_right (h'.apart (.inl hgiven))⟩

end World

instance : Course (World.Accounts (σ := σ) given plan id) where
  refl _ := World.accounts_of_journal (fun h => h) rfl
  trans := World.Accounts.trans
  log _ _ := World.accounts_of_journal (fun h => h) rfl
  polls _ _ := World.accounts_of_journal (fun h => h) rfl

/-! ### Updates -/

namespace Updater

/-- An update accounts for every other attempt, if its requests do. -/
theorem ends_apply_other {link : Link σ} {raw : Bytes} (hlink : link.Keeps
      (World.Accounts given plan id) (fun _ => True) fun r => (Entry.asked r).isAbout id = false)
    (hgate : ∀ a s, given s id → given (link.gate a s).2 id)
    (hother : (newAttempt link raw w).id ≠ id) : (apply link plan raw).Ends w
      (fun _ w' => w.Accounts given plan id w') fun _ w' => w.Accounts given plan id w' := by
  have hstart : w.Accounts given plan id (afterStart link w) :=
    Course.trans (hlink.newId w) (hlink.time _)
  generalize ha : newAttempt link raw w = a at hother
  have hfinish : ∀ o drained, (a.finish link plan o drained).Within (World.Accounts given plan id)
      fun _ => True := by
    refine fun o drained => a.finish_within plan o drained hlink.time (fun _ _ _ _ => ?_)
      fun report hreport => ?_
    · exact hlink.ask _ (Entry.isAbout_of_murmur (e := .asked _) hother)
    · refine hlink.ask _ (Entry.isAbout_of_murmur (e := .asked _) ?_)
      show report.attemptId ≠ id
      rwa [hreport]
  cases hdesk : w.desk.engaged with
  | false =>
    have hprecedes := hlink.mono fun r (hr : r.Precedes a.id) =>
      Request.isAbout_of_precedes hr hother
    have hdesk : ∀ (w : World σ) (desk : Desk), w.Accounts given plan id { w with desk } :=
      fun _ _ => World.accounts_of_journal (fun h => h) rfl
    have hhandles : link.Handles (World.Accounts given plan id) fun _ => True :=
      Link.handles_of_course (fun a w => World.accounts_of_journal (hgate a w.host) rfl)
        (fun _ _ => World.accounts_of_journal (fun h => h) rfl)
        (fun _ _ he => World.accounts_enter (Entry.isAbout_of_ofFiles he))
        fun _ _ => World.accounts_of_journal (fun h => h) rfl
    have hframed : a.Framed link plan (World.Accounts given plan id)
        (World.Accounts given plan id) (fun _ => True) fun _ => True := by
      refine a.framed_of_requests (fun _ _ => trivial) (fun _ _ => trivial) (fun _ _ h => h)
        (fun w desk _ => hdesk w desk) hhandles (hprecedes.mono fun _ hr => hr.2)
        (fun s => hprecedes.ask (.closeSpan s) trivial) fun listens => ?_
      exact validateAndStart_within (fun _ _ => trivial)
        (hprecedes.mono fun r hr => Request.precedes_of_isValidation hr a.id) _ _
        (hprecedes.ask .startProcessing trivial)
    rw [ends_apply_of_free (by assumption), ha]
    refine (Attempt.ends_attempt_framed (Q := fun _ => World.Accounts given plan id)
      (G := fun _ => True) hframed hfinish (fun _ _ _ _ _ h => h) raw _).mono ?_ ?_
    · rintro report w' ⟨w₁, w₂, h₁, h₂, h₃⟩
      have h₁₃ := Course.trans h₁ (Course.trans h₂ h₃)
      exact Course.trans hstart (Course.trans (hdesk _ _) (Course.trans h₁₃ (hdesk w' _)))
    · rintro e w' ⟨-, h⟩
      exact Course.trans hstart (Course.trans (hdesk _ _) (Course.trans h (hdesk w' _)))
  | true =>
    rw [ends_apply_of_engaged hdesk, ha]
    refine ((within_record.bind fun _ => hfinish refused none) _).mono ?_ ?_
    · exact fun _ _ h => Course.trans hstart h
    · exact fun _ _ h => Course.trans hstart h.2

variable {h : Host σ} {E : Request → Fault → Prop} (hids : h.GivesOnce given) (hraises : h.Raises E)
  (hordinary : ∀ r e, E r e → e.interrupts = false) (hclose : ∀ s e, ¬ E (.closeSpan s) e)

include hids hraises hordinary hclose

/-- An update accounts for every attempt, if the requests that are not about it do. -/
theorem apply_accounts_of_keeps {depth : Nat} (hlink : (h.link (console plan) depth).Keeps
      (World.Accounts given plan id) (fun _ => True) fun r => (Entry.asked r).isAbout id = false)
    (raw : Bytes) : (apply (h.link (console plan) depth) plan raw).Within
      (World.Accounts given plan id) fun _ => True := by
  intro w
  by_cases hid : (h.freshId w.host).1 = id
  · -- the attempt itself: it concludes
    refine (ends_apply_concluded hids hraises hordinary hclose depth raw w).mono ?_
      fun _ _ he => he.elim
    rintro report w' ⟨hreport, hgiven, hgrown, hconcluded⟩
    rw [hid] at hreport
    rw [hreport] at hgiven
    refine ⟨fun _ => hgiven, hgrown, ?_, .inr ⟨report, hreport, hconcluded⟩⟩
    rintro (hgiven' | hnot)
    · exact absurd (hid ▸ hgiven') (hids.fresh w.host)
    · exact absurd hgiven hnot
  · refine (ends_apply_other hlink (fun a s => ?_) ?_).mono (fun _ _ h => h) fun _ _ h =>
      ⟨trivial, h⟩
    · cases depth <;> exact hids.gate a s id
    · rwa [newAttempt, Host.freshId_link]

/-- A request that is not about an attempt accounts for it, with all that is ordered
meanwhile. -/
theorem keeps_accounts (plan : UpdatePlan) (id : String) (depth : Nat) :
    (h.link (console plan) depth).Keeps (World.Accounts given plan id) (fun _ => True)
      fun r => (Entry.asked r).isAbout id = false := by
  have hexchange : ∀ {orders : Command → Act σ Reply},
      (∀ c, (orders c).Within (World.Accounts given plan id) fun _ => True) →
      ∀ r : Request, (Entry.asked r).isAbout id = false →
      (Act.exchange r ((h.reply r).perform orders)).Within (World.Accounts given plan id)
        fun _ => True := by
    intro orders horders r hr w
    have hscene : ∀ (w : World σ) (s : Scene σ), (∀ id, given w.host id → given s.host id) →
        w.Accounts given plan id { w with disk := s.disk, host := s.host } := fun w s hs =>
      World.accounts_of_journal (hs id) rfl
    rw [ends_exchange, Play.perform, ends_bind, ends_look]
    refine (Conduct.ends_perform hscene horders (hids.reply r _)).mono ?_ ?_
    · rintro x w' ⟨w₁, s, h₁, hs, rfl⟩
      exact Course.trans (World.accounts_enter hr) (Course.trans h₁ (Course.trans (hscene w₁ s hs)
        (World.accounts_enter Entry.isAbout_answered)))
    · rintro e w' ⟨w₁, s, h₁, hs, rfl⟩
      exact ⟨trivial, Course.trans (World.accounts_enter hr) (Course.trans h₁ (Course.trans
        (hscene w₁ s hs) (World.accounts_enter Entry.isAbout_answered)))⟩
  have hnewId : (Link.choose h.freshId).Within (World.Accounts (σ := σ) given plan id)
      fun _ => True := fun w => World.accounts_of_journal (hids.freshId w.host id) rfl
  have htime : (Link.choose h.now).Within (World.Accounts (σ := σ) given plan id)
      fun _ => True := fun w => World.accounts_of_journal (hids.now w.host id) rfl
  -- one level deeper, orders go through a link at which this is known to hold
  induction depth with
  | zero => exact ⟨hexchange fun _ => within_raise trivial, hnewId, htime⟩
  | succ depth ih =>
    refine ⟨hexchange fun c => ?_, hnewId, htime⟩
    refine console_within (fun _ _ _ _ _ => World.accounts_of_journal (fun h => h) rfl) ?_ c
    exact apply_accounts_of_keeps hids hraises hordinary hclose ih

end Updater

/-! ### One update after the other -/

namespace Updater

/-- Updates one after the other, whether or not the desk is free.  In between anything
can happen of which the journal shows nothing, as long as identifiers stay given. -/
inductive Calls (link : Link σ) (plan : UpdatePlan) (given : σ → String → Prop) :
    World σ → List UpdateReport → World σ → Prop
  | start (w : World σ) : Calls link plan given w [] w
  | meanwhile {w w₁ w₂ : World σ} {reports : List UpdateReport}
      (before : Calls link plan given w reports w₁) (hjournal : w₂.journal = w₁.journal)
      (hgiven : ∀ id, given w₁.host id → given w₂.host id) : Calls link plan given w reports w₂
  | call {w w₁ w₂ : World σ} {reports : List UpdateReport} {raw : Bytes} {report : UpdateReport}
      (before : Calls link plan given w reports w₁)
      (hrun : (apply link plan raw).run w₁ = (.ok report, w₂)) :
      Calls link plan given w (reports ++ [report]) w₂

variable {h : Host σ} {E : Request → Fault → Prop} (hids : h.GivesOnce given) (hraises : h.Raises E)
  (hordinary : ∀ r e, E r e → e.interrupts = false) (hclose : ∀ s e, ¬ E (.closeSpan s) e)

include hids hraises hordinary hclose

/-- A run accounts for every attempt. -/
theorem Calls.accounts {depth : Nat} {reports : List UpdateReport}
    (hcalls : Calls (h.link (console plan) depth) plan given w reports w') (id : String) :
    w.Accounts given plan id w' := by
  have happly := apply_accounts_of_keeps hids hraises hordinary hclose
    (keeps_accounts hids hraises hordinary hclose plan id depth)
  induction hcalls with
  | start => exact Course.refl w
  | meanwhile before hjournal hgiven ih =>
    exact Course.trans ih (World.accounts_of_journal (hgiven id) hjournal)
  | call before hrun ih => exact Course.trans ih ((happly _ _).ok hrun)

/-- The attempts of a run have identifiers of their own, and each concludes as its
report says, in all that is told during the run. -/
theorem Calls.concluded {depth : Nat} {reports : List UpdateReport}
    (hcalls : Calls (h.link (console plan) depth) plan given w reports w') :
    (reports.map (·.attemptId)).Nodup ∧ ∀ report ∈ reports,
      given w'.host report.attemptId ∧ Concluded plan report (w.since w') := by
  have haccounts := fun {w : World σ} {reports w'}
    (hcalls : Calls (h.link (console plan) depth) plan given w reports w') id =>
    hcalls.accounts hids hraises hordinary hclose id
  -- what comes after a report tells nothing more of its attempt
  have hlater : ∀ {w w₁ w₂ : World σ} {reports : List UpdateReport} {report : UpdateReport},
      Calls (h.link (console plan) depth) plan given w reports w₁ →
      w₁.Accounts given plan report.attemptId w₂ →
      given w₁.host report.attemptId ∧ Concluded plan report (w.since w₁) →
      given w₂.host report.attemptId ∧ Concluded plan report (w.since w₂) := by
    rintro w w₁ w₂ reports report before h₂ ⟨hgiven, hconcluded⟩
    refine ⟨h₂.stays hgiven, ?_⟩
    rw [(haccounts before report.attemptId).grown.since_trans h₂.grown]
    exact hconcluded.append_right (h₂.apart (.inl hgiven))
  induction hcalls with
  | start => exact ⟨List.nodup_nil, by simp⟩
  | meanwhile before hjournal hgiven ih =>
    exact ⟨ih.1, fun report hreport =>
      hlater before (World.accounts_of_journal (hgiven _) hjournal) (ih.2 report hreport)⟩
  | @call w₁ w₂ reports raw report before hrun ih =>
    obtain ⟨hid, hgiven, hgrown, hconcluded⟩ :=
      (ends_apply_concluded hids hraises hordinary hclose depth raw w₁).ok hrun
    have hfresh : ¬ given w₁.host report.attemptId := hid ▸ hids.fresh w₁.host
    have hbefore := haccounts before report.attemptId
    have hcall := fun id => (apply_accounts_of_keeps hids hraises hordinary hclose
      (keeps_accounts hids hraises hordinary hclose plan id depth) raw w₁).ok hrun
    refine ⟨?_, fun r hr => ?_⟩
    · rw [List.map_append, List.map_singleton, List.nodup_append]
      refine ⟨ih.1, by simp, fun id hid' other hother => ?_⟩
      obtain ⟨r, hr, rfl⟩ := List.mem_map.mp hid'
      obtain rfl := List.mem_singleton.mp hother
      exact fun heq => hfresh (heq ▸ (ih.2 r hr).1)
    · rcases List.mem_append.mp hr with hr | hr
      · exact hlater before (hcall _) (ih.2 r hr)
      · obtain rfl := List.mem_singleton.mp hr
        refine ⟨hgiven, ?_⟩
        rw [hbefore.grown.since_trans hgrown]
        exact hconcluded.append_left (hbefore.apart (.inr hfresh))

omit hids hraises hordinary hclose in
/-- The desk is at rest, and an update is accepted. -/
def Ready (link : Link σ) (plan : UpdatePlan) (w : World σ) : Prop :=
  w.desk.AtRest ∧ ∀ raw, (apply link plan raw).Ends w (fun _ w' => Accepted (w.since w'))
    fun _ w' => Accepted (w.since w')

end Updater

namespace Sample

/-- A host whose observers, and whose history, fail at everything they are told. -/
def deaf : Host Nat :=
  Host.plain (fun r => if r.isTelling then some (.raised "RuntimeError" "") else none)
    fun _ _ => none

theorem deaf_raises :
    deaf.Raises fun r e => e.interrupts = false ∧ ∀ s, r ≠ .closeSpan s := by
  refine Host.plain_raises fun r e he => ?_
  split at he
  · next htelling =>
    obtain rfl := Option.some.inj he
    exact ⟨rfl, by rintro s rfl; cases htelling⟩
  · cases he

/-- An updater that keeps its reports. -/
def kept : UpdatePlan := { Sample.plan with keepsReports := true }

/-- The ends of two attempts, one after the other. -/
def heard : Except Fault UpdateReport × World Nat :=
  (Updater.apply (deaf.link (Updater.console kept) 0) kept [2]).run world

def heardAgain : Except Fault UpdateReport × World Nat :=
  (Updater.apply (deaf.link (Updater.console kept) 0) kept [3]).run heard.2

theorem heard_eq :
    (Updater.apply (deaf.link (Updater.console kept) 0) kept [2]).run world = heard := rfl

theorem heardAgain_eq :
    (Updater.apply (deaf.link (Updater.console kept) 0) kept [3]).run heard.2 = heardAgain := rfl

end Sample

namespace Updater

end Updater

end HotSwap
