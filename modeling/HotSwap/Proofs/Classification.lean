/-
How attempts are classified.

The observers can follow an attempt from phase to phase, up to the first that fails and
back; and its report says where that has led.

* `Journey.events` — what the observers are told of a journey;
* `Journey.Sound.state_iff` — the state in which a journey ends;
* `Classifies` — a report is about a journey;
* `Attempt.observed_about` — of all that is asked for, only the telling is about an attempt;
* `Updater.ends_apply_classified` — the result.

Design notes: a host that gives an identifier twice can have it that the end of a
refused update is told with the identifier of the attempt that is running.  Candidates
are to be enriched; an attempt without an enrichment has nothing to go on with.
-/
import HotSwap.Proofs.Completions
import HotSwap.Proofs.Journeys

namespace HotSwap

open Act

variable {σ : Type} {q : Bool → σ → Prop} {A : String → Prop}
  {L : (r : Request) → Except Fault r.Answer → Prop} {link : Link σ} {plan : UpdatePlan}
  {id : String}

/-! ### The events of a journey -/

theorem Passage.attemptId?_ending (p : Passage) : (p.ending id).attemptId? = some id := by
  rw [ending]
  split <;> rfl

/-- What the observers are told of a journey. -/
def Journey.events (id : String) (j : Journey) : List Event :=
  j.passages.flatMap (Passage.events id)

/-- A leg without calls shows the events of its phase. -/
theorem Leg.eventsOf_entries {s : Leg} (hcalls : s.calls = []) :
    eventsOf id (s.entries id) = s.passage.events id := by
  have hstarted : (Event.phaseStarted id s.passage.phase).attemptId? = some id := rfl
  simp [entries, hcalls, eventsOf, Entry.event?, Passage.events, Passage.attemptId?_ending,
    hstarted]

theorem eventsOf_legs {legs : List Leg} (hcalls : ∀ s ∈ legs, s.calls = []) :
    eventsOf id (legs.flatMap (Leg.entries id)) =
      (legs.map (·.passage)).flatMap (Passage.events id) := by
  induction legs with
  | nil => rfl
  | cons s legs ih =>
    obtain ⟨hs, hlegs⟩ := List.forall_mem_cons.mp hcalls
    rw [List.flatMap_cons, eventsOf_append, s.eventsOf_entries hs, ih hlegs, List.map_cons,
      List.flatMap_cons]

/-! ### The end of a journey -/

namespace Journey

variable {j : Journey}

/-- The state in which a journey ends. -/
theorem Sound.state_iff (hsound : j.Sound) :
    (j.outcome.state = .running ↔ j.failed = none) ∧
    (j.outcome.state = .rejected ↔ ∃ f, j.failed = some f ∧ f.phase = .enriching) ∧
    (j.outcome.state = .degradedNoReload ↔ j.rollbackFailed ≠ none) ∧
    (j.outcome.state = .reverted ↔
      (∃ f, j.failed = some f ∧ f.phase ≠ .enriching) ∧ j.rollbackFailed = none) := by
  cases hback : j.rollbackFailed with
  | some g =>
    obtain ⟨f, hfailed, hphase⟩ := hsound.failed_of_rollbackFailed hback
    simp [outcome, outcomeOf, hfailed, hback, hphase]
  | none =>
    cases hfailed : j.failed with
    | none => simp [outcome, outcomeOf, hfailed]
    | some f => by_cases hphase : f.phase = .enriching <;>
        simp [outcome, outcomeOf, hfailed, hback, hphase]

/-- A failure on the way back comes before the one that has led there. -/
theorem failureKind_outcome (j : Journey) :
    j.outcome.failureKind = (j.rollbackFailed.or j.failed).map (·.failure.kind) := by
  rw [Outcome.failureKind]
  cases hback : j.rollbackFailed <;> simp [outcome, outcomeOf, hback]

end Journey

/-- A report is about a journey: its state says where that has led, and its details are
those of the phases that have failed. -/
structure Classifies (report : UpdateReport) (j : Journey) : Prop where
  running : report.state = .running ↔ j.failed = none
  rejected : report.state = .rejected ↔ ∃ f, j.failed = some f ∧ f.phase = .enriching
  degraded : report.state = .degradedNoReload ↔ j.rollbackFailed ≠ none
  reverted : report.state = .reverted ↔
    (∃ f, j.failed = some f ∧ f.phase ≠ .enriching) ∧ j.rollbackFailed = none
  failedPhase : report.failedPhase = j.failed.map (·.phase)
  failureKind : report.failureKind = (j.rollbackFailed.or j.failed).map (·.failure.kind)
  error : report.error = j.failed.map (·.failure.fault.describe)
  rollbackError : report.rollbackError = j.rollbackFailed.map (·.failure.fault.describe)
  drain : report.drain.isSome = true ↔ { phase := .draining } ∈ j.passages

/-- The report of an attempt is about its journey. -/
theorem Journey.Sound.classifies {j : Journey} (hsound : j.Sound) (a : Attempt)
    {drained : Option DrainReport} (hdrained : drained.isSome = true ↔
      { phase := .draining } ∈ j.passages) (completedAt : Int) :
    Classifies (a.report j.outcome drained completedAt) j where
  running := hsound.state_iff.1
  rejected := hsound.state_iff.2.1
  degraded := hsound.state_iff.2.2.1
  reverted := hsound.state_iff.2.2.2
  failedPhase := rfl
  failureKind := j.failureKind_outcome
  error := rfl
  rollbackError := rfl
  drain := hdrained

/-! ### What is about an attempt -/

namespace Request

theorem isAbout_of_isDrain {r : Request} (hr : r.isDrain = true) :
    (Entry.asked r).isAbout id = false := by
  cases r with
  | publish e => cases e <;> first | rfl | cases hr
  | keepReport report => cases hr
  | _ => rfl

theorem isAbout_of_isValidation {r : Request} (hr : r.isValidation = true) :
    (Entry.asked r).isAbout id = false := by
  cases r <;> first | rfl | cases hr

end Request

theorem watches_isAbout (id : String) : Watches (Entry.isAbout id) id where
  progress e _ hid := by simp [Entry.isAbout, Entry.event?, Entry.report?, hid]
  told _ _ _ := rfl
  span r hr := by cases r <;> first | rfl | cases hr
  spanned _ _ _ := rfl
  files _ := Entry.isAbout_of_ofFiles

namespace Attempt

variable {a : Attempt} (hlink : link.Hears q A (Entry.isAbout a.id) L)
  (hordinary : ∀ r e, L r (.error e) → e.interrupts = false)

include hlink hordinary

/-- A request that is not about the attempt is silent. -/
theorem ask_about {r : Request} (hr : (Entry.asked r).isAbout a.id = false) :
    (link.ask r).Within (World.Silent q (Entry.isAbout a.id)) fun e => e.interrupts = false :=
  hlink.ask_within hr (fun _ => rfl) (hordinary r)

/-- Of all that an attempt asks for, only the telling is about it. -/
theorem observed_about (hspans : ∀ r : Request, r.isSpan = true → ∀ e, ¬ L r (.error e))
    (henriches : plan.enriches = true) :
    a.Observed link plan q A (Entry.isAbout a.id) L fun s => s.calls = [] := by
  have hask := @ask_about _ _ _ _ _ _ hlink hordinary
  have hkeeps : ∀ {S : Request → Prop}, (∀ r, S r → (Entry.asked r).isAbout a.id = false) →
      link.Keeps (World.Silent q (Entry.isAbout a.id)) (fun e => e.interrupts = false) S :=
    fun hS => ⟨fun r hr => hask (hS r hr), hlink.newId_within, hlink.time_within⟩
  have hload : (loadFlow link).Within (World.Silent q (Entry.isAbout a.id))
      fun e => e.interrupts = false := loadFlow_within (hask rfl) (hask rfl) fun _ he => he
  have hstart : ∀ listens, (validateAndStart link plan.validation listens).Within
      (World.Silent q (Entry.isAbout a.id)) fun e => e.interrupts = false := fun listens =>
    validateAndStart_within (fun _ he => he)
      (hkeeps fun r hr => Request.isAbout_of_isValidation hr) _ _ (hask rfl)
  have hdrain : (HotSwap.drain link plan.drain true).Within
      (World.Silent q (Entry.isAbout a.id)) fun e => e.interrupts = false :=
    drain_within (hkeeps fun r hr => Request.isAbout_of_isDrain hr) _ _
  refine observed_of_apart hlink (watches_isAbout a.id) hordinary hspans henriches
    (fun raw => hask rfl) (fun _ _ hcalls => hcalls) (hdrain.legs fun _ => rfl)
    (hload.legs fun _ => rfl) ((hstart true).legs fun _ => rfl) ?_
  exact (reloadReverted_within hload (hstart false) fun _ he => he).legs fun _ => rfl

end Attempt

/-! ### Updates -/

theorem Sample.unrestored_eq :
    (Updater.apply (Sample.unrestoring.link (Updater.console Sample.plan) 0) Sample.plan [2]).run
      Sample.world = Sample.unrestored := rfl

namespace Updater

variable {h : Host σ} {given : σ → String → Prop} {E : Request → Fault → Prop} {w : World σ}

/-- An update on a free desk tells the observers of its start, of each phase of a journey
that it starts and ends, and of its end, and of nothing else; and its report is about this
journey.  Nothing interrupts, and no request about a span fails. -/
theorem ends_apply_classified (hids : h.GivesOnce given) (hraises : h.Raises E)
    (hordinary : ∀ r e, E r e → e.interrupts = false)
    (hspans : ∀ r : Request, r.isSpan = true → ∀ e, ¬ E r e) (henriches : plan.enriches = true)
    (hfree : w.desk.engaged = false) (depth : Nat) (raw : Bytes) :
    (apply (h.link (console plan) depth) plan raw).Ends w
      (fun report w' => ∃ (j : Journey) (duration : Int), j.Sound ∧ Classifies report j ∧
        report.attemptId = (h.freshId w.host).1 ∧ report.duration = .ok duration ∧
        eventsOf report.attemptId (w.since w') =
          .updateStarted report.attemptId report.candidateDigest raw.length ::
            (j.events report.attemptId ++ [.updateCompleted report.attemptId report.state
              report.succeeded duration report.failureKind]))
      fun _ _ => False := by
  generalize hlink₀ : h.link (console plan) depth = link
  have hid : (newAttempt link raw w).id = (h.freshId w.host).1 := by
    rw [newAttempt, ← hlink₀, Host.freshId_link]
  have hgiven : given (afterStart link w).host (newAttempt link raw w).id := by
    rw [hid, afterStart, ← hlink₀, Host.freshId_link, Host.now_link]
    exact hids.now _ _ (hids.noted _)
  have hlink := hlink₀ ▸ hears_about hids hraises plan (newAttempt link raw w).id depth
  have hobserved := @Attempt.observed_about _ _ _ _ _ plan _ hlink
    (fun r e he => hordinary r e (he e rfl)) (fun r hr e he => hspans r hr e (he e rfl)) henriches
  refine (ends_apply_travelled hfree hobserved ⟨rfl, hgiven⟩).mono ?_ fun _ _ he => he
  rintro report w' ⟨j, legs, drained, completedAt, hsound, hlegs, hcalls, rfl, hdrained, hes⟩
  refine ⟨j, completedAt - (newAttempt link raw w).startedAt, hsound,
    hsound.classifies _ hdrained _, hid, Attempt.duration_report .., ?_⟩
  generalize hreport : Attempt.report _ _ _ _ = report at hes ⊢
  have hown : (newAttempt link raw w).id = report.attemptId := by rw [← hreport]; rfl
  have hstart : eventsOf report.attemptId [.asked (.publish (.updateStarted report.attemptId
      (newAttempt link raw w).digest (newAttempt link raw w).size))] =
      [.updateStarted report.attemptId report.candidateDigest raw.length] := by
    rw [← hreport]
    simp [eventsOf, Entry.event?, Event.attemptId?, Attempt.report, newAttempt]
  rw [hown] at hes
  rw [← eventsOf_filter, hes, eventsOf_append, eventsOf_append, hstart, eventsOf_legs hcalls,
    hlegs, eventsOf_filter, eventsOf_conclusion]
  rfl

attribute [local irreducible] Act.Ends Sample.unrestored in
/-- An attempt that can neither persist its candidate nor restore the files. -/
theorem ends_apply_classified_unrestoring :
    ∃ (report : UpdateReport) (j : Journey) (duration : Int), Sample.unrestored.1 = .ok report ∧
      report.state = .degradedNoReload ∧ j.Sound ∧ Classifies report j ∧
      eventsOf report.attemptId (Sample.world.since Sample.unrestored.2) =
        .updateStarted report.attemptId report.candidateDigest 1 ::
          (j.events report.attemptId ++ [.updateCompleted report.attemptId report.state
            report.succeeded duration report.failureKind]) := by
  have hstate : Sample.unrestored.1.toOption.map (fun report => report.state) =
      some .degradedNoReload := by
    decide +kernel
  cases hreport : Sample.unrestored.1 with
  | error e =>
    rw [hreport] at hstate
    cases hstate
  | ok report =>
    have hraises : Sample.unrestoring.Raises fun _ _ => False :=
      Host.plain_raises fun _ _ he => by cases he
    obtain ⟨j, duration, hsound, hclassifies, -, -, hevents⟩ :=
      (ends_apply_classified (Host.plain_givesOnce _ _) hraises (fun _ _ he => he.elim)
        (fun _ _ _ he => he) rfl rfl 0 [2]).ok
        (Sample.unrestored_eq.trans (Prod.ext hreport rfl))
    refine ⟨report, j, duration, rfl, ?_, hsound, hclassifies, hevents⟩
    simpa [hreport, Except.toOption] using hstate

end Updater

end HotSwap
