/-
What an attempt calls of the flow.

An attempt leaves the flow alone until the candidate is enriched and the files are backed
up and persisted.  The flow is asked to start only after a configuration has been loaded
and cleared, and it is started at most once, by the last call, with what the active file
holds just then.

* `CallsSafely` — what is known of the calls of an update, given its report;
* `CallsSafely.of_quiet` — an update that calls nothing;
* `CallsSafely.of_series` — one whose calls make up a series, and what the flow has loaded;
* `Journey.Sound.runs_iff` — how it can be told whether an attempt has started the flow;
* `Updater.ends_apply_callsSafely` — the result.

Design notes: the calls of an attempt are those of its legs, and say nothing about the
files; what the journal shows of these, and what the flow has loaded, comes from
`Updater.ends_started`.  Both speak of the one start that has succeeded.
-/
import HotSwap.Proofs.Classification
import HotSwap.Proofs.Series
import HotSwap.Proofs.Startups

namespace HotSwap

open Act

variable {σ : Type} {plan : UpdatePlan} {flow : σ → SimulatedFlow}
  {p : FilePaths} {report : UpdateReport} {w w' : World σ} {es before after : List Entry}

/-- The calls of an update that has ended with a report. -/
structure CallsSafely (p : FilePaths) (flow : σ → SimulatedFlow) (report : UpdateReport)
    (w w' : World σ) : Prop where
  /-- Before any call the candidate was enriched, and the files were backed up and
  persisted. -/
  opened : ∀ before e after, w.since w' = before ++ e :: after → e.isCall = true →
    ∀ phase ∈ [Phase.enriching, .backingUp, .persisting],
      Entry.asked (.publish (.phaseCompleted report.attemptId phase)) ∈ before
  /-- Whenever a start is asked for, a configuration has just been loaded, and since then
  all components have settled and none has reported an error. -/
  prepared : Preceded Prepared (callsOf (w.since w'))
  /-- A start that succeeds is the only one, and the last call. -/
  last : ∀ before after, w.since w' = before ++ .answered .startProcessing (.ok ()) :: after →
    Entry.answered .startProcessing (.ok ()) ∉ before ∧ callsOf after = []
  /-- It starts what the calls just before have loaded and cleared, and that is what the
  active file held just then. -/
  current : ∀ before after, w.since w' = before ++ .answered .startProcessing (.ok ()) :: after →
    (∃ earlier clearance, Cleared clearance ∧ callsOf before =
      earlier ++ (flowLoaded ++ (clearance ++ [.asked .startProcessing]))) ∧
    ∃ c, p.Holds (diskAfter w.disk before) c ∧ (flow w'.host).loaded = some c
  /-- The report says whether there was one. -/
  starts : Entry.answered .startProcessing (.ok ()) ∈ w.since w' ↔
    report.state = .running ∨ report.state = .reverted ∧
      ∃ phase ∈ [Phase.draining, .reloading, .validating], report.failedPhase = some phase

/-! ### Calls and starts in the journal -/

theorem Entry.isTraced_of_isCall {e : Entry} (he : e.isCall = true) : e.isTraced = true := by
  cases e with
  | asked r => exact heeds_isTraced.asked r he
  | answered r answer => exact heeds_isTraced.answered r he answer
  | _ => cases he

/-- Among calls and their answers, a start is where it is in the journal. -/
theorem mem_callsOf {e : Entry} (he : e.isCall = true) : e ∈ callsOf es ↔ e ∈ es := by
  simp [callsOf, he]

theorem callsOf_started (before after : List Entry) :
    callsOf (before ++ .answered .startProcessing (.ok ()) :: after) =
      callsOf before ++ .answered .startProcessing (.ok ()) :: callsOf after := by
  rw [callsOf_append]
  rfl

/-- Entries that are no calls come before the first call. -/
theorem mem_before_of_call {first rest : List Entry} {e x : Entry}
    (htraced : es.filter Entry.isTraced = first ++ rest) (hfirst : callsOf first = [])
    (hes : es = before ++ e :: after) (he : e.isCall = true) (hx : x ∈ first) : x ∈ before := by
  have hnot : e ∉ first := fun hmem => by
    rw [← mem_callsOf he, hfirst] at hmem
    cases hmem
  rw [hes, List.filter_append, List.filter_cons_of_pos (Entry.isTraced_of_isCall he)] at htraced
  suffices hmem : x ∈ before.filter Entry.isTraced from List.mem_of_mem_filter hmem
  rcases List.append_eq_append_iff.mp htraced with ⟨more, rfl, hmore⟩ | ⟨more, hbefore, -⟩
  · -- the first entries would reach up to the call, and so contain it
    cases more with
    | nil => simpa using hx
    | cons y more =>
      obtain ⟨rfl, -⟩ := List.cons.inj hmore
      simp at hnot
  · rw [hbefore]
    exact List.mem_append_left _ hx

namespace CallsSafely

/-- An update that calls nothing, and whose report says so. -/
theorem of_quiet (hcalls : callsOf (w.since w') = []) (hrunning : report.state ≠ .running)
    (hreverted : report.state ≠ .reverted) : CallsSafely p flow report w w' := by
  have hno : ∀ e ∈ w.since w', ¬ e.isCall = true := List.filter_eq_nil_iff.mp hcalls
  have hstart : ∀ {before after}, ¬ w.since w' =
      before ++ .answered .startProcessing (.ok ()) :: after := fun h =>
    hno (.answered .startProcessing (.ok ())) (by simp [h]) rfl
  refine ⟨fun before e after h he => ?_, ?_, fun _ _ h => absurd h hstart,
    fun _ _ h => absurd h hstart, iff_of_false (fun hmem => hno _ hmem rfl) ?_⟩
  · exact absurd he (hno e (by simp [h]))
  · rw [hcalls]
    exact Cumulative.nil
  · simp [hrunning, hreverted]

/-- An update whose calls make up a series. -/
theorem of_series {failed back : Option PhaseFailure}
    (hopened : ∀ before e after, w.since w' = before ++ e :: after → e.isCall = true →
      ∀ phase ∈ [Phase.enriching, .backingUp, .persisting],
        Entry.asked (.publish (.phaseCompleted report.attemptId phase)) ∈ before)
    (hseries : Series failed back (callsOf (w.since w')))
    (hruns : Series.Runs failed back ↔ report.state = .running ∨ report.state = .reverted ∧
      ∃ phase ∈ [Phase.draining, .reloading, .validating], report.failedPhase = some phase)
    (hstarted : Series.Runs failed back → p.Started flow w w') :
    CallsSafely p flow report w w' := by
  have hmem : Entry.answered .startProcessing (.ok ()) ∈ w.since w' ↔
      Series.Runs failed back := (mem_callsOf rfl).symm.trans hseries.started_mem_iff
  have hat : ∀ before after,
      w.since w' = before ++ .answered .startProcessing (.ok ()) :: after →
      Entry.answered .startProcessing (.ok ()) ∉ before ∧ callsOf after = [] ∧
      ∃ earlier clearance, Cleared clearance ∧ callsOf before =
        earlier ++ (flowLoaded ++ (clearance ++ [.asked .startProcessing])) := by
    intro before after hes
    have hyes : Series.Runs failed back := hmem.mp (by simp [hes])
    obtain ⟨earlier, clearance, hcleared, hcalls, hnot⟩ := hseries.started hyes
    have hsplit : callsOf before ++ .answered .startProcessing (.ok ()) :: callsOf after =
        (earlier ++ (flowLoaded ++ (clearance ++ [Entry.asked .startProcessing]))) ++
          .answered .startProcessing (.ok ()) :: [] := by
      rw [← callsOf_started, ← hes, hcalls]
      simp [Request.noted]
    obtain ⟨hbefore, -, hafter⟩ := (List.append_cons_inj_of_notMem hnot (by simp)).mp hsplit.symm
    refine ⟨?_, hafter.symm, earlier, clearance, hcleared, hbefore.symm⟩
    rw [← mem_callsOf rfl, ← hbefore]
    exact hnot
  refine ⟨hopened, hseries.preceded, fun before after hes => ?_, fun before after hes => ?_,
    hmem.trans hruns⟩
  · obtain ⟨hnot, hafter, -⟩ := hat before after hes
    exact ⟨hnot, hafter⟩
  · obtain ⟨hnot, hafter, hbefore⟩ := hat before after hes
    refine ⟨hbefore, ?_⟩
    -- there is only one start that has succeeded, so that this is the one that is known
    obtain ⟨before', after', c, hes', hholds, hloaded⟩ := hstarted (hmem.mp (by simp [hes]))
    have hnot' : Entry.answered .startProcessing (.ok ()) ∉ after := by
      rw [← mem_callsOf rfl, hafter]
      exact List.not_mem_nil
    obtain ⟨rfl, -, -⟩ := (List.append_cons_inj_of_notMem hnot hnot').mp (hes.symm.trans hes')
    exact ⟨c, hholds, hloaded⟩

end CallsSafely

/-! ### The calls of a whole attempt -/

/-- An attempt has started the flow if it has reached its end, or has come back after a
phase that may have touched the flow. -/
theorem Journey.Sound.runs_iff {j : Journey} (hsound : j.Sound) :
    Series.Runs j.failed j.rollbackFailed ↔ j.outcome.state = .running ∨
      j.outcome.state = .reverted ∧ ∃ phase ∈ [Phase.draining, .reloading, .validating],
        j.failed.map (·.phase) = some phase := by
  obtain ⟨hrunning, -, -, hreverted⟩ := hsound.state_iff
  rw [Series.Runs, hrunning, hreverted]
  refine or_congr_right ⟨?_, ?_⟩
  · rintro ⟨⟨f, hfailed, htouches⟩, hback⟩
    have hphase : f.phase ≠ .enriching := by
      rintro hphase
      rw [hphase] at htouches
      cases htouches
    exact ⟨⟨⟨f, hfailed, hphase⟩, hback⟩, f.phase, Phase.touchesRuntime_iff.mp htouches, by
      rw [hfailed, Option.map_some]⟩
  · rintro ⟨⟨⟨f, hfailed, -⟩, hback⟩, phase, hphase, hsome⟩
    rw [hfailed, Option.map_some] at hsome
    obtain rfl := Option.some.inj hsome
    exact ⟨⟨f, hfailed, Phase.touchesRuntime_iff.mpr hphase⟩, hback⟩

/-- The end of an attempt makes no calls, and tells of no phase. -/
theorem UpdatePlan.conclusion_filter (plan : UpdatePlan) (report : UpdateReport) (duration : Int) :
    (plan.conclusion report duration).filter Entry.isTraced = [] := by
  rw [conclusion]
  split <;> rfl

/-- The completion of a phase that has been passed is told. -/
theorem phaseCompleted_mem {legs : List Leg} {phase : Phase} (id : String)
    (hphase : { phase } ∈ legs.map (·.passage)) :
    Entry.asked (.publish (.phaseCompleted id phase)) ∈ legs.flatMap (Leg.entries id) := by
  obtain ⟨s, hs, hpassage⟩ := List.mem_map.mp hphase
  refine List.mem_flatMap.mpr ⟨s, hs, ?_⟩
  simp [Leg.entries, hpassage, Passage.ending]

/-- Before the first call of an attempt three phases have been completed. -/
theorem Journey.Sound.opened {j : Journey} {legs : List Leg} {first : List Entry} (hsound : j.Sound)
    (hlegs : legs.map (·.passage) = j.passages) (horderly : ∀ s ∈ legs, s.Orderly)
    (hfirst : callsOf first = []) {id : String}
    (htraced : es.filter Entry.isTraced = first ++ legs.flatMap (Leg.entries id)) {e : Entry}
    (hes : es = before ++ e :: after) (he : e.isCall = true) :
    ∀ phase ∈ [Phase.enriching, .backingUp, .persisting],
      Entry.asked (.publish (.phaseCompleted id phase)) ∈ before := by
  rcases hsound.callsIn_cases hlegs horderly with
    hcalls | ⟨opening, more, rfl, hopening, hpassages⟩
  · have hnone : callsOf es = [] := by
      rw [← callsOf_filter, htraced, callsOf_append, hfirst, callsOf_legs id horderly, hcalls,
        List.append_nil]
    exact absurd he (List.filter_eq_nil_iff.mp hnone e (by simp [hes]))
  · rw [List.flatMap_append, ← List.append_assoc] at htraced
    have hquiet : callsOf (first ++ opening.flatMap (Leg.entries id)) = [] := by
      rw [callsOf_append, hfirst, callsOf_legs id (List.forall_mem_append.mp horderly).1, hopening,
        List.append_nil]
    intro phase hphase
    refine mem_before_of_call htraced hquiet hes he (List.mem_append_right _ ?_)
    refine phaseCompleted_mem id ?_
    rw [hpassages]
    revert phase
    decide

namespace Updater

variable {h : Host σ} {file directory : Path} {backupSuffix rawExtension : String}

/-- Inside a host with a simulated flow, in which no request about a span fails, every
update ends with a report and calls the flow safely. -/
theorem ends_apply_callsSafely
    (hderive : FilePaths.derive file directory backupSuffix rawExtension = .ok plan.files)
    (hdistinct : plan.files.all.Nodup) (hsimulates : h.Simulates plan.files flow)
    (hspans : h.Raises fun r _ => r.isSpan = false) (henriches : plan.enriches = true)
    (depth : Nat) (raw : Bytes) (w : World σ) :
    (apply (h.link (console plan) depth) plan raw).Ends w
      (fun report w' => CallsSafely plan.files flow report w w') fun _ _ => False := by
  have hp := FilePaths.separate_of_derive hderive hdistinct
  have hraises : h.Raises fun r e => e.interrupts = false ∧ r.isSpan = false := fun r s =>
    ((hsimulates.raises r s).and (hspans r s)).mono (fun _ _ _ => trivial)
      fun _ _ _ hs e he => ⟨hs.1 e he, hs.2 e he⟩
  have hlink := (hraises.abides (· = true)).hears_console (fun _ _ hb => hb)
    (fun _ => Entry.isTraced_of_murmur) plan depth
  have hlink' := hsimulates.link plan depth
  generalize h.link (console plan) depth = link at hlink hlink'
  cases hdesk : w.desk.engaged with
  | false =>
    have hobserved := Attempt.observed_orderly (a := newAttempt link raw w) hlink
      (fun r e he => (he e rfl).1) (fun r hr e he => by simp [(he e rfl).2] at hr) henriches
    refine ((ends_apply_travelled hdesk hobserved rfl).and
      (ends_started hp hlink' hdesk raw)).mono ?_ fun _ _ he => he.1
    rintro report w' ⟨⟨j, legs, drained, completedAt, hsound, hlegs, horderly, rfl, -, hes⟩,
      hstarted⟩
    rw [UpdatePlan.conclusion_filter, List.append_nil] at hes
    have hcalls : callsOf (w.since w') = callsIn legs := by
      rw [← callsOf_filter, hes, callsOf_append, callsOf_legs _ horderly]
      rfl
    refine .of_series (fun before e after hsince he => ?_)
      (hcalls ▸ hsound.series hlegs horderly) hsound.runs_iff fun hruns => hstarted ?_
    · exact hsound.opened hlegs horderly rfl hes hsince he
    · refine (hsound.runs_iff.mp hruns).imp_right (And.imp_right ?_)
      rintro ⟨phase, hphase, hfailed⟩
      exact ⟨phase, hfailed, Phase.touchesRuntime_iff.mpr hphase⟩
  | true =>
    rw [ends_apply_of_engaged hdesk, ends_bind, Attempt.say, Act.say, ends_record]
    refine ((hlink.finish_yields (fun r _ e he => (he e rfl).1) ((watches_isTraced "").told)
      (newAttempt link raw w) refused none).ends _).mono ?_ fun _ _ he => he
    rintro report w' ⟨l, ⟨completedAt, rfl, rfl⟩, hreads⟩
    obtain ⟨-, -, -, -, hes⟩ := hreads hdesk
    rw [UpdatePlan.conclusion_filter] at hes
    refine .of_quiet ?_ (fun h => by cases h) fun h => by cases h
    rw [← callsOf_filter, World.since]
    exact congrArg callsOf hes

attribute [local irreducible] Act.Ends Sample.replaced in
/-- A running configuration of one byte is replaced by another one, which is started. -/
theorem ends_apply_callsSafely_sample :
    ∃ report, Sample.replaced.1 = .ok report ∧ report.state = .running ∧
      CallsSafely Sample.plan.files id report Sample.running Sample.replaced.2 := by
  have hstate : Sample.replaced.1.toOption.map (fun report => report.state) = some .running := by
    decide +kernel
  have hspans : (Host.simulated Sample.plan.files.active).Raises fun r _ => r.isSpan = false := by
    intro r s e he
    cases r <;> first | rfl | cases he
  cases hreport : Sample.replaced.1 with
  | error e =>
    rw [hreport] at hstate
    cases hstate
  | ok report =>
    refine ⟨report, rfl, by simpa [hreport, Except.toOption] using hstate, ?_⟩
    exact (ends_apply_callsSafely Sample.derive_eq Sample.nodup_files
      (Host.simulated_simulates Sample.plan.files) hspans rfl 0 [2] Sample.running).ok
      (Sample.replaced_eq.trans (Prod.ext hreport rfl))

end Updater

end HotSwap
