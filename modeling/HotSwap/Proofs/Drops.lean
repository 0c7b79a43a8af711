/-
What a drain does to queued work.

Before the first poll every source is asked to stop, and nobody else.  Only if the last poll
has found something, or has failed, is what is queued dropped, once and after all processing
was stopped; and all processing is stopped in the end.

* `Drain.Classifies` — which components are the sources, as far as the host has said;
* `Drain.Conserves` — what a drain asks for that bears on queued work, and what it reports
  of that;
* `Attended.drain_conserves` — every drain does so, however the host answers, if the
  identifiers of its endpoints can be read.

Design notes: the answers are read apart from the requests.  Each request has one answer, so
that both are lists of one length.
-/
import HotSwap.Proofs.Drainage

namespace HotSwap

open Act

variable {σ : Type} {w : World σ}

/-! ### Requests and answers -/

namespace Request

/-- How a component was asked to stop, and what came of it. -/
def stop? : (r : Request) → Except Fault r.Answer → Option (String × Except Fault Unit)
  | .stopComponent id, answer => some (id, answer)
  | _, _ => none

/-- The answer to a poll of the queues. -/
def poll? : (r : Request) → Except Fault r.Answer → Option (Except Fault Bool)
  | .isDataQueued, answer => some answer
  | _, _ => none

/-- The processors that the host has named. -/
def processors? : (r : Request) → Except Fault r.Answer → Option (List Component)
  | .processors, .ok components => some components
  | _, _ => none

/-- A component with its identifier, as the host has named it. -/
def identifier? : (r : Request) → Except Fault r.Answer → Option (Component × String)
  | .componentIdentifier c, .ok id => some (c, id)
  | _, _ => none

/-- The connections that the host has named. -/
def connections? : (r : Request) → Except Fault r.Answer → Option (List Connection)
  | .connections, .ok cs => some cs
  | _, _ => none

end Request

/-- Whether a request bears on the work that is queued. -/
def Request.bearsOnQueues : Request → Bool
  | .stopComponent _ | .isDataQueued | .stopProcessing | .dropAllQueued ..
  | .publish (.drainForced ..) => true
  | _ => false

namespace Drain

/-- The requests with which what is queued is dropped, after so many polls. -/
def dropping (polls : Nat) (requestId : String) : List Request :=
  [.stopProcessing, .dropAllQueued requestId drainRequestor,
    .publish (.drainForced polls requestId)]

/-- The components are the sources of the flow, if the host has said what its processors,
their identifiers and its connections are; otherwise there are none. -/
def Classifies (es : List Entry) (ids : List String) : Prop :=
  (∃ connections, answersOf Request.connections? es = [connections] ∧
    answersOf Request.processors? es = [(answersOf Request.identifier? es).map Prod.fst] ∧
    ids = sources ((answersOf Request.identifier? es).map Prod.snd) connections) ∨
  answersOf Request.connections? es = [] ∧ ids = []

/-- What a drain asks for that bears on queued work, and what it reports of that. -/
structure Conserves (maxRetries : Nat) (es : List Entry) (report : DrainReport) : Prop where
  /-- Exactly the sources are asked to stop. -/
  classified : Classifies es ((answersOf Request.stop? es).map Prod.fst)
  /-- Those that did stop are reported. -/
  stopped : report.sourcesStopped =
    ((answersOf Request.stop? es).filter fun s => s.2.isOk).map Prod.fst
  polls : 1 ≤ report.polls ∧ report.polls ≤ maxRetries + 1
  /-- Every poll but the last has found something, or has asked for another one, and the last
  one decides. -/
  answers : ∃ before last, answersOf Request.poll? es = before ++ [last] ∧
    before.length + 1 = report.polls ∧
    (∀ a ∈ before, a = .ok true ∨ ∃ e : Fault, e.asksAgain = true ∧ a = .error e) ∧
    (report.graceful = true ↔ last = .ok false)
  /-- Sources, polls, the drop if there is one, and the stop of all processing, in this order
  and nothing else. -/
  steps : ∃ requestId, requestsOf Request.bearsOnQueues es =
    (answersOf Request.stop? es).map (fun s => .stopComponent s.1) ++
    (List.replicate report.polls .isDataQueued ++
    ((if report.graceful then [] else dropping report.polls requestId) ++ [.stopProcessing]))

/-! ### Parts -/

theorem flatMap_nothing {α β : Type} (xs : List α) :
    xs.flatMap (fun _ => ([] : List β)) = [] :=
  List.flatMap_eq_nil_iff.mpr fun _ _ => rfl

theorem Unclassified.unread {e : Entry} (h : Unclassified e) :
    answerIn Request.stop? e = none ∧ answerIn Request.connections? e = none ∧
      requestIn Request.bearsOnQueues e = none := by
  cases e with
  | asked r => rcases h with rfl | ⟨_, rfl⟩ | rfl <;> exact ⟨rfl, rfl, rfl⟩
  | answered r answer =>
    cases r with
    | connections =>
      cases answer with
      | ok _ => exact h.elim
      | error _ => exact ⟨rfl, rfl, rfl⟩
    | _ => first | exact ⟨rfl, rfl, rfl⟩ | exact h.elim
  | _ => exact h.elim

namespace Intake

theorem Begun.stops_read {i : Intake} (h : i.Begun) :
    answersOf Request.stop? i.entries = i.stops := by
  cases i with
  | unclassified es => exact List.filterMap_eq_nil_iff.mpr fun e he => (h e he).unread.1
  | classified c stops =>
    simp [entries, Intake.stops, Classification.entries, Request.noted, answerIn, Request.stop?,
      List.filterMap_flatMap, List.filterMap_cons, flatMap_nothing]

variable {i : Intake} (h : i.Sound)

include h

theorem Sound.steps_read : requestsOf Request.bearsOnQueues i.entries =
    i.stops.map fun s => .stopComponent s.1 := by
  cases i with
  | unclassified es => exact List.filterMap_eq_nil_iff.mpr fun e he => (h e he).unread.2.2
  | classified c stops =>
    simp [entries, Intake.stops, Classification.entries, Request.noted, requestIn,
      Request.bearsOnQueues, List.filterMap_flatMap, List.filterMap_cons, List.map_eq_flatMap]

theorem Sound.classifies : Classifies i.entries (i.stops.map Prod.fst) := by
  cases i with
  | unclassified es =>
    exact .inr ⟨List.filterMap_eq_nil_iff.mpr fun e he => (h e he).unread.2.1, rfl⟩
  | classified c stops =>
    have hnamed : answersOf Request.identifier? (classified c stops).entries = c.named := by
      simp [entries, Classification.entries, Request.noted, answerIn, Request.identifier?,
        List.filterMap_flatMap, List.filterMap_cons]
    refine .inl ⟨c.connections, ?_, ?_, ?_⟩
    · simp [entries, Classification.entries, Request.noted, answerIn, Request.connections?,
        List.filterMap_flatMap, List.filterMap_cons, flatMap_nothing]
    · rw [hnamed]
      simp [entries, Classification.entries, Request.noted, answerIn, Request.processors?,
        List.filterMap_flatMap, List.filterMap_cons]
    · rw [hnamed]
      exact h

end Intake

theorem Polling.leavesOpen_iff {a : Except Fault Bool} :
    leavesOpen (fun queued => !queued) a = true ↔
      a = .ok true ∨ ∃ e : Fault, e.asksAgain = true ∧ a = .error e := by
  cases a <;> simp [leavesOpen]

theorem Polling.answers_read (p : Polling) : answersOf Request.poll? p.entries = p.answers := by
  simp [entries, Request.noted, answerIn, Request.poll?, List.filterMap_flatMap,
    List.filterMap_cons]

theorem Polling.steps_read (p : Polling) {kind : Request → Bool}
    (hkind : kind .isDataQueued = true) :
    requestsOf kind p.entries = List.replicate p.polls .isDataQueued :=
  calc requestsOf kind p.entries
      = p.answers.flatMap fun _ => [.isDataQueued] := by
        simp [entries, Request.noted, requestIn, hkind, List.filterMap_flatMap, List.filterMap_cons]
    _ = p.answers.map fun _ => .isDataQueued := List.map_eq_flatMap.symm
    _ = List.replicate p.polls .isDataQueued := by
        rw [List.map_const', answers, List.length_append]
        rfl

theorem Account.halt_read (c : Account) (polls : Nat) :
    requestsOf Request.bearsOnQueues (c.halt polls) =
      c.forcing.elim [] (fun f => dropping polls f.requestId) ++ [.stopProcessing] := by
  cases h : c.forcing with
  | none => simp [halt, h, Request.noted, requestIn, Request.bearsOnQueues, List.filterMap_cons]
  | some f =>
    simp [halt, h, Forcing.entries, dropping, Request.noted, requestIn, Request.bearsOnQueues,
      List.filterMap_cons]

/-- Nothing about the endpoints bears on what is queued. -/
theorem Silencing.steps_read (s : Silencing) (timeout : Float) :
    requestsOf Request.bearsOnQueues (s.entries timeout) = [] := by
  refine List.filterMap_eq_nil_iff.mpr fun e he => ?_
  have hstage := s.about timeout e he
  cases e with
  | asked r =>
    cases r with
    | publish event => cases event <;> first | rfl | cases hstage
    | _ => first | rfl | cases hstage
  | _ => rfl

/-! ### Drains -/

namespace Account

variable {U : Endpoint → Fault → Prop} {budget : Budget} {c : Account} {report : DrainReport}
  {es : List Entry} {timeout : Float}

/-- The questions in the journal are the polls of the drain. -/
theorem ShownIn.queries_eq {polls : Nat} (h : c.ShownIn es polls timeout)
    (hintake : c.intake.Sound) : queries es = c.polling.polls := by
  have hread : requestsOf (fun r => (Entry.asked r).isQuery) es =
      List.replicate c.polling.polls .isDataQueued :=
    (h.filterMap_queues hintake (onlyAbout_requestIn fun r hr => by
      cases r <;> first | rfl | exact absurd rfl hr)).trans (c.polling.steps_read rfl)
  have hcount : queries es = (requestsOf (fun r => (Entry.asked r).isQuery) es).length := by
    rw [queries, List.length_filterMap_eq_countP]
    refine List.countP_congr fun e _ => ?_
    cases e with
    | asked r => cases r <;> simp [Entry.isQuery, requestIn]
    | _ => simp [Entry.isQuery, requestIn]
  rw [hcount, hread, List.length_replicate]

/-- What a drain asks for that bears on queued work, read off its parts. -/
theorem ShownIn.steps_eq {polls : Nat} (h : c.ShownIn es polls timeout)
    (hintake : c.intake.Sound) : requestsOf Request.bearsOnQueues es =
      c.intake.stops.map (fun s => .stopComponent s.1) ++
      (List.replicate c.polling.polls .isDataQueued ++
      (c.forcing.elim [] (fun f => dropping polls f.requestId) ++ [.stopProcessing])) := by
  have hread : requestsOf Request.bearsOnQueues es =
      requestsOf Request.bearsOnQueues c.intake.entries ++
      (requestsOf Request.bearsOnQueues c.polling.entries ++
      (requestsOf Request.bearsOnQueues (c.halt polls) ++
      requestsOf Request.bearsOnQueues (c.silencing.entries timeout))) :=
    h.filterMap_eq fun e he => by
      cases e with
      | asked r =>
        cases r with
        | publish event => cases event <;> first | rfl | cases he
        | _ => first | rfl | cases he
      | _ => rfl
  rw [hread, hintake.steps_read, c.polling.steps_read rfl, c.halt_read, c.silencing.steps_read,
    List.append_nil]

theorem Makes.conserves (hc : c.Makes U budget report) (h : c.ShownIn es report.polls timeout)
    (hpolls : report.polls = queries es) : Conserves budget.maxRetries es report := by
  have hquery : report.polls = c.polling.polls := hpolls.trans (h.queries_eq hc.intake)
  have hsources : ∀ {β : Type} {f : (r : Request) → Except Fault r.Answer → Option β},
      (∀ r, r.stage ≠ some .sources → ∀ answer, f r answer = none) →
      answersOf f es = answersOf f c.intake.entries :=
    fun hf => h.filterMap_sources (onlyAbout_answerIn hf)
  have hstops : answersOf Request.stop? es = c.intake.stops :=
    (hsources fun r hr _ => by cases r <;> first | rfl | exact absurd rfl hr).trans
      hc.intake.begun.stops_read
  have hanswers : answersOf Request.poll? es = c.polling.answers :=
    (h.filterMap_queues hc.intake (onlyAbout_answerIn fun r hr _ => by
      cases r <;> first | rfl | exact absurd rfl hr)).trans c.polling.answers_read
  refine ⟨?_, ?_, ?_, ⟨c.polling.before, c.polling.last, hanswers, hquery.symm, ?_, ?_⟩, ?_⟩
  · rw [hstops, Classifies,
      hsources fun r hr _ => by cases r <;> first | rfl | exact absurd rfl hr,
      hsources fun r hr _ => by cases r <;> first | rfl | exact absurd rfl hr,
      hsources fun r hr _ => by cases r <;> first | rfl | exact absurd rfl hr]
    exact hc.intake.classifies
  · rw [hstops]
    exact hc.sourcesStopped
  · rw [hquery]
    exact ⟨Nat.succ_pos _, Nat.succ_le_succ hc.budget⟩
  · exact fun a ha => Polling.leavesOpen_iff.mp (c.polling.leaves a ha)
  · rw [hc.graceful, Polling.graceful]
    rcases c.polling.last with fault | _ | _ <;> simp
  · have hforcing := hc.forcing
    rw [← hc.graceful] at hforcing
    rw [h.steps_eq hc.intake, hstops, ← hquery]
    -- work is dropped if and only if the drain was not graceful
    cases hf : c.forcing with
    | none =>
      have hgraceful : report.graceful = true := by simpa [hf] using hforcing
      exact ⟨"", by rw [if_pos hgraceful]; rfl⟩
    | some f =>
      have hgraceful : ¬ report.graceful = true := by simpa [hf] using hforcing
      exact ⟨f.requestId, by rw [if_neg hgraceful]; rfl⟩

end Account

end Drain

/-- However its host answers and whatever ordinary faults it raises, a drain stops the sources
first, drops what is queued only if the last poll has not found nothing, and reports that. -/
theorem Attended.drain_conserves {console : Link σ → Command → Act σ Reply}
    (hw : Attended console w) {h : Host σ} (hh : h.Legible) (depth : Nat) (plan : DrainPlan)
    (listens : Bool) :
    (drain (h.link console depth) plan listens).Ends w
      (fun report w' => Drain.Conserves plan.budget.maxRetries (w.since w') report)
      fun _ _ => False := by
  refine (hw.ends_drain_legible hh depth plan listens).mono ?_ fun _ _ he => he
  rintro report w' ⟨hpolls, c, hc, hshown⟩
  exact hc.conserves hshown hpolls

/-! ### A laden host -/

namespace Sample

/-- A host with one source and one sink between which work is always queued, and which cannot
drop it. -/
def laden : Host Nat :=
  { Host.plain (fun _ => none) fun _ _ => none with
    reply := fun r s => match r with
      | .processors => .done (.ok ([{ index := 0 }, { index := 1 }] : List Component)) s
      | .componentIdentifier c => .done (.ok (toString c.index)) s
      | .connections => .done (.ok [{ source := "0", destination := "1" : Connection }]) s
      | .isDataQueued => .done (.ok true) s
      | .dropAllQueued .. => .done (.error (.raised "RuntimeError" "")) s
      | r => .done (.ok r.plainAnswer) s }

/-- The end of its drain, with two polls at most. -/
def dropped : Except Fault DrainReport × World Nat :=
  (drain (laden.link tokenConsole 0)
    { budget := { maxRetries := 1, pause := .int 0 }, stopTimeout := 0 } true).run world

theorem legible_laden : laden.Legible := by
  intro r s
  cases r with
  | dropAllQueued =>
    refine fun e he => ?_
    cases he
    exact ⟨rfl, by simp⟩
  | _ => exact fun e he => by cases he

theorem dropped_eq : (drain (laden.link tokenConsole 0)
    { budget := { maxRetries := 1, pause := .int 0 }, stopTimeout := 0 } true).run world =
      dropped :=
  rfl

end Sample

attribute [local irreducible] Act.Ends Sample.dropped in
/-- A source is stopped, and the work that is queued then could not be dropped. -/
theorem Attended.drain_conserves_laden :
    Attended tokenConsole Sample.world ∧ Sample.laden.Legible ∧
    Sample.dropped.1 = .ok { graceful := false, polls := 2, sourcesStopped := ["0"] } ∧
    Drain.Conserves 1 (Sample.world.since Sample.dropped.2)
      { graceful := false, polls := 2, sourcesStopped := ["0"] } := by
  have hreport : Sample.dropped.1 =
      .ok { graceful := false, polls := 2, sourcesStopped := ["0"] } := by decide +kernel
  exact ⟨.token _, Sample.legible_laden, hreport,
    (Attended.drain_conserves (.token _) Sample.legible_laden 0 _ true).ok
      (Sample.dropped_eq.trans (Prod.ext hreport rfl))⟩

end HotSwap
