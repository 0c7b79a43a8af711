/-
An update in two worlds at once.

Through links that accord with each other, an update goes the same way from worlds that
are twins: the same requests in the same order, the same work on the files, the same
phases, and at the end the same report.

* `pollUntil_tracks` — polling, where both loops listen to the same token or to none;
* `drain_tracks`, `loadFlow_tracks`, `validateAndStart_tracks` — the drain and the reload;
* `Attempt.runPhase_pairs` — one phase, which both worlds enter together;
* `Attempt.rollBack_pairs`, `Attempt.commit_pairs` — the way back and the way forward;
* `Updater.attempt_pairs` — the attempt as a whole.
-/
import HotSwap.Proofs.Twins

namespace HotSwap

open Act

variable {σ τ α β : Type} {κ : Comparison σ τ} {p : Phase} {link : Link σ} {link' : Link τ}
  {plan : UpdatePlan} {keeps : Bool}

/-! ### Polling -/

theorem toldToStop_tracks {listens : Bool} (hp : listens = true → p.isWayBack = false) :
    Tracks (Twins κ p) (toldToStop listens : Act σ Bool) (toldToStop listens : Act τ Bool) Eq := by
  cases listens with
  | false => exact fun w v hwv => ⟨.ok rfl, hwv⟩
  | true => exact fun w v hwv => ⟨.ok (hwv.cancelled (hp rfl)), hwv⟩

theorem pollOnce_tracks {listens : Bool} (hp : listens = true → p.isWayBack = false)
    {ask : Act σ α} {ask' : Act τ α} {settled : α → Act σ Bool} {settled' : α → Act τ Bool}
    (hask : Tracks (Twins κ p) ask ask' Eq)
    (hsettled : ∀ x, Tracks (Twins κ p) (settled x) (settled' x) Eq) (poll : Nat) :
    Tracks (Twins κ p) (pollOnce listens ask settled poll) (pollOnce listens ask' settled' poll)
      Eq := by
  refine hask.outcome.bind fun r r' hr => ?_
  obtain rfl := hr.eq
  cases r with
  | ok value =>
    refine (hsettled value).then fun done => ?_
    cases done with
    | true => exact tracks_pure rfl
    | false =>
      refine (toldToStop_tracks hp).then fun told => ?_
      cases told with
      | true => exact tracks_pure rfl
      | false => exact tracks_pure rfl
  | error fault =>
    refine (toldToStop_tracks hp).then fun told => ?_
    cases fault.asksAgain && !told with
    | true => exact tracks_pure rfl
    | false => exact tracks_raise fault

section

variable (h : link.Accords κ plan keeps link')

include h

theorem pollFrom_tracks (budget : Budget) {listens : Bool}
    (hp : listens = true → p.isWayBack = false) {ask : Act σ α} {ask' : Act τ α}
    {settled : α → Act σ Bool} {settled' : α → Act τ Bool}
    (hask : Tracks (Twins κ p) ask ask' Eq)
    (hsettled : ∀ x, Tracks (Twins κ p) (settled x) (settled' x) Eq) (left poll : Nat) :
    Tracks (Twins κ p) (pollFrom link budget listens ask settled left poll)
      (pollFrom link' budget listens ask' settled' left poll) Eq := by
  induction left generalizing poll with
  | zero =>
    refine hask.then fun value => (hsettled value).then fun done => ?_
    cases done with
    | true => exact tracks_pure rfl
    | false => exact (toldToStop_tracks hp).then fun _ => tracks_pure rfl
  | succ left ih =>
    refine (pollOnce_tracks hp hask hsettled poll).then fun answer => ?_
    cases answer with
    | some answer => exact tracks_pure rfl
    | none => exact say_tracks.then fun _ => (h.ask_same _ rfl).then fun _ => ih (poll + 1)

theorem pollUntil_tracks (budget : Budget) {listens : Bool}
    (hp : listens = true → p.isWayBack = false) {ask : Act σ α} {ask' : Act τ α}
    {settled : α → Act σ Bool} {settled' : α → Act τ Bool}
    (hask : Tracks (Twins κ p) ask ask' Eq)
    (hsettled : ∀ x, Tracks (Twins κ p) (settled x) (settled' x) Eq) :
    Tracks (Twins κ p) (pollUntil link budget listens ask settled)
      (pollUntil link' budget listens ask' settled') Eq :=
  pollFrom_tracks h budget hp hask hsettled budget.maxRetries 1

/-! ### Bringing the flow to rest -/

namespace Drain

/-- The observers are told the same; what comes of it is only logged. -/
theorem publish_tracks {e e' : Event} (he : e.Like κ.loose e') :
    Tracks (Twins κ p) (publish link e) (publish link' e') Eq := by
  refine h.publish_bind he fun answer answer' => ?_
  rcases answer, answer' with ⟨fault | _, fault' | _⟩
  · exact say_tracks
  · exact say_pure_tracks
  · exact pure_say_tracks
  · exact tracks_pure rfl

theorem identifiers_tracks (cs : List Component) :
    Tracks (Twins κ p) (identifiers link cs) (identifiers link' cs) Eq := by
  induction cs with
  | nil => exact tracks_pure rfl
  | cons c cs ih =>
    exact (h.ask_same (.componentIdentifier c) rfl).then fun _ => ih.then fun _ => tracks_pure rfl

theorem classify_tracks : Tracks (Twins κ p) (classify link) (classify link') Eq := by
  refine (h.ask_same .processors rfl).then fun processors => ?_
  refine (identifiers_tracks h processors).then fun components => ?_
  exact (h.ask_same .connections rfl).then fun connections => tracks_pure rfl

theorem stopEach_tracks (ids : List String) :
    Tracks (Twins κ p) (stopEach link ids) (stopEach link' ids) Eq := by
  induction ids with
  | nil => exact tracks_pure rfl
  | cons id ids ih =>
    refine (h.ask_same (.stopComponent id) rfl).caught fun answer => ?_
    cases answer with
    | ok _ => exact ih.then fun _ => tracks_pure rfl
    | error fault => exact say_tracks.then fun _ => ih

theorem stopSources_tracks : Tracks (Twins κ p) (stopSources link) (stopSources link') Eq := by
  refine (classify_tracks h).caught fun answer => ?_
  cases answer with
  | error fault => exact say_tracks.then fun _ => tracks_pure rfl
  | ok ids =>
    exact (stopEach_tracks h ids).then fun _ => say_tracks.then fun _ => tracks_pure rfl

omit h in
/-- The end of waiting, with the number of polls. -/
private theorem polled_tracks (graceful : Bool) :
    Tracks (Twins κ p) (do return (graceful, (← Act.desk).queuePolls) : Act σ (Bool × Nat))
      (do return (graceful, (← Act.desk).queuePolls) : Act τ (Bool × Nat)) Eq :=
  fun _ _ hwv => ⟨.ok (congrArg _ hwv.polls), hwv⟩

theorem askQueued_tracks : Tracks (Twins κ p) (askQueued link) (askQueued link') Eq := by
  have hcount : Tracks (Twins κ p)
      (changeDesk fun d => { d with queuePolls := d.queuePolls + 1 } : Act σ Unit)
      (changeDesk fun d => { d with queuePolls := d.queuePolls + 1 } : Act τ Unit) Eq :=
    pairs_change fun _ _ hwv => { hwv with polls := congrArg (· + 1) hwv.polls }
  exact hcount.then fun _ => h.ask_same .isDataQueued rfl

theorem awaitEmpty_tracks (budget : Budget) {listens : Bool}
    (hp : listens = true → p.isWayBack = false) :
    Tracks (Twins κ p) (awaitEmpty link budget listens) (awaitEmpty link' budget listens) Eq := by
  have hreset : Tracks (Twins κ p) (changeDesk fun d => { d with queuePolls := 0 } : Act σ Unit)
      (changeDesk fun d => { d with queuePolls := 0 } : Act τ Unit) Eq :=
    pairs_change fun w v hwv => hwv.withPolls 0
  refine hreset.then fun _ => ?_
  refine (pollUntil_tracks h budget hp (askQueued_tracks h) fun _ => tracks_pure rfl).caught
    fun answer => ?_
  rcases answer with fault | _ | residual
  · exact say_tracks.then fun _ => polled_tracks false
  · exact polled_tracks true
  · dsimp only
    split
    · exact say_tracks.then fun _ => polled_tracks false
    · exact polled_tracks false

theorem stopProcessing_tracks :
    Tracks (Twins κ p) (stopProcessing link) (stopProcessing link') Eq := by
  refine (h.ask_same .stopProcessing rfl).caught fun answer => ?_
  cases answer with
  | ok _ => exact tracks_pure rfl
  | error fault => exact say_tracks

theorem force_tracks (budget : Budget) (polls : Nat) :
    Tracks (Twins κ p) (force link budget polls) (force link' budget polls) Eq := by
  refine h.newId_tracks.bind fun id id' hid => say_tracks.then fun _ => ?_
  refine (stopProcessing_tracks h).then fun _ => ?_
  have hdrop : Tracks (Twins κ p) (link.ask (.dropAllQueued id drainRequestor))
      (link'.ask (.dropAllQueued id' drainRequestor)) Eq :=
    (h.ask (.dropAllQueued hid drainRequestor) rfl).mono fun _ _ => eq_of_heq
  refine hdrop.caught fun answer => ?_
  cases answer with
  | ok _ => exact publish_tracks h (.drainForced polls hid)
  | error fault => exact say_tracks.then fun _ => publish_tracks h (.drainForced polls hid)

theorem requestStop_tracks (e : Endpoint) :
    Tracks (Twins κ p) (requestStop link e) (requestStop link' e) Eq :=
  (h.ask_same (.endpointIdentifier e) rfl).then fun _ =>
    (h.ask_same (.stopTransmitting e) rfl).then fun _ => tracks_pure rfl

theorem requestStops_tracks (es : List Endpoint) :
    Tracks (Twins κ p) (requestStops link es) (requestStops link' es) Eq := by
  induction es with
  | nil => exact tracks_pure rfl
  | cons e es ih =>
    refine (requestStop_tracks h e).caught fun answer => ?_
    cases answer with
    | ok stopping => exact ih.then fun _ => tracks_pure rfl
    | error fault =>
      refine (h.ask_same (.endpointIdentifier e) rfl).then fun logged => say_tracks.then fun _ => ?_
      exact (h.ask_same (.endpointIdentifier e) rfl).then fun _ => ih.then fun _ => tracks_pure rfl

theorem awaitEndpoint_tracks (timeout : Float) (s : Stopping) :
    Tracks (Twins κ p) (awaitEndpoint link timeout s) (awaitEndpoint link' timeout s) Eq := by
  refine (h.ask_same (.awaitStop s.transmission timeout) rfl).caught fun answer => ?_
  cases answer with
  | ok _ => exact tracks_pure rfl
  | error fault =>
    dsimp only
    split
    · exact say_tracks.then fun _ =>
        (publish_tracks h (.transmissionStopTimedOut s.endpointId timeout)).then fun _ =>
          tracks_pure rfl
    · exact say_tracks.then fun _ => tracks_pure rfl

theorem awaitEach_tracks (timeout : Float) (ss : List Stopping) :
    Tracks (Twins κ p) (awaitEach link timeout ss) (awaitEach link' timeout ss) Eq := by
  induction ss with
  | nil => exact tracks_pure rfl
  | cons s ss ih =>
    refine (awaitEndpoint_tracks h timeout s).then fun stopped => ?_
    cases stopped with
    | true => exact ih
    | false => exact ih.then fun _ => tracks_pure rfl

theorem stopTransmission_tracks (timeout : Float) :
    Tracks (Twins κ p) (stopTransmission link timeout) (stopTransmission link' timeout) Eq := by
  refine (h.ask_same .remoteEndpoints rfl).caught fun answer => ?_
  cases answer with
  | error fault => exact say_tracks.then fun _ => tracks_pure rfl
  | ok endpoints =>
    refine (requestStops_tracks h endpoints).then fun stops => ?_
    exact (awaitEach_tracks h timeout stops.1).then fun _ => tracks_pure rfl

end Drain

theorem drain_tracks (drainage : DrainPlan) {listens : Bool}
    (hp : listens = true → p.isWayBack = false) :
    Tracks (Twins κ p) (drain link drainage listens) (drain link' drainage listens) Eq := by
  refine say_tracks.then fun _ => (Drain.stopSources_tracks h).then fun stopped => ?_
  refine (Drain.awaitEmpty_tracks h drainage.budget hp).then fun (graceful, polls) => ?_
  have hstop := fun graceful => (Drain.stopProcessing_tracks (p := p) h).then fun _ =>
    (Drain.stopTransmission_tracks h drainage.stopTimeout).then fun endpoints =>
      tracks_pure (x := DrainReport.mk graceful polls stopped endpoints) rfl
  cases graceful with
  | true => exact say_tracks.then fun _ => hstop true
  | false => exact (Drain.force_tracks h drainage.budget polls).then fun _ => hstop false

/-! ### Bringing a configuration to run -/

namespace Reload

omit h in
theorem step_tracks (s : ReloadStep) {a : Act σ α} {b : Act τ α}
    (hab : Tracks (Twins κ p) a b Eq) :
    Tracks (Twins κ p) (step s a) (step s b) Eq := by
  refine hab.caught fun answer => ?_
  cases answer with
  | ok x => exact tracks_pure rfl
  | error fault => exact tracks_raise _

theorem distinct_tracks (seen : List String) (cs : List Component) :
    Tracks (Twins κ p) (distinct link seen cs) (distinct link' seen cs) Eq := by
  induction cs generalizing seen with
  | nil => exact tracks_pure rfl
  | cons c cs ih =>
    refine (h.ask_same (.componentIdentifier c) rfl).then fun id => ?_
    split
    · exact ih seen
    · exact (h.ask_same (.componentIdentifier c) rfl).then fun id =>
        (ih (id :: seen)).then fun _ => tracks_pure rfl

theorem components_tracks : Tracks (Twins κ p) (components link) (components link') Eq := by
  refine (h.ask_same .controllerServices rfl).then fun services => ?_
  refine (h.ask_same .reportingTasks rfl).then fun tasks => ?_
  refine (h.ask_same .processors rfl).then fun processors => ?_
  exact (distinct_tracks h [] processors).then fun _ => tracks_pure rfl

theorem unsettled_tracks (cs : List Component) :
    Tracks (Twins κ p) (unsettled link cs) (unsettled link' cs) Eq := by
  induction cs with
  | nil => exact tracks_pure rfl
  | cons c cs ih =>
    exact (h.ask_same (.performValidation c) rfl).then fun _ => ih.then fun _ => tracks_pure rfl

theorem issues_tracks (cs : List Component) :
    Tracks (Twins κ p) (issues link cs) (issues link' cs) Eq := by
  have hname : ∀ c messages, Tracks (Twins κ p) (issues.name link c messages)
      (issues.name link' c messages) Eq := by
    intro c messages
    induction messages with
    | nil => exact tracks_pure rfl
    | cons message rest ih =>
      exact (h.ask_same (.componentIdentifier c) rfl).then fun _ => ih.then fun _ => tracks_pure rfl
  induction cs with
  | nil => exact tracks_pure rfl
  | cons c cs ih =>
    exact (h.ask_same (.validationErrors c) rfl).then fun messages =>
      (hname c messages).then fun _ => ih.then fun _ => tracks_pure rfl

theorem identifiers_tracks (cs : List Component) :
    Tracks (Twins κ p) (identifiers link cs) (identifiers link' cs) Eq := by
  induction cs with
  | nil => exact tracks_pure rfl
  | cons c cs ih =>
    exact (h.ask_same (.componentIdentifier c) rfl).then fun _ => ih.then fun _ => tracks_pure rfl

theorem settle_tracks (budget : Budget) {listens : Bool}
    (hp : listens = true → p.isWayBack = false) :
    Tracks (Twins κ p) (settle link budget listens) (settle link' budget listens) Eq :=
  (components_tracks h).then fun cs =>
    (pollUntil_tracks h budget hp (unsettled_tracks h cs) fun _ => tracks_pure rfl).then fun _ =>
      tracks_pure rfl

end Reload

theorem loadFlow_tracks : Tracks (Twins κ p) (loadFlow link) (loadFlow link') Eq :=
  say_tracks.then fun _ => Reload.step_tracks .load <|
    (h.ask_same .loadConfiguration rfl).then fun _ => h.ask_same .rebuild rfl

theorem validateAndStart_tracks (budget : Budget) {listens : Bool}
    (hp : listens = true → p.isWayBack = false) :
    Tracks (Twins κ p) (validateAndStart link budget listens)
      (validateAndStart link' budget listens) Eq := by
  refine (Reload.step_tracks _ (Reload.settle_tracks h budget hp)).then fun (cs, pending) => ?_
  cases pending with
  | some pending =>
    exact (Reload.identifiers_tracks h pending.value).then fun ids =>
      say_tracks.then fun _ => tracks_raise _
  | none =>
    refine (Reload.step_tracks _ (Reload.issues_tracks h cs)).then fun found => ?_
    dsimp only
    split
    · exact say_tracks.then fun _ => (tracks_raise _).then fun _ =>
        (Reload.step_tracks _ (h.ask_same .startProcessing rfl)).then fun _ => say_tracks
    · exact (Reload.step_tracks _ (h.ask_same .startProcessing rfl)).then fun _ => say_tracks

theorem reloadFlow_tracks (budget : Budget) {listens : Bool}
    (hp : listens = true → p.isWayBack = false) :
    Tracks (Twins κ p) (reloadFlow link budget listens) (reloadFlow link' budget listens) Eq :=
  (loadFlow_tracks h).then fun _ => validateAndStart_tracks h budget hp

/-! ### Spans -/

namespace Tracing

/-- Facts that are noted on a span in both worlds. -/
def FactsAlike (loose : Prop) (fact fact' : String × Data) : Prop :=
  fact = fact' ∨ ∃ id id' : String, Loosely loose id id' ∧
    fact = ("update.attempt_id", .text id) ∧ fact' = ("update.attempt_id", .text id')

theorem annotate_tracks (s : Span) {facts facts' : List (String × Data)}
    (hfacts : List.Forall₂ (FactsAlike κ.loose) facts facts') :
    Tracks (Twins κ p) (annotate link s facts) (annotate link' s facts') Eq := by
  induction hfacts with
  | nil => exact tracks_pure rfl
  | cons hfact _ ih =>
    rcases hfact with rfl | ⟨id, id', hid, rfl, rfl⟩
    · exact (h.ask_same _ rfl).then fun _ => ih
    · have hask : Tracks (Twins κ p)
          (link.ask (.annotateSpan s "update.attempt_id" (.text id)))
          (link'.ask (.annotateSpan s "update.attempt_id" (.text id'))) Eq :=
        (h.ask (.annotateId s hid) rfl).mono fun _ _ => eq_of_heq
      exact hask.then fun _ => ih

/-- A span around both sides; they may end in another relation than they begin in. -/
theorem withSpan_pairs {R : World σ → World τ → Prop} {V : α → β → Prop}
    (hR : ∀ w v, Twins κ p w v → R w v)
    (hclose : ∀ s, Tracks R (link.ask (.closeSpan s)) (link'.ask (.closeSpan s)) Eq)
    (tracing : Bool) (name : String) {facts facts' : List (String × Data)}
    (hfacts : List.Forall₂ (FactsAlike κ.loose) facts facts')
    {body : Option Span → Act σ α} {body' : Option Span → Act τ β}
    (hbody : ∀ s, Pairs (Twins κ p) (body s) (body' s) V R) :
    Pairs (Twins κ p) (withSpan link tracing name facts body)
      (withSpan link' tracing name facts' body') V R := by
  cases tracing with
  | false => exact hbody none
  | true =>
    refine Pairs.bind (h.ask_same (.openSpan name) rfl).pairs hR fun s _ hs => hs ▸ ?_
    exact Pairs.ensuring (Pairs.bind (annotate_tracks h s hfacts).pairs hR fun _ _ _ =>
      hbody (some s)) (hclose s)

theorem recordFault_tracks (span : Option Span) (fault : Fault) :
    Tracks (Twins κ p) (recordFault link span fault) (recordFault link' span fault) Eq := by
  cases span with
  | none => exact tracks_pure rfl
  | some s => exact h.ask_same (.recordFault s fault) rfl

end Tracing
end

/-! ### Phases -/

namespace Attempt

variable {a a' : Attempt} (h : link.Accords κ plan keeps link') (ha : a.Like κ.loose a')

section

include h

/-- The observers are told the same; what comes of it is only logged. -/
theorem publish_tracks {e e' : Event} (he : e.Like κ.loose e') :
    Tracks (Twins κ p) (publish link e) (publish link' e') Eq := by
  refine h.publish_bind he fun answer answer' => ?_
  rcases answer, answer' with ⟨fault | _, fault' | _⟩
  · exact say_tracks
  · exact say_pure_tracks
  · exact pure_say_tracks
  · exact tracks_pure rfl

theorem start_tracks (raw : Bytes) :
    Tracks (Twins κ p) (start link raw) (start link' raw) (Attempt.Like κ.loose) :=
  h.newId_tracks.bind fun _ _ hid => h.time_tracks.bind fun _ _ htime =>
    tracks_pure ⟨hid, rfl, rfl, htime⟩

include ha

theorem finish_tracks (o : Outcome) (drained : Option DrainReport) :
    Tracks (Twins κ p) (a.finish link plan o drained)
      (a'.finish link' (plan.keeping keeps) o drained) (UpdateReport.Like κ.loose) := by
  refine h.time_tracks.bind fun t t' ht => ?_
  have hreport := ha.report o drained ht
  have hkeep : Tracks (Twins κ p) (keep link plan (a.report o drained t))
      (keep link' (plan.keeping keeps) (a'.report o drained t')) Eq := h.keep hreport
  have htell := (publish_tracks (p := p) h (.updateCompleted ha.id o.state
    (a.report o drained t).succeeded (ht.map₂ (· - ·) ha.startedAt) o.failureKind)).then fun _ =>
      hkeep.then fun _ => tracks_pure hreport
  have hsaid : ∀ r r' : Record, Tracks (Twins κ p)
      (do
        record r
        publish link (.updateCompleted a.id o.state (a.report o drained t).succeeded
          (t - a.startedAt) o.failureKind)
        keep link plan (a.report o drained t)
        return a.report o drained t)
      (do
        record r'
        publish link' (.updateCompleted a'.id o.state (a'.report o drained t').succeeded
          (t' - a'.startedAt) o.failureKind)
        keep link' (plan.keeping keeps) (a'.report o drained t')
        return a'.report o drained t') (UpdateReport.Like κ.loose) :=
    fun _ _ => (record_tracks _ _).then fun _ => htell
  have hsucceeded : (a'.report o drained t').succeeded = (a.report o drained t).succeeded := rfl
  dsimp only
  rw [hsucceeded]
  split
  · exact hsaid _ _
  · exact hsaid _ _

theorem failPhase_tracks (phase : Phase) (kind : FailureKind) (span : Option Span)
    (fault : Fault) :
    Tracks (Twins κ p) (a.failPhase link phase kind span fault)
      (a'.failPhase link' phase kind span fault) Eq :=
  (Tracing.recordFault_tracks h span fault).then fun _ => (record_tracks _ _).then fun _ =>
    publish_tracks h (.phaseFailed ha.id phase kind fault.describe)

theorem runAction_tracks (phase : Phase) (kind : FailureKind) {action : Act σ (Option α)}
    {action' : Act τ (Option α)} (haction : Tracks (Twins κ p) action action' Eq)
    (span : Option Span) :
    Tracks (Twins κ p) (a.runAction link phase kind action span)
      (a'.runAction link' phase kind action' span) Eq := by
  refine haction.caught fun answer => ?_
  cases answer with
  | ok value => exact tracks_pure rfl
  | error fault =>
    exact (failPhase_tracks h ha phase kind span fault).then fun _ => tracks_pure rfl

/-- A phase which both worlds enter together: its action begins in twins, and so does
what follows the phase. -/
theorem runPhase_pairs {p p' : Phase} (hp : p.isWayBack = true → p'.isWayBack = true)
    (kind : FailureKind) {action : Act σ (Option α)} {action' : Act τ (Option α)}
    (haction : Tracks (Twins κ p') action action' Eq) :
    Pairs (Twins κ p) (a.runPhase link plan p' kind action)
      (a'.runPhase link' (plan.keeping keeps) p' kind action') Eq (Twins κ p') := by
  have henter : Pairs (Twins κ p) (changeDesk fun d => { d with phase := p' } : Act σ Unit)
      (changeDesk fun d => { d with phase := p' } : Act τ Unit) Eq (Twins κ p') :=
    pairs_change fun _ _ hwv => hwv.withPhase hp
  refine Pairs.track henter fun _ _ _ => ?_
  refine (publish_tracks h (.phaseStarted ha.id p')).then fun _ => ?_
  have hspan : Tracks (Twins κ p')
      (Tracing.withPhaseSpan link plan.tracing p' (a.runAction link p' kind action))
      (Tracing.withPhaseSpan link' plan.tracing p' (a'.runAction link' p' kind action')) Eq :=
    Tracing.withSpan_pairs h (fun _ _ h => h) (fun _ => h.ask_same _ rfl) _ _
      (.cons (.inl rfl) .nil) fun span => runAction_tracks h ha p' kind haction span
  refine hspan.then fun result => ?_
  dsimp only
  split
  · exact (record_tracks _ _).then fun _ =>
      (publish_tracks h (.phaseCompleted ha.id p')).then fun _ => tracks_pure rfl
  · exact tracks_pure rfl

theorem runStep_pairs {p p' : Phase} (hp : p.isWayBack = true → p'.isWayBack = true)
    (kind : FailureKind) {action : Act σ Unit} {action' : Act τ Unit}
    (haction : Tracks (Twins κ p') action action' Eq) :
    Pairs (Twins κ p) (a.runStep link plan p' kind action)
      (a'.runStep link' (plan.keeping keeps) p' kind action') Eq (Twins κ p') :=
  runPhase_pairs h ha hp kind (haction.then fun _ => tracks_pure rfl)

end

/-! ### The way forward and the way back -/

/-- Twins in some phase. -/
def TwinsSomewhere (κ : Comparison σ τ) (w : World σ) (v : World τ) : Prop := ∃ p, Twins κ p w v

/-- Twins on the way forward. -/
def TwinsForward (κ : Comparison σ τ) (w : World σ) (v : World τ) : Prop :=
  ∃ p, p.isWayBack = false ∧ Twins κ p w v

theorem TwinsForward.somewhere {w : World σ} {v : World τ} (h : TwinsForward κ w v) :
    TwinsSomewhere κ w v :=
  let ⟨p, _, hwv⟩ := h
  ⟨p, hwv⟩

/-- What goes alike in every phase goes alike in some phase. -/
theorem tracks_somewhere {b : Act σ α} {b' : Act τ β} {V : α → β → Prop}
    (hb : ∀ p, Tracks (Twins κ p) b b' V) : Tracks (TwinsSomewhere κ) b b' V :=
  fun _ _ ⟨p, hwv⟩ => ⟨(hb p hwv).1, p, (hb p hwv).2⟩

theorem desk_somewhere {p : Phase} {b : Act σ α} {b' : Act τ β} {V : α → β → Prop}
    (hb : Pairs (Twins κ p) b b' V (Twins κ p)) : Pairs (Twins κ p) b b' V (TwinsSomewhere κ) :=
  hb.mono (fun _ _ h => h) (fun _ _ h => h) fun _ _ hwv => ⟨p, hwv⟩

include h

theorem enrich_tracks (raw : Bytes) :
    Tracks (Twins κ p) (enrich link plan raw) (enrich link' (plan.keeping keeps) raw) Eq := by
  rw [enrich, enrich, show (plan.keeping keeps).enriches = plan.enriches from rfl]
  split
  · refine (h.ask_same (.enrich raw) rfl).caught fun answer => ?_
    rcases answer with fault | content | typeName
    · exact tracks_raise _
    · exact tracks_pure rfl
    · exact tracks_raise _
  · exact tracks_pure rfl

theorem revertFiles_tracks (files : FilePaths) :
    Tracks (Twins κ p) (revertFiles link files) (revertFiles link' files) Eq := by
  refine (FileSet.revert_tracks h files).then fun reverted => ?_
  cases reverted with
  | true => exact tracks_pure rfl
  | false => exact tracks_raise _

theorem reloadReverted_tracks (validation : Budget) :
    Tracks (Twins κ p) (reloadReverted link validation) (reloadReverted link' validation) Eq := by
  refine (reloadFlow_tracks h validation (by simp)).caught fun answer => ?_
  cases answer with
  | ok _ => exact tracks_pure rfl
  | error fault =>
    dsimp only
    split
    · exact tracks_raise _
    · exact tracks_raise _

include ha

theorem drainPhase_pairs {p : Phase} (hp : p.isWayBack = false) :
    Pairs (Twins κ p) (a.drainPhase link plan) (a'.drainPhase link' (plan.keeping keeps)) Eq
      (Twins κ .draining) := by
  refine Pairs.track (runPhase_pairs h ha (by simp [hp]) .drainFailure
    ((drain_tracks h plan.drain fun _ => rfl).then fun _ => tracks_pure rfl)) fun r _ hr => hr ▸ ?_
  dsimp only
  split
  · have hnote : Tracks (Twins κ .draining)
        (changeDesk fun d => { d with drained := r.value } : Act σ Unit)
        (changeDesk fun d => { d with drained := r.value } : Act τ Unit) Eq :=
      pairs_change fun _ _ hwv => hwv.withDrained _
    exact hnote.then fun _ => tracks_pure rfl
  · exact tracks_pure rfl

omit h ha in
/-- Two lists of phases that go forward in step. -/
theorem firstFailure_pairs {acts : List (Act σ (PhaseResult Unit))}
    {acts' : List (Act τ (PhaseResult Unit))}
    (hacts : List.Forall₂ (fun act act' => Tracks (TwinsForward κ) act act' Eq) acts acts') :
    Tracks (TwinsForward κ) (firstFailure acts) (firstFailure acts') Eq := by
  induction hacts with
  | nil => exact tracks_pure rfl
  | cons hact _ ih =>
    refine hact.then fun r => ?_
    cases r.failed? with
    | some failed => exact tracks_pure rfl
    | none => exact ih

theorem forward_pairs (raw rendered : Bytes) :
    List.Forall₂ (fun act act' => Tracks (TwinsForward κ) act act' Eq)
      (a.forward link plan raw rendered) (a'.forward link' (plan.keeping keeps) raw rendered) := by
  have hstep : ∀ {p' : Phase} {kind : FailureKind} {action : Act σ Unit} {action' : Act τ Unit},
      p'.isWayBack = false → Tracks (Twins κ p') action action' Eq →
      Tracks (TwinsForward κ) (a.runStep link plan p' kind action)
        (a'.runStep link' (plan.keeping keeps) p' kind action') Eq := by
    rintro p' kind action action' hp' haction w v ⟨p, hp, hwv⟩
    obtain ⟨hends, hwv'⟩ := runStep_pairs h ha (by simp [hp]) kind haction hwv
    exact ⟨hends, p', hp', hwv'⟩
  refine .cons (hstep rfl (FileSet.backup_tracks h _)) (.cons (hstep rfl
    (FileSet.persist_tracks h _ _ _)) (.cons ?_ (.cons (hstep rfl (loadFlow_tracks h)) (.cons
    (hstep rfl (validateAndStart_tracks h _ fun _ => rfl)) .nil))))
  rintro w v ⟨p, hp, hwv⟩
  have hdrain : Pairs (Twins κ p) (a.drainPhase link plan)
      (a'.drainPhase link' (plan.keeping keeps)) Eq (Twins κ .draining) :=
    drainPhase_pairs h ha hp
  obtain ⟨hends, hwv'⟩ := hdrain hwv
  exact ⟨hends, .draining, rfl, hwv'⟩

theorem rollBack_pairs (failed : PhaseFailure) :
    Pairs (TwinsSomewhere κ) (a.rollBack link plan failed)
      (a'.rollBack link' (plan.keeping keeps) failed) Eq (TwinsSomewhere κ) := by
  rintro w v ⟨p, hwv⟩
  revert w v
  show Pairs (Twins κ p) _ _ _ _
  refine Pairs.bind (record_tracks _ _).pairs (fun _ _ h => ⟨p, h⟩) fun _ _ _ => ?_
  refine Pairs.bind (runStep_pairs h ha (fun _ => rfl) .fileOperation
    (revertFiles_tracks h plan.files)) (fun _ _ h => ⟨_, h⟩) fun reverted _ hr => hr ▸ ?_
  have hend : ∀ {p' : Phase} {r r' : Record} (o : Outcome), Pairs (Twins κ p')
      (do record r; return o) (do record r'; return o) Eq (TwinsSomewhere κ) := fun o =>
    desk_somewhere ((record_tracks _ _).then fun _ => tracks_pure rfl)
  cases reverted.failed? with
  | some rollbackFailed => exact hend _
  | none =>
    dsimp only
    split
    · exact hend _
    · refine Pairs.bind (runStep_pairs h ha (fun _ => rfl) .revertReloadFailure
        (reloadReverted_tracks h plan.validation)) (fun _ _ h => ⟨_, h⟩) fun reloaded _ hr =>
          hr ▸ ?_
      cases reloaded.failed? with
      | some rollbackFailed => exact hend _
      | none => exact hend _

theorem commit_pairs (raw rendered : Bytes) :
    Pairs (TwinsForward κ) (a.commit link plan raw rendered)
      (a'.commit link' (plan.keeping keeps) raw rendered) Eq (TwinsSomewhere κ) := by
  refine Pairs.bind (firstFailure_pairs (forward_pairs h ha raw rendered)).pairs
    (fun _ _ => TwinsForward.somewhere) fun failed _ hfailed => hfailed ▸ ?_
  cases failed with
  | none => exact pairs_pure rfl fun _ _ => TwinsForward.somewhere
  | some failed =>
    exact (rollBack_pairs h ha failed).mono (fun _ _ => TwinsForward.somewhere) (fun _ _ h => h)
      fun _ _ h => h

/-- The end of an attempt, with what the drain has noted. -/
theorem finishHere_tracks (o : Outcome) :
    Tracks (TwinsSomewhere κ) (do a.finish link plan o (← Act.desk).drained)
      (do a'.finish link' (plan.keeping keeps) o (← Act.desk).drained)
      (UpdateReport.Like κ.loose) := by
  refine tracks_somewhere fun p => tracks_look_bind fun w v hwv => ?_
  rw [hwv.drained]
  exact finish_tracks h ha o v.desk.drained

theorem runPhases_pairs {p : Phase} (hp : p.isWayBack = false) (raw : Bytes) :
    Pairs (Twins κ p) (a.runPhases link plan raw) (a'.runPhases link' (plan.keeping keeps) raw)
      (UpdateReport.Like κ.loose) (TwinsSomewhere κ) := by
  refine Pairs.bind (runPhase_pairs h ha (by simp [hp]) .rejectedCandidate
    (enrich_tracks h raw)) (fun _ _ h => ⟨_, h⟩) fun enriched _ he => he ▸ ?_
  cases enriched.failed? with
  | some failed =>
    refine Pairs.bind (record_tracks _ _).pairs (fun _ _ h => ⟨_, h⟩) fun _ _ _ => ?_
    exact (finishHere_tracks h ha _).pairs.mono (fun _ _ h => ⟨_, h⟩) (fun _ _ h => h)
      fun _ _ h => h
  | none =>
    dsimp only
    cases enriched.value with
    | none => exact pairs_raise _ fun _ _ h => ⟨_, h⟩
    | some rendered =>
      refine Pairs.bind (Pairs.ensuring ((commit_pairs h ha raw rendered).mono
        (fun _ _ h => ⟨_, rfl, h⟩) (fun _ _ h => h) fun _ _ h => h) (tracks_somewhere fun p =>
          FileSet.cleanup_tracks h plan.files).pairs) (fun _ _ h => h) fun outcome _ ho => ho ▸ ?_
      exact (finishHere_tracks h ha outcome).pairs

theorem perform_pairs {p : Phase} (hp : p.isWayBack = false) (raw : Bytes) :
    Pairs (Twins κ p) (a.perform link plan raw) (a'.perform link' (plan.keeping keeps) raw)
      (UpdateReport.Like κ.loose) (TwinsSomewhere κ) := by
  have hsome : ∀ w v, Twins κ p w v → TwinsSomewhere κ w v := fun _ _ h => ⟨p, h⟩
  refine Pairs.bind (record_tracks _ _).pairs hsome fun _ _ _ => ?_
  refine Pairs.bind (record_tracks _ _).pairs hsome fun _ _ _ => ?_
  have hstarted : Event.Like κ.loose (.updateStarted a.id a.digest a.size)
      (.updateStarted a'.id a'.digest a'.size) := by
    rw [ha.digest, ha.size]
    exact .updateStarted ha.id _ _
  refine Pairs.bind (publish_tracks h hstarted).pairs hsome fun _ _ _ => ?_
  rw [← ha.digest]
  exact Tracing.withSpan_pairs h hsome
    (fun _ => tracks_somewhere fun p => h.ask_same _ rfl) plan.tracing _
    (.cons (.inr ⟨_, _, ha.id, rfl, rfl⟩) (.cons (.inl rfl) .nil)) fun _ =>
      runPhases_pairs h ha hp raw

end Attempt

namespace Updater

variable {a a' : Attempt} (h : link.Accords κ plan keeps link') (ha : a.Like κ.loose a')

include h ha

/-- An attempt in two worlds at once. -/
theorem attempt_pairs (hp : p.isWayBack = false) (raw : Bytes) :
    Pairs (Twins κ p) (attempt link plan a raw) (attempt link' (plan.keeping keeps) a' raw)
      (UpdateReport.Like κ.loose) (Attempt.TwinsSomewhere κ) := by
  refine Pairs.track (Attempt.perform_pairs h ha hp raw).guarded fun r r' hr => ?_
  cases hr with
  | ok hreport => exact tracks_pure hreport
  | error fault =>
    -- the unexpected end names the phase and the drain that are on the desk
    refine Attempt.tracks_somewhere fun p => tracks_look_bind fun w v hwv => ?_
    rw [hwv.phase, hwv.phase', hwv.drained]
    exact (record_tracks _ _).then fun _ => Attempt.finish_tracks h ha _ _

end Updater
end HotSwap
