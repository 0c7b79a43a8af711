/-
The passage of an attempt through its phases.

An attempt goes forward from phase to phase until one fails, and then back.  The
journal shows each phase as the event with which it starts, the entries of interest
that its action leaves, and the event with which it ends.

* `Passage`, `Leg` — how an attempt has passed a phase, and what the journal shows of it;
* `Passes` — phases one after the other, up to the first that fails;
* `Journey` — the way forward and the way back, with the outcome that they lead to;
* `Watches` — entries of interest among which phases can be told apart;
* `runPhase_yields` — a phase is read as its leg;
* `Act.Walks` — an act that passes through phases, with what is known of their legs.

Design notes: faults that escape from a phase are left out here: nobody interrupts, and
spans do not fail.
-/
import HotSwap.Proofs.Junctures
import HotSwap.Proofs.Tellings

namespace HotSwap

open Act

/-! ### Phases that have been passed -/

/-- How an attempt has passed a phase. -/
structure Passage where
  phase : Phase
  failure : Option Failure := none
  deriving DecidableEq, Repr

namespace Passage

variable (id : String) (p : Passage)

/-- The event with which the phase has ended. -/
def ending : Event :=
  match p.failure with
  | none => .phaseCompleted id p.phase
  | some f => .phaseFailed id p.phase f.kind f.fault.describe

/-- The events of the phase. -/
def events : List Event := [.phaseStarted id p.phase, p.ending id]

end Passage

/-- A phase that an attempt has passed, and the entries of interest that its action has
left. -/
structure Leg where
  passage : Passage
  calls : List Entry

/-- What the journal shows of a phase. -/
def Leg.entries (id : String) (s : Leg) : List Entry :=
  .asked (.publish (.phaseStarted id s.passage.phase)) ::
    (s.calls ++ [.asked (.publish (s.passage.ending id))])

/-- Phases one after the other, up to and including the first that fails. -/
inductive Passes : List Phase → List Passage → Option PhaseFailure → Prop
  | nil : Passes [] [] none
  | fails {phase : Phase} (phases : List Phase) {failure : Failure}
      (hkind : phase.failureKind? = some failure.kind) :
      Passes (phase :: phases) [{ phase, failure := some failure }] (some { phase, failure })
  | next {phase : Phase} {phases : List Phase} {passages : List Passage}
      {failed : Option PhaseFailure} (rest : Passes phases passages failed) :
      Passes (phase :: phases) ({ phase } :: passages) failed

/-- The phases of the way forward. -/
def Phase.forward : List Phase :=
  [.enriching, .backingUp, .persisting, .draining, .reloading, .validating]

/-- The phases of the way back after a phase has failed. -/
def Phase.wayBack : Phase → List Phase
  | .enriching => []
  | p => .revertingFiles :: if p.touchesRuntime then [.reloadingReverted] else []

/-- The outcome of an attempt, from the phase that has failed and that of the way back
that has failed. -/
def outcomeOf (failed rollbackFailed : Option PhaseFailure) : Outcome where
  state :=
    match failed, rollbackFailed with
    | none, _ => .running
    | some failed, none => if failed.phase = .enriching then .rejected else .reverted
    | some _, some _ => .degradedNoReload
  failed := failed
  rollbackFailed := rollbackFailed

/-- An attempt on its way: the phases forward, the one that has failed, the phases
back, and the one of those that has failed. -/
structure Journey where
  there : List Passage
  failed : Option PhaseFailure := none
  back : List Passage := []
  rollbackFailed : Option PhaseFailure := none

namespace Journey

variable (j : Journey)

/-- The phases that were passed, in order. -/
def passages : List Passage := j.there ++ j.back

/-- The outcome of the attempt. -/
def outcome : Outcome := outcomeOf j.failed j.rollbackFailed

/-- The phases are passed in order, and the way back is that from the failed phase. -/
structure Sound : Prop where
  there : Passes Phase.forward j.there j.failed
  back : Passes ((j.failed.map (·.phase.wayBack)).getD []) j.back j.rollbackFailed

end Journey

/-- The phase that has failed is one of those that were to be passed. -/
theorem Passes.mem_of_failed {phases : List Phase} {passages : List Passage}
    {failed : Option PhaseFailure} (h : Passes phases passages failed) {f : PhaseFailure}
    (hf : failed = some f) : f.phase ∈ phases := by
  induction h with
  | nil => cases hf
  | fails phases hkind =>
    obtain rfl := Option.some.inj hf
    exact List.mem_cons_self ..
  | next _ ih => exact List.mem_cons_of_mem _ (ih hf)

/-- There is a way back only from a phase behind the enrichment. -/
theorem Journey.Sound.failed_of_rollbackFailed {j : Journey} (hsound : j.Sound) {g : PhaseFailure}
    (hback : j.rollbackFailed = some g) : ∃ f, j.failed = some f ∧ f.phase ≠ .enriching := by
  have hmem := hsound.back.mem_of_failed hback
  cases hfailed : j.failed with
  | none =>
    rw [hfailed] at hmem
    cases hmem
  | some f =>
    refine ⟨f, rfl, fun hphase => ?_⟩
    rw [hfailed, Option.map_some, hphase] at hmem
    cases hmem

/-- Only phases that were to be passed are. -/
theorem Passes.mem_of_mem {phases : List Phase} {passages : List Passage}
    {failed : Option PhaseFailure} (h : Passes phases passages failed) {p : Passage}
    (hp : p ∈ passages) : p.phase ∈ phases := by
  induction h with
  | nil => cases hp
  | fails phases hkind =>
    obtain rfl := List.mem_singleton.mp hp
    exact List.mem_cons_self ..
  | next _ ih =>
    rcases List.mem_cons.mp hp with rfl | hp
    · exact List.mem_cons_self ..
    · exact List.mem_cons_of_mem _ (ih hp)

/-- Where no phase has failed, all have been passed. -/
theorem Passes.eq_of_none {phases : List Phase} {passages : List Passage}
    (h : Passes phases passages none) : passages = phases.map fun phase => { phase } := by
  induction phases generalizing passages with
  | nil =>
    cases h
    rfl
  | cons phase phases ih =>
    cases h with
    | next rest => rw [ih rest, List.map_cons]

/-- A phase of the first ones has failed, or they have been passed and then the others
are. -/
theorem Passes.of_append {phases phases' : List Phase} {passages : List Passage}
    {failed : Option PhaseFailure} (h : Passes (phases ++ phases') passages failed) :
    failed ≠ none ∧ Passes phases passages failed ∨
      ∃ before after, passages = before ++ after ∧ Passes phases before none ∧
        Passes phases' after failed := by
  induction phases generalizing passages with
  | nil => exact .inr ⟨[], passages, rfl, .nil, h⟩
  | cons phase phases ih =>
    cases h with
    | fails _ hkind => exact .inl ⟨by simp, .fails phases hkind⟩
    | next rest =>
      rcases ih rest with ⟨hfailed, h⟩ | ⟨before, after, rfl, h, h'⟩
      · exact .inl ⟨hfailed, .next h⟩
      · exact .inr ⟨_, after, rfl, .next h, h'⟩

/-- The first leg either fails, and is the last one, or is followed by the others. -/
theorem Passes.uncons {phase : Phase} {phases : List Phase} {legs : List Leg}
    {failed : Option PhaseFailure} (h : Passes (phase :: phases) (legs.map (·.passage)) failed) :
    ∃ s rest, legs = s :: rest ∧ s.passage.phase = phase ∧
      ((∃ failure, s.passage.failure = some failure ∧ rest = [] ∧
          failed = some { phase, failure }) ∨
        s.passage.failure = none ∧ Passes phases (rest.map (·.passage)) failed) := by
  generalize hpassages : legs.map (·.passage) = passages at h
  cases h with
  | @fails _ _ failure hkind =>
    obtain ⟨s, rfl, hs⟩ := List.map_eq_singleton_iff.mp hpassages
    exact ⟨s, [], rfl, by rw [hs], .inl ⟨failure, by rw [hs], rfl, rfl⟩⟩
  | next rest =>
    obtain ⟨s, legs, rfl, hs, rfl⟩ := List.map_eq_cons_iff.mp hpassages
    exact ⟨s, legs, rfl, by rw [hs], .inr ⟨by rw [hs], rest⟩⟩

theorem Passes.of_singleton {phase : Phase} {legs : List Leg} {failed : Option PhaseFailure}
    (h : Passes [phase] (legs.map (·.passage)) failed) :
    ∃ s, legs = [s] ∧ s.passage.phase = phase ∧ failed.isNone = s.passage.failure.isNone := by
  obtain ⟨s, rest, rfl, hphase, ⟨failure, hfailure, rfl, rfl⟩ | ⟨hfailure, hnil⟩⟩ := h.uncons
  · exact ⟨s, rfl, hphase, by rw [hfailure]; rfl⟩
  · generalize hpassages : rest.map (·.passage) = passages at hnil
    cases hnil
    obtain rfl := List.map_eq_nil_iff.mp hpassages
    exact ⟨s, rfl, hphase, by rw [hfailure]; rfl⟩

/-! ### Reading a phase -/

variable {σ α β : Type} {w w' w'' : World σ} {q : Bool → σ → Prop} {keep : Entry → Bool}
  {A : String → Prop} {L : (r : Request) → Except Fault r.Answer → Prop} {link : Link σ}
  {plan : UpdatePlan} {id : String}

/-- Whether a request is about a span. -/
def Request.isSpan : Request → Bool
  | .openSpan _ | .annotateSpan .. | .recordFault .. | .closeSpan _ => true
  | _ => false

/-- Of the telling of an attempt, only how far it has come is of interest; so that its
phases can be told apart. -/
structure Watches (keep : Entry → Bool) (id : String) : Prop where
  progress : ∀ e : Event, e.progresses = true → e.attemptId? = some id →
    keep (.asked (.publish e)) = true
  told : ∀ r : Request, r.isTelling = true → ∀ answer, keep (.answered r answer) = false
  span : ∀ r : Request, r.isSpan = true → keep (.asked r) = false
  spanned : ∀ r : Request, r.isSpan = true → ∀ answer, keep (.answered r answer) = false
  files : ∀ e : Entry, e.OfFiles → keep e = false

/-- Something silent that raises nothing comes last. -/
theorem Act.Yields.ensuring {a : Act σ α} {after : Act σ Unit} {P : α → List Entry → Prop}
    {E : Fault → List Entry → Prop} (h : a.Yields q keep P E)
    (hafter : after.Within (World.Silent q keep) fun _ => False) :
    (a.ensuring after).Yields q keep P E := fun w => by
  refine ends_ensuring.mpr ((h w).mono ?_ ?_)
  · rintro x w₁ ⟨l, hl, h₁⟩
    refine (hafter w₁).mono (fun _ w' h' => ⟨l, hl, ?_⟩) fun _ _ he => he.1.elim
    simpa using h₁.trans h'
  · rintro e w₁ ⟨l, hl, h₁⟩
    refine (hafter w₁).mono (fun _ w' h' => ⟨l, hl, ?_⟩) fun _ _ he => he.1.elim
    simpa using h₁.trans h'

/-- The failure that the end of an action amounts to. -/
def failureOf (kind : FailureKind) : Except Fault α → Option Failure
  | .ok _ => none
  | .error fault => some { kind, fault }

/-- The result of a phase whose action has ended in some way. -/
structure PhaseResult.Ended (r : PhaseResult α) (phase : Phase) (kind : FailureKind)
    (result : Except Fault (Option α)) : Prop where
  state : r.state = phase
  failure : r.failure = failureOf kind result
  value : ∀ v, result = .ok v → r.value = v

/-- The leg of a phase whose action has ended in some way, with some calls. -/
def legOf (phase : Phase) (kind : FailureKind) (result : Except Fault α) (calls : List Entry) :
    Leg where
  passage := { phase, failure := failureOf kind result }
  calls := calls

section

variable (hlink : link.Hears q A keep L) {a : Attempt} (hkeep : Watches keep a.id)
  (hordinary : ∀ r e, L r (.error e) → e.interrupts = false)
  (hspan : ∀ r : Request, r.isSpan = true → ∀ e, ¬ L r (.error e))

include hlink hkeep

/-- A request about a span is silent, and does not fail. -/
theorem ask_span_within (hspan : ∀ r : Request, r.isSpan = true → ∀ e, ¬ L r (.error e))
    {r : Request} (hr : r.isSpan = true) {F : Fault → Prop} :
    (link.ask r).Within (World.Silent q keep) F :=
  hlink.ask_within (hkeep.span r hr) (hkeep.spanned r hr) fun e he => absurd he (hspan r hr e)

include hspan in
/-- Inside a span, an act is read as outside. -/
theorem withSpan_yields {P : α → List Entry → Prop} (tracing : Bool) (name : String)
    (facts : List (String × Data)) {body : Option Span → Act σ α}
    (hbody : ∀ span, (body span).Yields q keep P fun _ _ => False) :
    (Tracing.withSpan link tracing name facts body).Yields q keep P fun _ _ => False := by
  rw [Tracing.withSpan]
  split
  · refine (ask_span_within hlink hkeep hspan (r := .openSpan name) rfl).bind_yields
      (F := fun _ => False) (fun _ he => he) fun s => ?_
    refine Yields.ensuring ?_ (ask_span_within hlink hkeep hspan (r := .closeSpan s) rfl)
    have hannotate : (Tracing.annotate link s facts).Within (World.Silent q keep)
        fun _ => False := Tracing.annotate_within s
      (fun key value => ask_span_within hlink hkeep hspan (r := .annotateSpan s key value) rfl) facts
    exact hannotate.bind_yields (fun _ he => he) fun _ => hbody (some s)
  · exact hbody none

include hordinary

/-- Telling how far the attempt has come is read as just that. -/
theorem progress_yields {e : Event} (hprogresses : e.progresses = true)
    (hid : e.attemptId? = some a.id) : (Attempt.publish link e).Yields q keep
      (fun _ l => l = [Entry.asked (.publish e)]) fun _ _ => False := by
  refine (hlink.publish_yields (hordinary _) (hkeep.told _ rfl)).mono ?_ fun _ _ he => he
  rintro - l rfl
  rw [List.filter_cons_of_pos (hkeep.progress e hprogresses hid), List.filter_nil]

include hspan

theorem runAction_yields {phase : Phase} {kind : FailureKind} {action : Act σ (Option α)}
    {P : Except Fault (Option α) → List Entry → Prop}
    (haction : action.guarded.Yields q keep P fun _ _ => False) (span : Option Span) :
    (a.runAction link phase kind action span).Yields q keep
      (fun r l => ∃ result calls, P result calls ∧ r.Ended phase kind result ∧
        l = calls ++ if r.ok then [] else
          [.asked (.publish (Passage.ending a.id { phase, failure := r.failure }))])
      fun _ _ => False := by
  refine haction.bind ?_
  rintro (fault | value) calls hcalls
  · have hrecord : (Tracing.recordFault link span fault).Within (World.Silent q keep)
        fun _ => False := by
      cases span with
      | none => exact within_pure _
      | some s => exact ask_span_within hlink hkeep hspan (r := .recordFault s fault) rfl
    have hfail : (a.failPhase link phase kind span fault).Yields q keep
        (fun _ l => l = [.asked (.publish (.phaseFailed a.id phase kind fault.describe))])
        fun _ _ => False :=
      hrecord.bind_yields (fun _ he => he) fun _ =>
        (within_record (F := fun _ => False)).bind_yields (fun _ he => he) fun _ =>
          progress_yields hlink hkeep hordinary rfl rfl
    refine hfail.bind ?_
    rintro - l rfl
    refine yields_pure ⟨.error fault, calls, hcalls, ⟨rfl, rfl, fun _ hv => by cases hv⟩, ?_⟩
    rw [List.append_nil]
    rfl
  · refine yields_pure ⟨.ok value, calls, hcalls, ⟨rfl, rfl, fun v hv => ?_⟩, rfl⟩
    exact Except.ok.inj hv

/-- A phase is read as the event that it starts, what its action leaves, and the event
that it ends. -/
theorem runPhase_yields {phase : Phase} {kind : FailureKind} {action : Act σ (Option α)}
    {P : Except Fault (Option α) → List Entry → Prop}
    (haction : action.guarded.Yields q keep P fun _ _ => False) :
    (a.runPhase link plan phase kind action).Yields q keep
      (fun r l => ∃ result calls, P result calls ∧ r.Ended phase kind result ∧
        l = (legOf phase kind result calls).entries a.id)
      fun _ _ => False := by
  refine Within.bind_yields (F := fun _ => False)
    (fun w => World.silent_of_journal (fun _ h => h) rfl rfl rfl) (fun _ he => he) fun _ => ?_
  refine (progress_yields hlink hkeep hordinary (e := .phaseStarted a.id phase) rfl rfl).bind ?_
  rintro - l rfl
  refine (withSpan_yields hlink hkeep hspan _ _ _
    (runAction_yields hlink hkeep hordinary hspan haction)).bind ?_
  rintro r l ⟨result, calls, hP, hended, rfl⟩
  have hok : r.ok = (failureOf kind result).isNone := by rw [PhaseResult.ok, hended.failure]
  dsimp only
  cases result with
  | error fault =>
    replace hok : ¬ r.ok = true := by rw [hok]; simp [failureOf]
    rw [if_neg hok, if_neg hok]
    refine yields_pure ⟨.error fault, calls, hP, hended, ?_⟩
    simp [hended.failure, failureOf, legOf, Leg.entries]
  | ok value =>
    replace hok : r.ok = true := by rw [hok]; rfl
    rw [if_pos hok, if_pos hok]
    refine (within_record (F := fun _ => False)).bind_yields (fun _ he => he) fun _ => ?_
    refine (progress_yields hlink hkeep hordinary (e := .phaseCompleted a.id phase) rfl rfl).bind ?_
    rintro - l rfl
    refine yields_pure ⟨.ok value, calls, hP, hended, ?_⟩
    simp [failureOf, legOf, Leg.entries, Passage.ending]

end

/-! ### Walking through phases -/

/-- In between two worlds an attempt passes through legs; the drain is noted if that
phase is among them and has not failed. -/
def World.Walks (q : Bool → σ → Prop) (keep : Entry → Bool) (id : String) (legs : List Leg)
    (w w' : World σ) : Prop :=
  w.Meets q → w'.Meets q ∧ w'.desk.engaged = w.desk.engaged ∧ w.Grown w' ∧
    (w.since w').filter keep = legs.flatMap (Leg.entries id) ∧
    (w'.desk.drained.isSome = true ↔
      w.desk.drained.isSome = true ∨ { phase := .draining } ∈ legs.map (·.passage))

namespace World

/-- A stretch that is read as a leg, of any phase but the drain. -/
theorem Reads.walks {leg : Leg} (h : w.Reads q keep (leg.entries id) w')
    (hphase : leg.passage.phase ≠ .draining) : w.Walks q keep id [leg] w' := fun hmeets => by
  obtain ⟨hmeets', hengaged, hdrained, hgrown, hes⟩ := h hmeets
  refine ⟨hmeets', hengaged, hgrown, by simpa using hes, ?_⟩
  have hother : ({ phase := .draining } : Passage) ∉ [leg].map (·.passage) := fun hmem => by
    have heq : { phase := .draining } = leg.passage := List.mem_singleton.mp hmem
    exact hphase (congrArg Passage.phase heq).symm
  rw [hdrained]
  exact ⟨.inl, fun h => h.resolve_right hother⟩

theorem walks_of_silent (h : w.Silent q keep w') : w.Walks q keep id [] w' := fun hmeets => by
  obtain ⟨hmeets', hengaged, hdrained, hgrown, hes⟩ := h hmeets
  exact ⟨hmeets', hengaged, hgrown, hes, by simp [hdrained]⟩

theorem Walks.trans {legs legs' : List Leg} (h : w.Walks q keep id legs w')
    (h' : w'.Walks q keep id legs' w'') : w.Walks q keep id (legs ++ legs') w'' :=
  fun hmeets => by
    obtain ⟨hmeets', hengaged, hgrown, hes, hdrained⟩ := h hmeets
    obtain ⟨hmeets'', hengaged', hgrown', hes', hdrained'⟩ := h' hmeets'
    refine ⟨hmeets'', hengaged'.trans hengaged, hgrown.trans hgrown', ?_, ?_⟩
    · rw [hgrown.since_trans hgrown', List.filter_append, hes, hes', List.flatMap_append]
    · rw [hdrained', hdrained, List.map_append, List.mem_append, or_assoc]

end World

namespace Act

variable {S : Leg → Prop} {P P' : α → List Passage → Prop} {a : Act σ α}

/-- The act passes through legs of `S`, and ends with a value for which, and for the
phases passed, `P` holds. -/
def Walks (a : Act σ α) (q : Bool → σ → Prop) (keep : Entry → Bool) (id : String)
    (S : Leg → Prop) (P : α → List Passage → Prop) : Prop :=
  ∀ w, a.Ends w (fun x w' => ∃ legs, P x (legs.map (·.passage)) ∧ (∀ s ∈ legs, S s) ∧
    w.Walks q keep id legs w') fun _ _ => False

theorem Walks.mono (h : a.Walks q keep id S P) (hP : ∀ x ps, P x ps → P' x ps) :
    a.Walks q keep id S P' := fun w =>
  (h w).mono (fun x _ ⟨legs, hx, hS, hw⟩ => ⟨legs, hP x _ hx, hS, hw⟩) fun _ _ he => he

theorem Within.walks (h : a.Within (World.Silent q keep) fun _ => False) :
    a.Walks q keep id S fun _ ps => ps = [] := fun w =>
  (h w).mono (fun _ _ hw => ⟨[], rfl, by simp, World.walks_of_silent hw⟩) fun _ _ he => he.1

theorem walks_pure {x : α} (h : P x []) : (pure x : Act σ α).Walks q keep id S P := fun w =>
  ⟨[], h, by simp, World.walks_of_silent (Course.refl w)⟩

theorem Walks.bind {f : α → Act σ β} {Q : β → List Passage → Prop} (h : a.Walks q keep id S P)
    (hf : ∀ x ps, P x ps → (f x).Walks q keep id S fun y ps' => Q y (ps ++ ps')) :
    (a >>= f).Walks q keep id S Q := fun w => by
  refine (h w).bind ?_ fun _ _ he => he
  rintro x w₁ ⟨legs, hx, hS, h₁⟩
  refine (hf x _ hx w₁).mono ?_ fun _ _ he => he
  rintro y w' ⟨legs', hy, hS', h'⟩
  refine ⟨legs ++ legs', ?_, ?_, h₁.trans h'⟩
  · rwa [List.map_append]
  · exact List.forall_mem_append.mpr ⟨hS, hS'⟩

/-- Something silent comes first. -/
theorem Within.bind_walks {f : α → Act σ β} {Q : β → List Passage → Prop}
    (h : a.Within (World.Silent q keep) fun _ => False) (hf : ∀ x, (f x).Walks q keep id S Q) :
    (a >>= f).Walks q keep id S Q :=
  h.walks.bind fun x ps hps => by
    subst hps
    exact hf x

/-- Something silent comes last. -/
theorem Walks.ensuring {after : Act σ Unit} (h : a.Walks q keep id S P)
    (hafter : after.Within (World.Silent q keep) fun _ => False) :
    (a.ensuring after).Walks q keep id S P := fun w => by
  refine ends_ensuring.mpr ((h w).mono ?_ fun _ _ he => he.elim)
  rintro x w₁ ⟨legs, hx, hS, h₁⟩
  refine (hafter w₁).mono (fun _ w' h' => ⟨legs, hx, hS, ?_⟩) fun _ _ he => he.1
  simpa using h₁.trans (World.walks_of_silent h')

end Act

end HotSwap
