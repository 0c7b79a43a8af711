/-
The journeys of attempts.

If it is known which leg each action of an attempt leaves, then the journal of the
whole attempt is known: its announcement, the legs of its journey, and its end.

* `Act.Legs` — the legs that the action of a phase leaves;
* `Attempt.Observed` — an attempt of which each action leaves legs of a kind;
* `Attempt.Observed.firstFailure_walks` — a chain of phases passes them up to the first that
  fails;
* `Attempt.Observed.commit_walks` — the way forward, and the way back;
* `Travelled` — what the journal shows of a whole attempt;
* `Updater.ends_apply_travelled` — an update on a free desk shows just that.
-/
import HotSwap.Proofs.Passages

namespace HotSwap

open Act

variable {σ α : Type} {w w' : World σ} {q : Bool → σ → Prop} {keep : Entry → Bool}
  {A : String → Prop} {L : (r : Request) → Except Fault r.Answer → Prop} {link : Link σ}
  {plan : UpdatePlan} {S : Leg → Prop} {a : Attempt} {phase : Phase} {kind : FailureKind}

/-- An action leaves legs of `S`, as the action of a phase; no fault escapes from it
but those that the phase catches. -/
def Act.Legs (action : Act σ α) (q : Bool → σ → Prop) (keep : Entry → Bool) (S : Leg → Prop)
    (phase : Phase) (kind : FailureKind) : Prop :=
  action.guarded.Yields q keep (fun r l => S (legOf phase kind r l)) fun _ _ => False

/-- An attempt of which the actions leave legs of `S`.  A candidate that has been
enriched is there; nobody interrupts, and spans do not fail. -/
structure Attempt.Observed (a : Attempt) (link : Link σ) (plan : UpdatePlan)
    (q : Bool → σ → Prop) (A : String → Prop) (keep : Entry → Bool)
    (L : (r : Request) → Except Fault r.Answer → Prop) (S : Leg → Prop) : Prop where
  hears : link.Hears q A keep L
  watches : Watches keep a.id
  ordinary : ∀ r e, L r (.error e) → e.interrupts = false
  spans : ∀ r : Request, r.isSpan = true → ∀ e, ¬ L r (.error e)
  enrich : ∀ raw, (Attempt.enrich link plan raw).guarded.Yields q keep
    (fun r l => S (legOf .enriching .rejectedCandidate r l) ∧ r ≠ .ok none) fun _ _ => False
  backup : (FileSet.backup link plan.files).Legs q keep S .backingUp .fileOperation
  persist : ∀ rendered raw,
    (FileSet.persist link plan.files rendered raw).Legs q keep S .persisting .fileOperation
  drain : (drain link plan.drain true).Legs q keep S .draining .drainFailure
  load : (loadFlow link).Legs q keep S .reloading .reloadFailure
  start : (validateAndStart link plan.validation true).Legs q keep S .validating .reloadFailure
  revert : (Attempt.revertFiles link plan.files).Legs q keep S .revertingFiles .fileOperation
  reload : (Attempt.reloadReverted link plan.validation).Legs q keep S .reloadingReverted
    .revertReloadFailure

/-- What is silent leaves no calls. -/
theorem Act.Within.legs {action : Act σ α}
    (h : action.Within (World.Silent q keep) fun e => e.interrupts = false)
    (hS : ∀ r : Except Fault α, S (legOf phase kind r [])) :
    action.Legs q keep S phase kind := by
  refine Yields.guarded (h.yields.mono ?_ ?_)
  · rintro x l rfl
    exact hS _
  · rintro e l ⟨he, rfl⟩
    rw [if_neg (by simp [he])]
    exact hS _

/-- An enrichment that is of no interest, with nothing but a candidate in the end. -/
theorem Attempt.enrich_yields (henriches : plan.enriches = true) {raw : Bytes}
    (henrich : (link.ask (.enrich raw)).Within (World.Silent q keep)
      fun e => e.interrupts = false) :
    (Attempt.enrich link plan raw).guarded.Yields q keep (fun r l => l = [] ∧ r ≠ .ok none)
      fun _ _ => False := by
  have hbody : (Attempt.enrich link plan raw).Yields q keep (fun r l => l = [] ∧ r ≠ none)
      fun e l => l = [] ∧ e.interrupts = false := by
    rw [Attempt.enrich, if_pos henriches]
    refine henrich.guarded.bind_yields (fun e he => Fault.ordinary he.1 he.2) ?_
    rintro (fault | content | typeName)
    · exact yields_raise ⟨rfl, rfl⟩
    · exact yields_pure ⟨rfl, by simp⟩
    · exact yields_raise ⟨rfl, rfl⟩
  refine Yields.guarded (hbody.mono ?_ ?_)
  · rintro r l ⟨rfl, hr⟩
    exact ⟨rfl, fun h => hr (Except.ok.inj h)⟩
  · rintro e l ⟨rfl, he⟩
    rw [if_neg (by simp [he])]
    exact ⟨rfl, by simp⟩

/-- Whether a phase leaves the flow alone: it is about the candidate, or about the files. -/
def Phase.isApart : Phase → Bool
  | .enriching | .backingUp | .persisting | .revertingFiles => true
  | _ => false

/-- Only what is asked of the flow has to be looked at, if the enrichment is of no
interest. -/
theorem Attempt.observed_of_apart (hlink : link.Hears q A keep L) (hwatches : Watches keep a.id)
    (hordinary : ∀ r e, L r (.error e) → e.interrupts = false)
    (hspans : ∀ r : Request, r.isSpan = true → ∀ e, ¬ L r (.error e))
    (henriches : plan.enriches = true)
    (henrich : ∀ raw, (link.ask (.enrich raw)).Within (World.Silent q keep)
      fun e => e.interrupts = false)
    (hS : ∀ s : Leg, s.passage.phase.isApart = true → s.calls = [] → S s)
    (hdrain : (HotSwap.drain link plan.drain true).Legs q keep S .draining .drainFailure)
    (hload : (loadFlow link).Legs q keep S .reloading .reloadFailure)
    (hstart : (validateAndStart link plan.validation true).Legs q keep S .validating
      .reloadFailure)
    (hreload : (Attempt.reloadReverted link plan.validation).Legs q keep S .reloadingReverted
      .revertReloadFailure) : a.Observed link plan q A keep L S where
  hears := hlink
  watches := hwatches
  ordinary := hordinary
  spans := hspans
  enrich raw := (Attempt.enrich_yields henriches (henrich raw)).mono
    (fun _ _ h => ⟨hS _ rfl h.1, h.2⟩) fun _ _ he => he
  backup := (FileSet.backup_within (hlink.handles hwatches.files) _ trivial).legs
    fun _ => hS _ rfl rfl
  persist _ _ := (FileSet.persist_within (hlink.handles hwatches.files) _ _ _ trivial).legs
    fun _ => hS _ rfl rfl
  drain := hdrain
  load := hload
  start := hstart
  revert := (Attempt.revertFiles_within (hlink.handles hwatches.files) _ trivial).legs
    fun _ => hS _ rfl rfl
  reload := hreload

/-- What an act ends with, made into something else. -/
theorem Act.Yields.guarded_map {β : Type} {action : Act σ α} {f : α → β}
    {P : Except Fault α → List Entry → Prop}
    (h : action.guarded.Yields q keep P fun _ _ => False) :
    (do let x ← action; return f x : Act σ β).guarded.Yields q keep
      (fun r l => ∃ r', P r' l ∧ r = r'.map f) fun _ _ => False := fun w => by
  refine ends_guarded.mpr ((ends_bind _).mpr ((ends_guarded.mp (h w)).mono ?_ ?_))
  · rintro x w' ⟨l, hl, hw⟩
    exact ⟨l, ⟨.ok x, hl, rfl⟩, hw⟩
  · intro e w' he
    split at he
    · obtain ⟨l, hnot, -⟩ := he
      exact hnot.elim
    · next hi =>
      rw [if_neg hi]
      obtain ⟨l, hl, hw⟩ := he
      exact ⟨l, ⟨.error e, hl, rfl⟩, hw⟩

theorem failureOf_map {β : Type} (kind : FailureKind) (r : Except Fault α) (f : α → β) :
    failureOf kind (r.map f) = failureOf kind r := by
  cases r <;> rfl

/-- The result of a phase, and the phase as it was passed. -/
structure Ran (phase : Phase) (r : PhaseResult α) (ps : List Passage) : Prop where
  state : r.state = phase
  passages : ps = [{ phase, failure := r.failure }]
  kind : ∀ f, r.failure = some f → phase.failureKind? = some f.kind

theorem PhaseResult.Ended.ran {r : PhaseResult α} {result : Except Fault (Option α)}
    (h : r.Ended phase kind result) (hkind : phase.failureKind? = some kind) :
    Ran phase r [(legOf phase kind result []).passage] where
  state := h.state
  passages := by rw [h.failure]; rfl
  kind f hf := by
    rw [h.failure] at hf
    cases result with
    | ok _ => cases hf
    | error fault =>
      obtain rfl := Option.some.inj hf
      exact hkind

namespace Attempt.Observed

variable (hobserved : a.Observed link plan q A keep L S)

include hobserved

theorem runPhase_walks (hphase : phase ≠ .draining) (hkind : phase.failureKind? = some kind)
    {action : Act σ (Option α)} {V : Except Fault (Option α) → Prop}
    (haction : action.guarded.Yields q keep (fun r l => S (legOf phase kind r l) ∧ V r)
      fun _ _ => False) :
    (a.runPhase link plan phase kind action).Walks q keep a.id S fun r ps =>
      Ran phase r ps ∧ ∃ result, r.Ended phase kind result ∧ V result := fun w => by
  refine ((runPhase_yields hobserved.hears hobserved.watches hobserved.ordinary hobserved.spans
    haction).ends w).mono ?_ fun _ _ he => he
  rintro r w' ⟨l, ⟨result, calls, ⟨hS, hV⟩, hended, rfl⟩, hw⟩
  exact ⟨[legOf phase kind result calls], ⟨hended.ran hkind, result, hended, hV⟩, by simpa using hS,
    hw.walks hphase⟩

theorem runStep_walks (hphase : phase ≠ .draining) (hkind : phase.failureKind? = some kind)
    {action : Act σ Unit} (haction : action.Legs q keep S phase kind) :
    (a.runStep link plan phase kind action).Walks q keep a.id S (Ran phase) := by
  refine (hobserved.runPhase_walks hphase hkind (V := fun _ => True)
    ((Yields.guarded_map haction).mono ?_ fun _ _ he => he)).mono fun r ps h => h.1
  rintro r l ⟨r', hS, rfl⟩
  rw [legOf, failureOf_map]
  exact ⟨hS, trivial⟩

theorem drainPhase_walks :
    (a.drainPhase link plan).Walks q keep a.id S (Ran .draining) := fun w => by
  have haction : (do return some (← HotSwap.drain link plan.drain true) :
      Act σ (Option DrainReport)).guarded.Yields q keep
      (fun r l => S (legOf .draining .drainFailure r l) ∧ r ≠ .ok none) fun _ _ => False := by
    refine (Yields.guarded_map hobserved.drain).mono ?_ fun _ _ he => he
    rintro r l ⟨r', hS, rfl⟩
    rw [legOf, failureOf_map]
    refine ⟨hS, ?_⟩
    cases r' <;> simp [Except.map]
  rw [drainPhase]
  refine ((runPhase_yields hobserved.hears hobserved.watches hobserved.ordinary hobserved.spans
    haction).ends w).bind ?_ fun _ _ he => he
  rintro r w₁ ⟨l, ⟨result, calls, ⟨hS, hsome⟩, hended, rfl⟩, h₁⟩
  have hran : Ran .draining ({ state := r.state, failure := r.failure } : PhaseResult Unit)
      [(legOf .draining .drainFailure result []).passage] :=
    ⟨hended.state, (hended.ran rfl).passages, (hended.ran rfl).kind⟩
  -- the drain is noted exactly if it has not failed
  have hwalks : ∀ w₂ : World σ, w₂.host = w₁.host → w₂.journal = w₁.journal →
      w₂.desk.engaged = w₁.desk.engaged →
      (w₂.desk.drained.isSome = true ↔ w₁.desk.drained.isSome = true ∨ r.failure = none) →
      ∃ legs : List Leg, Ran .draining ({ state := r.state, failure := r.failure } :
          PhaseResult Unit) (legs.map (·.passage)) ∧ (∀ s ∈ legs, S s) ∧
        w.Walks q keep a.id legs w₂ := by
    intro w₂ hhost hjournal hengaged hdrained
    refine ⟨[legOf .draining .drainFailure result calls], hran, by simpa using hS, fun hmeets => ?_⟩
    obtain ⟨hmeets₁, hengaged₁, hdrained₁, hgrown₁, hes₁⟩ := h₁ hmeets
    refine ⟨?_, hengaged.trans hengaged₁, ?_, ?_, ?_⟩
    · rw [World.Meets, hengaged, hhost]
      exact hmeets₁
    · rw [World.Grown, hjournal]
      exact hgrown₁
    · rw [World.since, hjournal, List.flatMap_singleton]
      exact hes₁
    · rw [hdrained, hdrained₁, hended.failure, List.map_singleton, List.mem_singleton, legOf,
        Passage.mk.injEq]
      exact or_congr_right ⟨fun h => ⟨rfl, h.symm⟩, fun h => h.2.symm⟩
  dsimp only
  split
  · next hok =>
    have hnone : r.failure = none := by simpa [PhaseResult.ok] using hok
    refine hwalks _ rfl rfl rfl ?_
    cases result with
    | error fault =>
      rw [hended.failure] at hnone
      cases hnone
    | ok v =>
      rw [show r.value = v from hended.value v rfl]
      cases v with
      | none => exact absurd rfl hsome
      | some report => simp [hnone]
  · next hok =>
    refine hwalks w₁ rfl rfl rfl ?_
    have hnone : r.failure ≠ none := by simpa [PhaseResult.ok] using hok
    simp [hnone]

omit hobserved in
/-- Phases one after the other, as far as the first that fails. -/
theorem firstFailure_walks {phases : List Phase} {acts : List (Act σ (PhaseResult Unit))}
    (hacts : List.Forall₂ (fun phase act => act.Walks q keep a.id S (Ran phase)) phases acts) :
    (firstFailure acts).Walks q keep a.id S fun failed ps => Passes phases ps failed := by
  induction hacts with
  | nil => exact walks_pure .nil
  | @cons phase act phases acts hact _ ih =>
    rw [firstFailure]
    refine hact.bind fun r ps hran => ?_
    obtain ⟨hstate, rfl, hkind⟩ := hran
    cases hfailure : r.failure with
    | none =>
      rw [PhaseResult.failed?, hfailure]
      exact ih.mono fun failed ps hrest => .next hrest
    | some f =>
      rw [PhaseResult.failed?, hfailure, hstate]
      exact walks_pure (.fails phases (hkind f hfailure))

theorem forward_walks (raw rendered : Bytes) :
    List.Forall₂ (fun phase act => act.Walks q keep a.id S (Ran phase))
      [.backingUp, .persisting, .draining, .reloading, .validating]
      (a.forward link plan raw rendered) :=
  .cons (hobserved.runStep_walks (by decide) rfl hobserved.backup) <|
  .cons (hobserved.runStep_walks (by decide) rfl (hobserved.persist rendered raw)) <|
  .cons hobserved.drainPhase_walks <|
  .cons (hobserved.runStep_walks (by decide) rfl hobserved.load) <|
  .cons (hobserved.runStep_walks (by decide) rfl hobserved.start) .nil

/-- The way back from a failed phase. -/
theorem rollBack_walks {failed : PhaseFailure} (hfailed : failed.phase ≠ .enriching) :
    (a.rollBack link plan failed).Walks q keep a.id S fun o ps => ∃ rollbackFailed,
      Passes failed.phase.wayBack ps rollbackFailed ∧
        o = outcomeOf (some failed) rollbackFailed := by
  have hway : failed.phase.wayBack =
      .revertingFiles :: if failed.phase.touchesRuntime then [.reloadingReverted] else [] := by
    cases hphase : failed.phase <;> first | rfl | exact absurd hphase hfailed
  have hlog : ∀ {r : Record}, (Act.record r : Act σ Unit).Within (World.Silent q keep)
      fun _ => False := within_record
  rw [hway]
  refine hlog.bind_walks fun _ => ?_
  refine (hobserved.runStep_walks (by decide) rfl hobserved.revert).bind ?_
  rintro reverted ps ⟨hstate, rfl, hkind⟩
  cases hreverted : reverted.failure with
  | some f =>
    -- what could not be restored is not reloaded
    rw [PhaseResult.failed?, hreverted, hstate]
    refine hlog.bind_walks fun _ => walks_pure ⟨some _, .fails _ (hkind f hreverted), rfl⟩
  | none =>
    rw [PhaseResult.failed?, hreverted]
    dsimp only [Option.map_none]
    cases htouches : failed.phase.touchesRuntime with
    | false =>
      refine hlog.bind_walks fun _ => walks_pure ⟨none, .next .nil, ?_⟩
      simp [outcomeOf, hfailed]
    | true =>
      refine (hobserved.runStep_walks (by decide) rfl hobserved.reload).bind ?_
      rintro reloaded ps ⟨hstate', rfl, hkind'⟩
      cases hreloaded : reloaded.failure with
      | some f =>
        rw [PhaseResult.failed?, hreloaded, hstate']
        refine hlog.bind_walks fun _ =>
          walks_pure ⟨some _, .next (.fails _ (hkind' f hreloaded)), rfl⟩
      | none =>
        rw [PhaseResult.failed?, hreloaded]
        refine hlog.bind_walks fun _ => walks_pure ⟨none, .next (.next .nil), ?_⟩
        simp [outcomeOf, hfailed]

/-- After the enrichment: the way forward, and the way back. -/
theorem commit_walks (raw rendered : Bytes) :
    (a.commit link plan raw rendered).Walks q keep a.id S fun o ps =>
      ∃ j : Journey, j.Sound ∧ { phase := .enriching } :: ps = j.passages ∧ o = j.outcome := by
  refine (firstFailure_walks (hobserved.forward_walks raw rendered)).bind fun failed ps hpasses => ?_
  have hthere : Passes Phase.forward ({ phase := .enriching } :: ps) failed := .next hpasses
  cases failed with
  | none =>
    refine walks_pure ⟨{ there := { phase := .enriching } :: ps }, ⟨hthere, .nil⟩, ?_, rfl⟩
    simp [Journey.passages]
  | some failed =>
    have hfailed : failed.phase ≠ .enriching := fun h => by
      have hmem := hpasses.mem_of_failed rfl
      rw [h] at hmem
      exact absurd hmem (by decide)
    refine (hobserved.rollBack_walks hfailed).mono ?_
    rintro o back ⟨rollbackFailed, hback, rfl⟩
    exact ⟨{ there := { phase := .enriching } :: ps, failed := some failed, back, rollbackFailed },
      ⟨hthere, hback⟩, rfl, rfl⟩

theorem transaction_walks (raw rendered : Bytes) :
    (FileSet.transaction link plan.files (a.commit link plan raw rendered)).Walks q keep a.id S
      fun o ps => ∃ j : Journey, j.Sound ∧ { phase := .enriching } :: ps = j.passages ∧
        o = j.outcome :=
  (hobserved.commit_walks raw rendered).ensuring
    (FileSet.cleanup_within (hobserved.hears.handles hobserved.watches.files) plan.files
      trivial)

end Attempt.Observed

/-! ### Whole attempts -/

/-- What the journal shows of a whole attempt that has ended with a report: something
first, the legs of its journey, and its end. -/
def Travelled (a : Attempt) (plan : UpdatePlan) (keep : Entry → Bool) (S : Leg → Prop)
    (first : List Entry) (report : UpdateReport) (l : List Entry) : Prop :=
  ∃ (j : Journey) (legs : List Leg) (drained : Option DrainReport) (completedAt : Int),
    j.Sound ∧ legs.map (·.passage) = j.passages ∧ (∀ s ∈ legs, S s) ∧
    report = a.report j.outcome drained completedAt ∧
    (drained.isSome = true ↔ { phase := .draining } ∈ j.passages) ∧
    l = first ++ (legs.flatMap (Leg.entries a.id) ++
      (plan.conclusion report (completedAt - a.startedAt)).filter keep)

/-- In between two worlds a whole attempt runs, on a desk at which no drain is noted. -/
def World.Tours (a : Attempt) (plan : UpdatePlan) (q : Bool → σ → Prop) (keep : Entry → Bool)
    (S : Leg → Prop) (first : List Entry) (report : UpdateReport) (w w' : World σ) : Prop :=
  w.Meets q → w.desk.drained = none → w'.Meets q ∧ w.Grown w' ∧
    Travelled a plan keep S first report ((w.since w').filter keep)

/-- Something comes before, and something silent after. -/
theorem World.Tours.after {w₁ w₂ : World σ} {first l : List Entry} {report : UpdateReport}
    (h : w₁.Tours a plan q keep S first report w₂) (hbefore : w.Reads q keep l w₁)
    (hafter : w₂.Silent q keep w') : w.Tours a plan q keep S (l ++ first) report w' := by
  intro hmeets hdrained
  obtain ⟨hmeets₁, -, hdrained₁, hgrown₁, hes₁⟩ := hbefore hmeets
  obtain ⟨hmeets₂, hgrown₂, j, legs, drained, completedAt, hsound, hlegs, hS, hreport, hiff, hes₂⟩ :=
    h hmeets₁ (hdrained₁.trans hdrained)
  obtain ⟨hmeets', -, -, hgrown', hes'⟩ := hafter hmeets₂
  refine ⟨hmeets', (hgrown₁.trans hgrown₂).trans hgrown', j, legs, drained, completedAt, hsound,
    hlegs, hS, hreport, hiff, ?_⟩
  rw [(hgrown₁.trans hgrown₂).since_trans hgrown', hgrown₁.since_trans hgrown₂, List.filter_append,
    List.filter_append, hes₁, hes₂, hes', List.append_nil, List.append_assoc]

namespace Attempt.Observed

variable (hobserved : a.Observed link plan q A keep L S)

include hobserved

/-- An attempt that has come to the end of its journey ends. -/
theorem ends_finish_tours {j : Journey} {legs : List Leg} {w₁ : World σ} (hsound : j.Sound)
    (hlegs : legs.map (·.passage) = j.passages) (hS : ∀ s ∈ legs, S s)
    (hwalks : w.Walks q keep a.id legs w₁) :
    (a.finish link plan j.outcome w₁.desk.drained).Ends w₁
      (fun report w' => w.Tours a plan q keep S [] report w') fun _ _ => False := by
  refine ((hobserved.hears.finish_yields (fun r _ => hobserved.ordinary r) hobserved.watches.told a
    j.outcome w₁.desk.drained).ends w₁).mono ?_ fun _ _ he => he
  rintro report w' ⟨l, ⟨completedAt, hreport, rfl⟩, h'⟩ hmeets hdrained
  obtain ⟨hmeets₁, -, hgrown₁, hes₁, hiff⟩ := hwalks hmeets
  obtain ⟨hmeets', -, -, hgrown', hes'⟩ := h' hmeets₁
  refine ⟨hmeets', hgrown₁.trans hgrown', j, legs, w₁.desk.drained, completedAt, hsound, hlegs,
    hS, hreport, ?_, ?_⟩
  · rw [hiff, hdrained, hlegs]
    simp
  · rw [hgrown₁.since_trans hgrown', List.filter_append, hes₁, hes', List.nil_append]

theorem ends_runPhases_tours (raw : Bytes) (w : World σ) :
    (a.runPhases link plan raw).Ends w (fun report w' => w.Tours a plan q keep S [] report w')
      fun _ _ => False := by
  rw [runPhases]
  refine (hobserved.runPhase_walks (by decide) rfl (hobserved.enrich raw) w).bind ?_
    fun _ _ he => he
  rintro enriched w₁ ⟨legs, ⟨⟨hstate, hpassages, hkind⟩, result, hended, hsome⟩, hS, h₁⟩
  cases hfailure : enriched.failure with
  | some f =>
    rw [PhaseResult.failed?, hfailure, hstate]
    let j : Journey := {
      there := [{ phase := .enriching, failure := some f }]
      failed := some { phase := .enriching, failure := f } }
    have hsound : j.Sound := ⟨.fails _ (hkind f hfailure), .nil⟩
    have hlog : ∀ log, w.Walks q keep a.id legs { w₁ with log } := fun log => by
      simpa using h₁.trans (World.walks_of_silent (Course.log w₁ log))
    dsimp only [Option.map_some]
    rw [ends_bind, Attempt.say, Act.say, ends_record, ends_bind, ends_desk]
    refine hobserved.ends_finish_tours (j := j) hsound ?_ hS (hlog _)
    rw [hpassages, hfailure]
    rfl
  | none =>
    rw [PhaseResult.failed?, hfailure]
    cases result with
    | error fault =>
      rw [hended.failure] at hfailure
      cases hfailure
    | ok v =>
      cases v with
      | none => exact absurd rfl hsome
      | some rendered =>
        dsimp only [Option.map_none]
        rw [hended.value _ rfl]
        refine (hobserved.transaction_walks raw rendered w₁).bind ?_ fun _ _ he => he
        rintro o w₂ ⟨legs', ⟨j, hsound, hj, rfl⟩, hS', h₂⟩
        rw [ends_bind, ends_desk]
        refine hobserved.ends_finish_tours hsound ?_ (List.forall_mem_append.mpr ⟨hS, hS'⟩)
          (h₁.trans h₂)
        rw [List.map_append, hpassages, hfailure, ← hj]
        rfl

/-- An attempt on a desk at which no drain is noted shows its announcement, the legs
of its journey, and its end. -/
theorem ends_attempt_tours (raw : Bytes) (w : World σ) :
    (Updater.attempt link plan a raw).Ends w
      (fun report w' => w.Tours a plan q keep S
        [.asked (.publish (.updateStarted a.id a.digest a.size))] report w') fun _ _ => False := by
  have hspan : ∀ {r : Request}, r.isSpan = true →
      (link.ask r).Within (World.Silent q keep) fun _ => False := fun hr =>
    ask_span_within hobserved.hears hobserved.watches hobserved.spans hr
  have hperform : (a.perform link plan raw).Ends w
      (fun report w' => w.Tours a plan q keep S
        [.asked (.publish (.updateStarted a.id a.digest a.size))] report w') fun _ _ => False := by
    rw [perform]
    refine (within_record (R := World.Silent q keep) (F := fun _ => False) w).bind (fun _ w₁ h₁ => ?_)
      fun _ _ he => he.1
    refine (within_record (R := World.Silent q keep) (F := fun _ => False) w₁).bind
      (fun _ w₂ h₂ => ?_) fun _ _ he => he.1
    refine ((progress_yields hobserved.hears hobserved.watches hobserved.ordinary
      (e := .updateStarted a.id a.digest a.size) rfl rfl).ends w₂).bind ?_ fun _ _ he => he
    rintro - w₃ ⟨l, rfl, h₃⟩
    refine (Tracing.ends_withSpan_framed (N := World.Silent q keep) (C := fun _ => False)
      (fun name => hspan (r := .openSpan name) rfl)
      (fun s key value => hspan (r := .annotateSpan s key value) rfl)
      (fun s => hspan (r := .closeSpan s) rfl) (fun _ he => he) (fun _ _ h => h)
      (fun _ _ _ _ he _ => he.elim) _ _ _
      (fun _ w => (hobserved.ends_runPhases_tours raw w).of_safe) w₃).mono ?_ fun _ _ he => he.1
    rintro report w' ⟨w₄, w₅, h₄, htours, h₅⟩
    have hbefore := (Course.trans (Course.trans h₁ h₂) (Course.refl w₂)).trans (h₃.trans h₄)
    simpa using htours.after hbefore h₅
  rw [Updater.attempt, ends_bind, ends_guarded]
  exact hperform.of_safe

end Attempt.Observed

/-- An update on a free desk shows its attempt. -/
theorem Updater.ends_apply_travelled {raw : Bytes} (hfree : w.desk.engaged = false)
    (hobserved : (newAttempt link raw w).Observed link plan q A keep L S)
    (hmeets : q true (afterStart link w).host) :
    (apply link plan raw).Ends w
      (fun report w' => Travelled (newAttempt link raw w) plan keep S
        [.asked (.publish (.updateStarted (newAttempt link raw w).id (newAttempt link raw w).digest
          (newAttempt link raw w).size))] report ((w.since w').filter keep))
      fun _ _ => False := by
  rw [ends_apply_of_free hfree]
  refine (hobserved.ends_attempt_tours raw _).mono ?_ fun _ _ he => he
  exact fun report w' htours => (htours hmeets rfl).2.2

end HotSwap
