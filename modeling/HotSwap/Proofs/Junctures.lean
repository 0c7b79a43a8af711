/-
The junctures of an attempt.

Between two actions an attempt stands at a juncture.  Its phases lead from one
juncture to the next, forward to a running candidate or back to the restored files.
An outline gives an assertion for each juncture and shows that each action leads
from one to the next; the transaction of an attempt then ends in one of the last
ones, or is left by a fault on the way.

* `Juncture` — where an attempt stands, and which phase comes next;
* `Outline` — assertions for the junctures after the enrichment;
* `Outline.ends_commit` — where the way forward and the way back end;
* `Outline.Closed`, `Outline.ends_transaction` — the same, after the closing cleanup.

Design notes: what is shown here is shown once for every outline; the outlines say
what is of interest, such as what the files hold or what the flow has loaded.
-/
import HotSwap.Proofs.FileOperations
import HotSwap.Proofs.Turns

namespace HotSwap

open Act

/-- The kind with which a phase fails. -/
def Phase.failureKind? : Phase → Option FailureKind
  | .enriching => some .rejectedCandidate
  | .backingUp | .persisting | .revertingFiles => some .fileOperation
  | .draining => some .drainFailure
  | .reloading | .validating => some .reloadFailure
  | .reloadingReverted => some .revertReloadFailure
  | _ => none

/-- Where an attempt stands between two actions. -/
inductive Juncture where
  /-- The candidate has been enriched. -/
  | rendered
  | backedUp
  | persisted
  | drained
  | loaded
  | running
  /-- A phase of the way forward has failed. -/
  | broken (failed : Phase)
  /-- The files have been restored, after a phase had failed. -/
  | restored (failed : Phase)
  | unrestored (failed : Phase)
  /-- The restored configuration has been reloaded, after a phase had failed. -/
  | reloaded (failed : Phase)
  | unreloaded (failed : Phase)
  /-- An action was interrupted. -/
  | cut
  deriving DecidableEq, Repr

namespace Juncture

/-- The phase that comes next. -/
def next? : Juncture → Option Phase
  | rendered => some .backingUp
  | backedUp => some .persisting
  | persisted => some .draining
  | drained => some .reloading
  | loaded => some .validating
  | broken _ => some .revertingFiles
  | restored failed => if failed.touchesRuntime then some .reloadingReverted else none
  | running | unrestored _ | reloaded _ | unreloaded _ | cut => none

/-- The juncture is the last one of an attempt with this final state, this kind of
failure and this failed phase. -/
def Concludes (state : Phase) (kind : Option FailureKind) (failed : Option Phase) :
    Juncture → Prop
  | running => state = .running ∧ kind = none ∧ failed = none
  | restored phase =>
    state = .reverted ∧ kind = phase.failureKind? ∧ kind ≠ none ∧ failed = some phase ∧
      phase.touchesRuntime = false
  | reloaded phase =>
    state = .reverted ∧ kind = phase.failureKind? ∧ kind ≠ none ∧ failed = some phase
  | unrestored phase => state = .degradedNoReload ∧ kind = some .fileOperation ∧ failed = some phase
  | unreloaded phase =>
    state = .degradedNoReload ∧ kind = some .revertReloadFailure ∧ failed = some phase
  | _ => False

end Juncture

variable {σ β α : Type} {view : σ → β} {link : Link σ} {w w' : World σ} {cuts rough : Prop}
  {plan : UpdatePlan} {raw rendered : Bytes}

/-- An assertion for each juncture, with each action leading from one to the
next. -/
structure Outline (link : Link σ) (plan : UpdatePlan) (view : σ → β) (cuts : Prop)
    (raw rendered : Bytes) where
  holds : Juncture → World σ → Prop
  stable : ∀ j, plan.files.Stable view (holds j)
  backup : Turn (FileSet.backup link plan.files) .backingUp cuts (holds .rendered)
    (fun _ => holds .backedUp) (holds (.broken .backingUp)) (holds .cut)
  persist : Turn (FileSet.persist link plan.files rendered raw) .persisting cuts (holds .backedUp)
    (fun _ => holds .persisted) (holds (.broken .persisting)) (holds .cut)
  drain : Turn (HotSwap.drain link plan.drain true) .draining cuts (holds .persisted)
    (fun _ => holds .drained) (holds (.broken .draining)) (holds .cut)
  load : Turn (loadFlow link) .reloading cuts (holds .drained)
    (fun _ => holds .loaded) (holds (.broken .reloading)) (holds .cut)
  start : Turn (validateAndStart link plan.validation true) .validating cuts (holds .loaded)
    (fun _ => holds .running) (holds (.broken .validating)) (holds .cut)
  revert : ∀ failed, Turn (Attempt.revertFiles link plan.files) .revertingFiles cuts
    (holds (.broken failed)) (fun _ => holds (.restored failed)) (holds (.unrestored failed))
    (holds .cut)
  reload : ∀ failed, failed.touchesRuntime = true →
    Turn (Attempt.reloadReverted link plan.validation) .reloadingReverted cuts
      (holds (.restored failed)) (fun _ => holds (.reloaded failed))
      (holds (.unreloaded failed)) (holds .cut)

/-! ### Phases without a value -/

/-- A phase leads from `I` to `P`, or to `B` by its failure. -/
def Runs (phase : Phase) (cuts rough : Prop)
    (I P B X : World σ → Prop) (act : Act σ (PhaseResult Unit)) : Prop :=
  ∀ w : World σ, w.desk.engaged = true → I w → act.Ends w
    (fun r w' => w'.IsIn phase ∧ ∃ kind, phase.failureKind? = some kind ∧
      r.Says phase kind (fun _ => P) B w')
    (fun e w' => (e.interrupts = true → cuts) ∧ w'.IsIn phase ∧
      (I w' ∨ rough ∧ (P w' ∨ B w' ∨ X w')))

namespace Attempt

variable {phase : Phase} {kind : FailureKind} {I P B X : World σ → Prop}

theorem runs_runStep (a : Attempt) (hlink : link.Manners plan.files view cuts rough)
    (hkind : phase.failureKind? = some kind) {action : Act σ Unit}
    (hturn : Turn action phase cuts I (fun _ => P) B X) (hI : plan.files.Stable view I)
    (hP : plan.files.Stable view P) (hB : plan.files.Stable view B)
    (hX : plan.files.Stable view X) :
    Runs phase cuts rough I P B X (a.runStep link plan phase kind action) := by
  intro w hengaged hw
  have hturn' : Turn (do action; return none : Act σ (Option Unit)) phase cuts I (fun _ => P) B X :=
    fun w hin hw => (hturn w hin hw).bind (fun _ _ h => h) fun _ _ h => h
  refine (a.ends_runPhase hlink hturn' hI (fun _ => hP) hB hX hengaged hw).mono ?_ ?_
  · exact fun r w' h => ⟨h.1, kind, hkind, h.2⟩
  · rintro e w' ⟨hcuts, hin, h⟩
    exact ⟨hcuts, hin, h.imp_right fun h => ⟨h.1, h.2.imp_left fun ⟨_, h⟩ => h⟩⟩

theorem runs_drainPhase (a : Attempt) (hlink : link.Manners plan.files view cuts rough)
    (hturn : Turn (drain link plan.drain true) .draining cuts I (fun _ => P) B X)
    (hI : plan.files.Stable view I) (hP : plan.files.Stable view P)
    (hB : plan.files.Stable view B) (hX : plan.files.Stable view X) :
    Runs .draining cuts rough I P B X (a.drainPhase link plan) := by
  intro w hengaged hw
  have hturn' : Turn (do return some (← drain link plan.drain true) : Act σ (Option DrainReport))
      .draining cuts I (fun _ => P) B X :=
    fun w hin hw => (hturn w hin hw).bind (fun _ _ h => h) fun _ _ h => h
  refine (a.ends_runPhase hlink hturn' hI (fun _ => hP) hB hX hengaged hw).bind ?_ ?_
  · intro r w₁ h₁
    have hsays : ∀ w₂ : World σ, w₂.IsIn .draining → plan.files.Kept view w₁ w₂ →
        w₂.IsIn .draining ∧ ∃ kind, Phase.failureKind? .draining = some kind ∧
          ({ state := r.state, failure := r.failure } : PhaseResult Unit).Says .draining kind
            (fun _ => P) B w₂ := fun w₂ hin hkept =>
      ⟨hin, .drainFailure, rfl, says_stable (fun _ => hP) hB r w₁ w₂ hkept h₁.2⟩
    have hkept := FilePaths.Kept.refl plan.files view w₁
    dsimp only
    split
    · exact hsays _ ⟨h₁.1.1, h₁.1.2⟩ (hkept.aside _ _)
    · exact hsays _ h₁.1 hkept
  · rintro e w' ⟨hcuts, hin, h⟩
    exact ⟨hcuts, hin, h.imp_right fun h => ⟨h.1, h.2.imp_left fun ⟨_, h⟩ => h⟩⟩

end Attempt

/-! ### From juncture to juncture -/

namespace Outline

variable (o : Outline link plan view cuts raw rendered)

/-- A fault has left the attempt at a juncture: early in the phase that comes next,
or roughly. -/
def Left (o : Outline link plan view cuts raw rendered) (rough : Prop) (w : World σ) : Prop :=
  ∃ j, o.holds j w ∧ (j.next? = some w.desk.phase ∨ rough)

/-- Phases that lead from one juncture to another, one after the other. -/
inductive Chain (o : Outline link plan view cuts raw rendered) (rough : Prop) :
    Juncture → List (Act σ (PhaseResult Unit)) → Juncture → Prop
  | nil (j : Juncture) : Chain o rough j [] j
  | cons {j j' j'' : Juncture} {phase : Phase} {act : Act σ (PhaseResult Unit)}
      {acts : List (Act σ (PhaseResult Unit))} (hnext : j.next? = some phase)
      (hact : Runs phase cuts rough (o.holds j) (o.holds j') (o.holds (.broken phase))
        (o.holds .cut) act)
      (hacts : Chain o rough j' acts j'') : Chain o rough j (act :: acts) j''

variable {o}

/-- Whichever way it is left, a phase is left at a juncture. -/
theorem left_of_runs {j j' j'' : Juncture} {phase : Phase} (hnext : j.next? = some phase)
    (hin : w.IsIn phase)
    (h : o.holds j w ∨ rough ∧ (o.holds j' w ∨ o.holds j'' w ∨ o.holds .cut w)) :
    o.Left rough w := by
  rcases h with h | ⟨hrough, h | h | h⟩
  · exact ⟨j, h, .inl (by rw [hnext, hin.2])⟩
  · exact ⟨j', h, .inr hrough⟩
  · exact ⟨j'', h, .inr hrough⟩
  · exact ⟨.cut, h, .inr hrough⟩

/-- A chain of phases leads to its last juncture, or to where its first failure
broke it. -/
theorem ends_firstFailure {j j' : Juncture} {acts : List (Act σ (PhaseResult Unit))}
    (hacts : o.Chain rough j acts j') (hengaged : w.desk.engaged = true) (hw : o.holds j w) :
    (Attempt.firstFailure acts).Ends w
      (fun failed w' => w'.desk.engaged = true ∧
        match failed with
        | none => o.holds j' w'
        | some f => f.phase.failureKind? = some f.failure.kind ∧ o.holds (.broken f.phase) w')
      (fun e w' => (e.interrupts = true → cuts) ∧ w'.desk.engaged = true ∧ o.Left rough w') := by
  -- the induction is on the chain; each phase but the last leads into the rest of it
  induction hacts generalizing w with
  | nil j => exact ⟨hengaged, hw⟩
  | cons hnext hact _ ih =>
    rw [Attempt.firstFailure]
    refine (hact w hengaged hw).bind ?_ ?_
    · rintro r w₁ ⟨hin, kind, hkind, hstate, hr⟩
      cases hfailure : r.failure with
      | none =>
        rw [hfailure] at hr
        rw [PhaseResult.failed?, hfailure]
        exact ih hin.1 hr
      | some f =>
        rw [hfailure] at hr
        rw [PhaseResult.failed?, hfailure]
        obtain ⟨rfl, hB⟩ := hr
        refine ⟨hin.1, ?_⟩
        show Phase.failureKind? r.state = _ ∧ o.holds (.broken r.state) w₁
        rw [hstate]
        exact ⟨hkind, hB⟩
    · rintro e w' ⟨hcuts, hin, h⟩
      exact ⟨hcuts, hin.1, left_of_runs hnext hin h⟩

/-- A phase leads from juncture to juncture, if its action does. -/
theorem runs_step (o : Outline link plan view cuts raw rendered)
    (hlink : link.Manners plan.files view cuts rough) (a : Attempt) {phase : Phase}
    {kind : FailureKind} (hkind : phase.failureKind? = some kind) {action : Act σ Unit}
    {j j' j'' : Juncture} (hturn : Turn action phase cuts (o.holds j) (fun _ => o.holds j')
      (o.holds j'') (o.holds .cut)) :
    Runs phase cuts rough (o.holds j) (o.holds j') (o.holds j'') (o.holds .cut)
      (a.runStep link plan phase kind action) :=
  a.runs_runStep hlink hkind hturn (o.stable _) (o.stable _) (o.stable _) (o.stable _)

/-- The way back from a failed phase ends at one of the last junctures. -/
theorem ends_rollBack (o : Outline link plan view cuts raw rendered)
    (hlink : link.Manners plan.files view cuts rough) (a : Attempt) (failed : PhaseFailure)
    (hkind : failed.phase.failureKind? = some failed.failure.kind)
    (hengaged : w.desk.engaged = true) (hw : o.holds (.broken failed.phase) w) :
    (a.rollBack link plan failed).Ends w
      (fun r w' => w'.desk.engaged = true ∧ ∃ j, o.holds j w' ∧
        j.Concludes r.state r.failureKind (r.failed.map (·.phase)))
      (fun e w' => (e.interrupts = true → cuts) ∧ w'.desk.engaged = true ∧ o.Left rough w') := by
  have hlog : ∀ (j : Juncture) (w : World σ) (log : Array Record), o.holds j w →
      o.holds j { w with log } := fun j w log =>
    o.stable j w _ ((FilePaths.Kept.refl plan.files view w).aside w.desk log)
  rw [Attempt.rollBack, ends_bind, Attempt.sayFault, ends_record]
  refine Ends.bind (o.runs_step hlink a rfl (o.revert failed.phase) _ hengaged
    (hlog _ w (w.log.push _) hw)) ?_ ?_
  · rintro reverted w₁ ⟨hin₁, kind, hkind₁, hstate₁, h₁⟩
    cases hreverted : reverted.failure with
    | some f =>
      -- what could not be restored is not reloaded
      rw [hreverted] at h₁
      rw [PhaseResult.failed?, hreverted]
      refine ⟨hin₁.1, .unrestored failed.phase, hlog _ _ _ h₁.2, rfl, ?_, rfl⟩
      exact (congrArg some h₁.1).trans hkind₁.symm
    | none =>
      rw [hreverted] at h₁
      rw [PhaseResult.failed?, hreverted]
      dsimp only [Option.map_none]
      split
      · -- the flow still runs the previous configuration
        next htouches =>
        refine ⟨hin₁.1, .restored failed.phase, hlog _ _ _ h₁, rfl, hkind.symm, ?_, rfl, ?_⟩
        · simp [Outcome.failureKind]
        · simpa using htouches
      · next htouches =>
        replace htouches : failed.phase.touchesRuntime = true := by simpa using htouches
        refine (o.runs_step hlink a rfl (o.reload failed.phase htouches) w₁ hin₁.1 h₁).bind ?_ ?_
        · rintro reloaded w₂ ⟨hin₂, kind, hkind₂, hstate₂, h₂⟩
          cases hreloaded : reloaded.failure with
          | some f =>
            rw [hreloaded] at h₂
            rw [PhaseResult.failed?, hreloaded]
            refine ⟨hin₂.1, .unreloaded failed.phase, hlog _ _ _ h₂.2, rfl, ?_, rfl⟩
            exact (congrArg some h₂.1).trans hkind₂.symm
          | none =>
            rw [hreloaded] at h₂
            rw [PhaseResult.failed?, hreloaded]
            exact ⟨hin₂.1, .reloaded failed.phase, hlog _ _ _ h₂, rfl, hkind.symm,
              by simp [Outcome.failureKind], rfl⟩
        · rintro e w' ⟨hcuts, hin, h⟩
          exact ⟨hcuts, hin.1, left_of_runs (by simp [Juncture.next?, htouches]) hin h⟩
  · rintro e w' ⟨hcuts, hin, h⟩
    exact ⟨hcuts, hin.1, left_of_runs rfl hin h⟩

/-- The way forward ends with a running candidate, or takes the way back. -/
theorem ends_commit (o : Outline link plan view cuts raw rendered)
    (hlink : link.Manners plan.files view cuts rough) (a : Attempt)
    (hengaged : w.desk.engaged = true) (hw : o.holds .rendered w) :
    (a.commit link plan raw rendered).Ends w
      (fun r w' => w'.desk.engaged = true ∧ ∃ j, o.holds j w' ∧
        j.Concludes r.state r.failureKind (r.failed.map (·.phase)))
      (fun e w' => (e.interrupts = true → cuts) ∧ w'.desk.engaged = true ∧ o.Left rough w') := by
  have hchain : o.Chain rough .rendered (a.forward link plan raw rendered) .running :=
    .cons rfl (o.runs_step hlink a rfl o.backup) <|
    .cons rfl (o.runs_step hlink a rfl o.persist) <|
    .cons rfl (a.runs_drainPhase hlink o.drain (o.stable _) (o.stable _) (o.stable _)
      (o.stable _)) <|
    .cons rfl (o.runs_step hlink a rfl o.load) <|
    .cons rfl (o.runs_step hlink a rfl o.start) <|
    .nil _
  rw [Attempt.commit]
  refine (ends_firstFailure hchain hengaged hw).bind ?_ fun _ _ he => he
  rintro (_ | failed) w₁ ⟨hengaged₁, h₁⟩
  · exact ⟨hengaged₁, .running, h₁, rfl, rfl, rfl⟩
  · exact o.ends_rollBack hlink a failed h₁.1 hengaged₁ h₁.2

end Outline

/-! ### Closing -/

/-- What has happened since the closing cleanup began: it has removed backups, and
there has been talk. -/
structure FilePaths.Aftermath (p : FilePaths) (view : σ → β) (w w' : World σ) : Prop where
  contents : Unchanged (p.contents w.disk) (p.contents w'.disk)
  host : view w'.host = view w.host
  grown : (w.enter (.began .cleanup)).Grown w'
  shows : ∀ e ∈ (w.enter (.began .cleanup)).since w', e.Talk ∨
    ∃ disk, e.disk? = some disk ∧ Unchanged (p.contents w.disk) (p.contents disk)

theorem FilePaths.Aftermath.kept {p : FilePaths} {w w' w'' : World σ}
    (h : p.Aftermath view w w') (h' : p.Kept view w' w'') : p.Aftermath view w w'' where
  contents f := (congrFun h'.contents _).trans (h.contents f)
  host := h'.host.trans h.host
  grown := h.grown.trans h'.grown
  shows e he := by
    rw [h.grown.since_trans h'.grown] at he
    rcases List.mem_append.mp he with he | he
    · exact h.shows e he
    · exact .inl (h'.talk e he)

namespace Outline

variable (o : Outline link plan view cuts raw rendered)

/-- The attempt stood at a juncture when its closing cleanup began. -/
def Closed (j : Juncture) (w : World σ) : Prop :=
  ∃ w₁, o.holds j w₁ ∧ plan.files.Aftermath view w₁ w

theorem stable_closed (j : Juncture) : plan.files.Stable view (o.Closed j) := by
  rintro w w' hkept ⟨w₁, hj, hafter⟩
  exact ⟨w₁, hj, hafter.kept hkept⟩

theorem ends_cleanup (hp : plan.files.Separate) (hlink : link.Steady view) {j : Juncture}
    (hw : o.holds j w) :
    (FileSet.cleanup link plan.files).Ends w (fun _ w' => w'.desk = w.desk ∧ o.Closed j w')
      fun _ _ => False := by
  refine (FileSet.ends_cleanup hp hlink w).mono ?_ fun _ _ he => he
  rintro - w' ⟨htrail, hcontents, -⟩
  exact ⟨htrail.desk, w, hw, hcontents, htrail.host, htrail.grown,
    fun e he => .inr (htrail.shows e he)⟩

/-- A commit inside its transaction ends closed. -/
theorem ends_transaction (hp : plan.files.Separate)
    (hlink : link.Manners plan.files view cuts rough) (a : Attempt)
    (hengaged : w.desk.engaged = true) (hw : o.holds .rendered w) :
    (FileSet.transaction link plan.files (a.commit link plan raw rendered)).Ends w
      (fun r w' => w'.desk.engaged = true ∧ ∃ j, o.Closed j w' ∧
        j.Concludes r.state r.failureKind (r.failed.map (·.phase)))
      (fun e w' => (e.interrupts = true → cuts) ∧ w'.desk.engaged = true ∧
        ∃ j, o.Closed j w' ∧ (j.next? = some w'.desk.phase ∨ rough)) := by
  rw [FileSet.transaction]
  refine ends_ensuring.mpr ((o.ends_commit hlink a hengaged hw).mono ?_ ?_)
  · rintro r w₁ ⟨hengaged₁, j, hj, hends⟩
    refine (o.ends_cleanup hp hlink.steady hj).mono ?_ fun _ _ he => he.elim
    rintro - w' ⟨hdesk, hclosed⟩
    exact ⟨by rw [hdesk]; exact hengaged₁, j, hclosed, hends⟩
  · rintro e w₁ ⟨hcuts, hengaged₁, j, hj, hleft⟩
    refine (o.ends_cleanup hp hlink.steady hj).mono ?_ fun _ _ he => he.elim
    rintro - w' ⟨hdesk, hclosed⟩
    exact ⟨hcuts, by rw [hdesk]; exact hengaged₁, j, hclosed, by rwa [hdesk]⟩

end Outline
end HotSwap
