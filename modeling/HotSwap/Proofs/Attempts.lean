/-
Attempts from their announcement to their report.

* `Narrative` — an outline for each enriched candidate, with what holds before;
* `Narrative.Told` — what holds at the end of an attempt, by what its report says;
* `Narrative.Left` — what holds where a fault has left an attempt;
* `Narrative.ends_apply` — an attempt ends in one of the two ways; an ordinary fault
  becomes an unexpected failure in the phase that it has left.
-/
import HotSwap.Proofs.Junctures

namespace HotSwap

open Act

variable {σ β α : Type} {view : σ → β} {link : Link σ} {w w' : World σ} {cuts rough : Prop}
  {plan : UpdatePlan} {raw rendered : Bytes} {phase : Phase}

/-- An outline for each enriched candidate, and what holds as long as there is
none. -/
structure Narrative (link : Link σ) (plan : UpdatePlan) (view : σ → β) (cuts : Prop)
    (raw : Bytes) where
  begun : World σ → Prop
  outline : ∀ rendered, Outline link plan view cuts raw rendered
  stable_begun : plan.files.Stable view begun
  enrich : Turn (Attempt.enrich link plan raw) .enriching cuts begun
    (fun v w => match v with
      | none => begun w
      | some rendered => (outline rendered).holds .rendered w)
    begun begun

namespace Narrative

variable (n : Narrative link plan view cuts raw)

/-- What holds at the end of an attempt, by what its report says. -/
def Told (state : Phase) (kind : Option FailureKind) (failed : Option Phase) (w : World σ) : Prop :=
  state = .rejected ∧ kind = some .rejectedCandidate ∧ failed = some .enriching ∧ n.begun w ∨
    ∃ rendered j, (n.outline rendered).Closed j w ∧ j.Concludes state kind failed

/-- What holds where a fault has left an attempt in a phase. -/
def Left (rough : Prop) (phase : Phase) (w : World σ) : Prop :=
  n.begun w ∨ (rough ∧ ∃ rendered, (n.outline rendered).holds .rendered w) ∨
    ∃ rendered j, (n.outline rendered).Closed j w ∧ (j.next? = some phase ∨ rough)

theorem stable_told (state : Phase) (kind : Option FailureKind) (failed : Option Phase) :
    plan.files.Stable view (n.Told state kind failed) := by
  rintro w w' hkept (⟨hstate, hkind, hfailed, hw⟩ | ⟨rendered, j, hclosed, hj⟩)
  · exact .inl ⟨hstate, hkind, hfailed, n.stable_begun w w' hkept hw⟩
  · exact .inr ⟨rendered, j, (n.outline rendered).stable_closed j w w' hkept hclosed, hj⟩

theorem stable_left (phase : Phase) : plan.files.Stable view (n.Left rough phase) := by
  rintro w w' hkept (hw | ⟨hrough, rendered, hw⟩ | ⟨rendered, j, hclosed, hj⟩)
  · exact .inl (n.stable_begun w w' hkept hw)
  · exact .inr (.inl ⟨hrough, rendered, (n.outline rendered).stable _ w w' hkept hw⟩)
  · exact .inr (.inr ⟨rendered, j, (n.outline rendered).stable_closed j w w' hkept hclosed, hj⟩)

/-- A phase goes on while nothing turns. -/
theorem lasts_left : plan.files.Lasts view fun w => n.Left rough w.desk.phase w := by
  intro w w' hengaged h hw
  obtain ⟨-, hphase, hkept⟩ := h hengaged
  rw [hphase]
  exact n.stable_left _ w w' hkept hw

theorem left_of_told {state : Phase} {kind : Option FailureKind} {failed : Option Phase}
    (hrough : rough) (h : n.Told state kind failed w) : n.Left rough phase w := by
  rcases h with ⟨-, -, -, hw⟩ | ⟨rendered, j, hclosed, -⟩
  · exact .inl hw
  · exact .inr (.inr ⟨rendered, j, hclosed, .inr hrough⟩)

end Narrative

/-! ### Reports -/

/-- Ending an attempt leaves what holds, and its report says how it ended. -/
theorem Attempt.ends_finish (hlink : link.Manners plan.files view cuts rough) (a : Attempt)
    (o : Outcome) (drained : Option DrainReport) {A : World σ → Prop}
    (hA : plan.files.Lasts view A) (hengaged : w.desk.engaged = true) (hw : A w) :
    (a.finish link plan o drained).Ends w
      (fun report w' => w'.desk.engaged = true ∧ A w' ∧ report.state = o.state ∧
        report.failureKind = o.failureKind ∧ report.failedPhase = o.failed.map (·.phase))
      (fun e w' => (e.interrupts = true ∧ cuts) ∧ w'.desk.engaged = true ∧ A w') := by
  refine (hA.ends (hlink.steady.time_within plan.files) hengaged hw).bind ?_ fun _ _ he => he
  rintro completedAt w₁ ⟨hengaged₁, hw₁⟩
  have hend : ∀ (w₂ : World σ) (event : Event) (report : UpdateReport),
      w₂.desk.engaged = true → A w₂ → (do
        publish link event
        keep link plan report
        return report).Ends w₂
        (fun r w' => w'.desk.engaged = true ∧ A w' ∧ r = report)
        (fun e w' => (e.interrupts = true ∧ cuts) ∧ w'.desk.engaged = true ∧ A w') := by
    intro w₂ event report hengaged₂ hw₂
    refine (hA.ends (hlink.publish_within event) hengaged₂ hw₂).bind ?_ fun _ _ he => he
    rintro - w₃ ⟨hengaged₃, hw₃⟩
    refine (hA.ends (hlink.keep_within plan report) hengaged₃ hw₃).bind ?_ fun _ _ he => he
    exact fun _ w₄ h => ⟨h.1, h.2, rfl⟩
  have hlog : ∀ log, A { w₁ with log } := fun log =>
    hA w₁ _ hengaged₁ (plan.files.discreet_desk view w₁ w₁.desk rfl rfl log) hw₁
  dsimp only
  split
  all_goals
    rw [ends_bind, say, Act.say, ends_record]
    refine Ends.mono (hend _ _ _ hengaged₁ (hlog _)) ?_ fun _ _ he => he
    rintro _ w' ⟨hengaged', hw', rfl⟩
    exact ⟨hengaged', hw', rfl, rfl, rfl⟩

/-! ### Inside the span of an attempt -/

namespace Narrative

variable (n : Narrative link plan view cuts raw)

/-- Where the outcome of an attempt is told, its report is. -/
theorem ends_finish (hlink : link.Manners plan.files view cuts rough) (a : Attempt) (o : Outcome)
    (drained : Option DrainReport) (hengaged : w.desk.engaged = true)
    (hw : n.Told o.state o.failureKind (o.failed.map (·.phase)) w) :
    (a.finish link plan o drained).Ends w
      (fun report w' => w'.desk.engaged = true ∧
        n.Told report.state report.failureKind report.failedPhase w')
      (fun e w' => (e.interrupts = true → cuts) ∧ w'.desk.engaged = true ∧
        n.Left rough w'.desk.phase w') := by
  refine (a.ends_finish hlink o drained (n.stable_told _ _ _).lasts hengaged hw).mono ?_ ?_
  · rintro report w' ⟨hengaged', hw', hstate, hkind, hfailed⟩
    rw [hstate, hkind, hfailed]
    exact ⟨hengaged', hw'⟩
  · rintro e w' ⟨⟨-, hcuts⟩, hengaged', hw'⟩
    exact ⟨fun _ => hcuts, hengaged', n.left_of_told (hlink.rough_of_cuts hcuts) hw'⟩

/-- The phases of an attempt end with a report that is told, or are left. -/
theorem ends_runPhases (hp : plan.files.Separate)
    (hlink : link.Manners plan.files view cuts rough) (a : Attempt)
    (hengaged : w.desk.engaged = true) (hw : n.begun w) :
    (a.runPhases link plan raw).Ends w
      (fun report w' => w'.desk.engaged = true ∧
        n.Told report.state report.failureKind report.failedPhase w')
      (fun e w' => (e.interrupts = true → cuts) ∧ w'.desk.engaged = true ∧
        n.Left rough w'.desk.phase w') := by
  have hrendered : ∀ v : Option Bytes, plan.files.Stable view fun w => match v with
      | none => n.begun w
      | some rendered => (n.outline rendered).holds .rendered w := fun v => by
    cases v with
    | none => exact n.stable_begun
    | some rendered => exact (n.outline rendered).stable _
  rw [Attempt.runPhases]
  refine (a.ends_runPhase hlink n.enrich n.stable_begun hrendered n.stable_begun n.stable_begun
    hengaged hw).bind ?_ ?_
  · rintro enriched w₁ ⟨hin₁, hstate, h₁⟩
    cases hfailure : enriched.failure with
    | some f =>
      -- a rejected candidate: no transaction is begun
      rw [hfailure] at h₁
      rw [PhaseResult.failed?, hfailure]
      refine Ends.bind (n.stable_begun.lasts.ends (F := fun _ => False) within_record hin₁.1
        h₁.2) ?_ fun _ _ he => he.1.elim
      rintro - w₂ ⟨hengaged₂, hw₂⟩
      rw [ends_bind, ends_desk]
      refine n.ends_finish hlink a _ _ hengaged₂ (.inl ⟨rfl, ?_, ?_, hw₂⟩)
      · exact congrArg some h₁.1
      · exact congrArg some hstate
    | none =>
      rw [hfailure] at h₁
      rw [PhaseResult.failed?, hfailure]
      cases hvalue : enriched.value with
      | none =>
        -- an enrichment without a candidate is a fault of the update itself
        rw [hvalue] at h₁
        exact ⟨(fun h => by cases h), hin₁.1, .inl h₁⟩
      | some rendered =>
        rw [hvalue] at h₁
        refine Ends.bind ((n.outline rendered).ends_transaction hp hlink a hin₁.1 h₁) ?_ ?_
        · rintro outcome w₂ ⟨hengaged₂, j, hclosed, hends⟩
          rw [ends_bind, ends_desk]
          exact n.ends_finish hlink a _ _ hengaged₂ (.inr ⟨rendered, j, hclosed, hends⟩)
        · rintro e w' ⟨hcuts, hengaged', j, hclosed, hleft⟩
          exact ⟨hcuts, hengaged', .inr (.inr ⟨rendered, j, hclosed, hleft⟩)⟩
  · rintro e w' ⟨hcuts, hin, h⟩
    refine ⟨hcuts, hin.1, ?_⟩
    rcases h with h | ⟨hrough, ⟨v, h⟩ | h | h⟩
    · exact .inl h
    · cases v with
      | none => exact .inl h
      | some rendered => exact .inr (.inl ⟨hrough, rendered, h⟩)
    · exact .inl h
    · exact .inl h

/-- An attempt that has the desk is told, or left by a fault. -/
theorem ends_perform (hp : plan.files.Separate)
    (hlink : link.Manners plan.files view cuts rough) (a : Attempt)
    (hengaged : w.desk.engaged = true) (hw : n.begun w) :
    (a.perform link plan raw).Ends w
      (fun report w' => w'.desk.engaged = true ∧
        n.Told report.state report.failureKind report.failedPhase w')
      (fun e w' => (e.interrupts = true → cuts) ∧ w'.desk.engaged = true ∧
        n.Left rough w'.desk.phase w') := by
  have hbegun := n.stable_begun.lasts
  have hlog : ∀ {w : World σ} (r : Record), w.desk.engaged = true → n.begun w →
      (record r).Ends w (fun _ w' => w'.desk.engaged = true ∧ n.begun w') fun _ _ => False :=
    fun r hengaged hw => (hbegun.ends (F := fun _ => False) within_record hengaged hw).mono
      (fun _ _ h => h) fun _ _ he => he.1
  rw [Attempt.perform]
  refine Ends.bind (hlog _ hengaged hw) ?_ fun _ _ he => he.elim
  rintro - w₁ ⟨hengaged₁, hw₁⟩
  refine Ends.bind (hlog _ hengaged₁ hw₁) ?_ fun _ _ he => he.elim
  rintro - w₂ ⟨hengaged₂, hw₂⟩
  refine Ends.bind (hbegun.ends (hlink.publish_within _) hengaged₂ hw₂) ?_ ?_
  · rintro - w₃ ⟨hengaged₃, hw₃⟩
    have htold : ∀ report : UpdateReport, plan.files.Lasts view
        (n.Told report.state report.failureKind report.failedPhase) := fun _ =>
      (n.stable_told _ _ _).lasts
    have hleft : plan.files.Lasts view fun w => n.Left rough w.desk.phase w := n.lasts_left
    refine Ends.mono (Tracing.ends_withSpan hlink plan.tracing _ _ hbegun htold hleft ?_ hengaged₃
      hw₃) ?_ ?_
    · exact fun _ w hengaged hw => n.ends_runPhases hp hlink a hengaged hw
    · exact fun _ _ h => h
    · rintro e w' ⟨hcuts, hengaged', h | h | ⟨hrough, report, h⟩⟩
      · exact ⟨hcuts, hengaged', .inl h⟩
      · exact ⟨hcuts, hengaged', h⟩
      · exact ⟨hcuts, hengaged', n.left_of_told hrough h⟩
  · exact fun e w' he => ⟨fun _ => he.1.2, he.2.1, .inl he.2.2⟩

/-- An ordinary fault that has left an attempt ends in a report. -/
theorem ends_attempt (hp : plan.files.Separate)
    (hlink : link.Manners plan.files view cuts rough) (a : Attempt)
    (hengaged : w.desk.engaged = true) (hw : n.begun w) :
    (Updater.attempt link plan a raw).Ends w
      (fun report w' => n.Told report.state report.failureKind report.failedPhase w' ∨
        report.state = .degradedNoReload ∧ report.failureKind = some .unexpected ∧
          ∃ phase, report.failedPhase = some phase ∧ n.Left rough phase w')
      (fun e w' => (e.interrupts = true ∧ cuts) ∧ ∃ phase, n.Left rough phase w') := by
  rw [Updater.attempt, ends_bind, ends_guarded]
  refine (n.ends_perform hp hlink a hengaged hw).mono ?_ ?_
  · exact fun report w' h => .inl h.2
  · rintro e w₁ ⟨hcuts, hengaged₁, h₁⟩
    split
    · next hi => exact ⟨⟨hi, hcuts hi⟩, _, h₁⟩
    · generalize hphase : w₁.desk.phase = phase at h₁
      have hleft : plan.files.Stable view (n.Left rough phase) := n.stable_left phase
      have hlog : ∀ log, n.Left rough phase { w₁ with log } := fun log =>
        hleft w₁ _ ((FilePaths.Kept.refl plan.files view w₁).aside w₁.desk log) h₁
      show (Updater.finishUnexpected link plan a e).Ends w₁ _ _
      rw [Updater.finishUnexpected, ends_bind, ends_desk, ends_bind, Attempt.sayFault,
        ends_record, hphase]
      refine Ends.mono (a.ends_finish hlink _ _ hleft.lasts hengaged₁ (hlog _)) ?_ ?_
      · rintro report w' ⟨-, hw', hstate, hkind, hfailed⟩
        exact .inr ⟨hstate, hkind, phase, hfailed, hw'⟩
      · exact fun e w' he => ⟨he.1, phase, he.2.2⟩

end Narrative

/-- Beginning an attempt makes only small choices of the host. -/
theorem Attempt.ends_start (hlink : link.Steady view) (p : FilePaths) (raw : Bytes) (w : World σ) :
    (Attempt.start link raw).Ends w (fun _ w' => w'.desk = w.desk ∧ p.Kept view w w')
      fun _ _ => False :=
  ⟨rfl, rfl, rfl, (hlink.now _).trans (hlink.freshId _), .refl w,
    (FilePaths.Kept.refl p view w).talk⟩

/-- An attempt on a free desk is told, or is left by a fault; if the fault is an
ordinary one, the report says in which phase. -/
theorem Narrative.ends_apply (n : Narrative link plan view cuts raw) (hp : plan.files.Separate)
    (hlink : link.Manners plan.files view cuts rough) (hfree : w.desk.engaged = false)
    (hw : n.begun w) :
    (Updater.apply link plan raw).Ends w
      (fun report w' => n.Told report.state report.failureKind report.failedPhase w' ∨
        report.state = .degradedNoReload ∧ report.failureKind = some .unexpected ∧
          ∃ phase, report.failedPhase = some phase ∧ n.Left rough phase w')
      (fun e w' => (e.interrupts = true ∧ cuts) ∧ ∃ phase, n.Left rough phase w') := by
  rw [Updater.apply]
  refine (Attempt.ends_start hlink.steady plan.files raw w).bind ?_ fun _ _ he => he.elim
  rintro a w₁ ⟨hdesk, hkept⟩
  rw [ends_bind, ends_desk, hdesk, hfree, if_neg (by simp), ends_bind, Updater.engage,
    ends_changeDesk]
  have hrelease : ∀ (w' : World σ) (desk : Desk), plan.files.Kept view w' { w' with desk } :=
    fun w' desk => (FilePaths.Kept.refl plan.files view w').aside desk w'.log
  -- giving the desk back changes nothing that is told
  refine ends_ensuring.mpr (Ends.mono (n.ends_attempt hp hlink a rfl ?_) ?_ ?_)
  · exact n.stable_begun w _ (hkept.aside _ _) hw
  · rintro report w' (h | ⟨hstate, hkind, phase, hfailed, h⟩)
    · exact .inl (n.stable_told _ _ _ w' _ (hrelease w' _) h)
    · exact .inr ⟨hstate, hkind, phase, hfailed, n.stable_left phase w' _ (hrelease w' _) h⟩
  · rintro e w' ⟨hcuts, phase, h⟩
    exact ⟨hcuts, phase, n.stable_left phase w' _ (hrelease w' _) h⟩

end HotSwap
