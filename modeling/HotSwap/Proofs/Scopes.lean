/-
Attempts by their transaction.

An attempt enters the transaction on its files at most once: after its candidate has
been enriched, and before its end is told.  Whatever is known of the transaction, and
of the telling around it, is then known of the attempt.

* `UpdateReport.Rejects`, `UpdateReport.Follows` — the reports of attempts that never
  entered their transaction, and of those whose transaction ended in some way;
* `Attempt.ends_attempt_scoped` — an attempt goes around its transaction, or through it.
-/
import HotSwap.Proofs.Frames
import HotSwap.Proofs.Interludes

namespace HotSwap

open Act

variable {σ α : Type} {link : Link σ} {plan : UpdatePlan} {w w' : World σ}

/-! ### Reports -/

namespace UpdateReport

/-- The report of an attempt that an ordinary fault has left. -/
def Unexpected (r : UpdateReport) : Prop :=
  r.state = .degradedNoReload ∧ r.failureKind = some .unexpected

/-- The report of an attempt whose candidate was rejected. -/
def Rejects (r : UpdateReport) : Prop :=
  r.state = .rejected ∧ r.failureKind = some .rejectedCandidate

/-- The report of an attempt whose transaction has ended. -/
def Follows (r : UpdateReport) (end_ : Except Fault Outcome) : Prop :=
  ∃ o, end_ = .ok o ∧ r.state = o.state ∧ r.failureKind = o.failureKind

end UpdateReport

/-- A failed phase of which the kind is given. -/
def Act.FailsAs (phase : Phase) (kind : FailureKind) (r : PhaseResult α) : Prop :=
  ∀ f, r.failed? = some f → f.phase = phase ∧ f.failure.kind = kind

namespace Attempt

/-- What catches ordinary faults is left by interrupts only. -/
private theorem ends_of_guarded {β : Type} {b : Act σ α} {f : Except Fault α → Act σ β}
    (hf : ∀ r w, (f r).Ends w (fun _ _ => True) fun e _ => e.interrupts = true) (w : World σ) :
    (b.guarded >>= f).Ends w (fun _ _ => True) fun e _ => e.interrupts = true := by
  rw [ends_bind, ends_guarded]
  refine .of_forall (fun x w₁ => hf (.ok x) w₁) fun e w₁ => ?_
  split
  · assumption
  · exact hf _ _

/-- A report says what the attempt came to, unless an interrupt comes instead. -/
theorem ends_finish_report (a : Attempt) (o : Outcome) (drained : Option DrainReport)
    (w : World σ) : (a.finish link plan o drained).Ends w
      (fun report _ => ∃ completedAt, report = a.report o drained completedAt)
      fun e _ => e.interrupts = true := by
  have hsaid : ∀ (event : String) (fields : List (String × Data)) (w : World σ),
      (Act.say logger .error event fields : Act σ Unit).Ends w (fun _ _ => True)
        fun e _ => e.interrupts = true := fun _ _ _ => trivial
  have hpublish : ∀ event w, (publish link event).Ends w (fun _ _ => True)
      fun e _ => e.interrupts = true := by
    refine fun event => ends_of_guarded fun answer w => ?_
    cases answer with
    | ok _ => trivial
    | error fault => exact hsaid _ _ w
  have hkeep : ∀ report w, (keep link plan report).Ends w (fun _ _ => True)
      fun e _ => e.interrupts = true := by
    intro report w
    rw [keep]
    split
    · refine ends_of_guarded (fun answer w => ?_) w
      cases answer with
      | ok _ => trivial
      | error fault => exact hsaid _ _ w
    · trivial
  have htold : ∀ (r : Record) (event : Event) (completedAt : Int) (w : World σ), (do
        record r
        publish link event
        keep link plan (a.report o drained completedAt)
        return a.report o drained completedAt).Ends w
      (fun report _ => ∃ completedAt, report = a.report o drained completedAt)
      fun e _ => e.interrupts = true := by
    intro r event completedAt w
    rw [ends_bind, ends_record]
    refine (hpublish event _).bind (fun _ _ _ => ?_) fun _ _ he => he
    refine (hkeep _ _).bind (fun _ _ _ => ?_) fun _ _ he => he
    exact ⟨completedAt, rfl⟩
  rw [finish, ends_bind, Link.time, ends_choose]
  dsimp only
  split
  · exact htold _ _ _ _
  · exact htold _ _ _ _

/-- A phase that fails is named, and so is the kind of its failure. -/
theorem ends_runPhase_failsAs (a : Attempt) (phase : Phase) (kind : FailureKind)
    (action : Act σ (Option α)) (w : World σ) :
    (a.runPhase link plan phase kind action).Ends w (fun r _ => FailsAs phase kind r)
      fun _ _ => True := by
  have haction : ∀ span w, (a.runAction link phase kind action span).Ends w
      (fun r _ => FailsAs phase kind r) fun _ _ => True := by
    refine fun span w => ends_bind_of_forall fun answer w₁ => ?_
    cases answer with
    | ok value => exact fun _ hf => by cases hf
    | error fault =>
      refine ends_bind_of_forall fun _ _ => ?_
      rintro f hf
      cases hf
      exact ⟨rfl, rfl⟩
  have hspan : ∀ w, (Tracing.withPhaseSpan link plan.tracing phase
      (a.runAction link phase kind action)).Ends w (fun r _ => FailsAs phase kind r)
      fun _ _ => True := by
    intro w
    rw [Tracing.withPhaseSpan, Tracing.withSpan]
    split
    · refine ends_bind_of_forall fun s w₁ => ends_ensuring.mpr ?_
      refine Ends.mono (ends_bind_of_forall fun _ w₂ => haction (some s) w₂) (fun r w₂ hr => ?_)
        fun _ w₂ _ => .of_forall (fun _ _ => trivial) fun _ _ => trivial
      exact .of_forall (fun _ _ => hr) fun _ _ => trivial
    · exact haction none w
  refine ends_bind_of_forall fun _ w₁ => ends_bind_of_forall fun _ w₂ => ?_
  refine (hspan w₂).bind (fun r w₃ hr => ?_) fun _ _ _ => trivial
  dsimp only
  split
  · exact ends_bind_of_forall fun _ w₄ => ends_bind_of_forall fun _ _ => hr
  · exact hr

/-! ### Around the transaction, or through it -/

variable {N : World σ → World σ → Prop} [Course N]
  {T : Except Fault Outcome → World σ → World σ → Prop} {a : Attempt}

/-- An attempt has gone around its transaction, or through it; then its report follows the
end of the transaction, unless that was a fault, or, if `rough`, something else has failed. -/
def Scoped (N : World σ → World σ → Prop) (T : Except Fault Outcome → World σ → World σ → Prop)
    (rough : Prop) (report : UpdateReport) (w w' : World σ) : Prop :=
  (N w w' ∧ (report.Rejects ∨ report.Unexpected)) ∨
    ∃ r, T r w w' ∧ (report.Follows r ∨ report.Unexpected ∧ (rough ∨ ∃ e, r = .error e))

/-- The same of an attempt that a fault has left. -/
def Cut (N : World σ → World σ → Prop) (T : Except Fault Outcome → World σ → World σ → Prop)
    (rough : Prop) (e : Fault) (w w' : World σ) : Prop :=
  N w w' ∨ ∃ r, T r w w' ∧ (e.interrupts = true ∨ rough ∨ ∃ e', r = .error e')

/-- Telling around a transaction, before or after it, goes with it. -/
structure Surrounds (N : World σ → World σ → Prop)
    (T : Except Fault Outcome → World σ → World σ → Prop) : Prop where
  before : ∀ {r w w' w''}, N w w' → T r w' w'' → T r w w''
  after : ∀ {r w w' w''}, T r w w' → N w' w'' → T r w w''

section

variable (hT : Surrounds N T) {rough : Prop} {report : UpdateReport} {e : Fault}
  {w'' : World σ}

include hT

theorem Scoped.before (h : N w w') (h' : Scoped N T rough report w' w'') :
    Scoped N T rough report w w'' :=
  h'.imp (And.imp_left (Course.trans h)) fun ⟨r, hr, hreport⟩ => ⟨r, hT.before h hr, hreport⟩

theorem Scoped.after (h : Scoped N T rough report w w') (h' : N w' w'') :
    Scoped N T rough report w w'' :=
  h.imp (And.imp_left (Course.trans · h')) fun ⟨r, hr, hreport⟩ => ⟨r, hT.after hr h', hreport⟩

theorem Cut.before (h : N w w') (h' : Cut N T rough e w' w'') : Cut N T rough e w w'' :=
  h'.imp (Course.trans h) fun ⟨r, hr, he⟩ => ⟨r, hT.before h hr, he⟩

/-- A fault of the telling afterwards takes the place of an earlier one. -/
theorem Cut.after {e' : Fault} (h : Cut N T rough e w w') (h' : N w' w'')
    (he : e' = e ∨ e'.interrupts = true ∨ rough) : Cut N T rough e' w w'' := by
  rcases h with h | ⟨r, hr, hcut⟩
  · exact .inl (Course.trans h h')
  · refine .inr ⟨r, hT.after hr h', ?_⟩
    rcases he with rfl | he | he
    · exact hcut
    · exact .inl he
    · exact .inr (.inl he)

/-- So does one that comes after the report. -/
theorem Scoped.cut (h : Scoped N T rough report w w') (h' : N w' w'')
    (he : e.interrupts = true ∨ rough) : Cut N T rough e w w'' := by
  rcases h with ⟨h, -⟩ | ⟨r, hr, -⟩
  · exact .inl (Course.trans h h')
  · exact .inr ⟨r, hT.after hr h', he.imp_right .inl⟩

omit hT

variable (htold : a.Told link N (fun _ => True) (· = .enriching))
  (henrich : ∀ raw, (link.ask (.enrich raw)).Within N fun _ => True)
  (hfinish : ∀ o drained, (a.finish link plan o drained).Within N fun _ => True)

include htold henrich in
/-- The enriching phase fails for a rejected candidate only. -/
theorem ends_enriching (raw : Bytes) (w : World σ) :
    (a.runPhase link plan .enriching .rejectedCandidate (enrich link plan raw)).Ends w
      (fun r w' => N w w' ∧ FailsAs .enriching .rejectedCandidate r) fun _ w' => N w w' := by
  have henriched : (enrich link plan raw).Within N fun _ => True := by
    rw [enrich]
    split
    · refine (henrich raw).caught.bind fun answer => ?_
      rcases answer with fault | content | typeName
      · exact within_raise trivial
      · exact within_pure _
      · exact within_raise trivial
    · exact within_pure _
  exact ((htold.runPhase_within rfl absorbs_self henriched _ w).and
    (a.ends_runPhase_failsAs _ _ _ w)).mono (fun _ _ h => h) fun _ _ he => he.1.2

omit [Course N] in
include hfinish in
theorem ends_finish_within (o : Outcome) (drained : Option DrainReport) (w : World σ) :
    (a.finish link plan o drained).Ends w (fun report w' => N w w' ∧ report.state = o.state ∧
      report.failureKind = o.failureKind) fun e w' => N w w' ∧ e.interrupts = true := by
  refine ((hfinish o drained w).and (a.ends_finish_report o drained w)).mono ?_ ?_
  · rintro report w' ⟨hN, completedAt, rfl⟩
    exact ⟨hN, rfl, rfl⟩
  · exact fun _ _ he => ⟨he.1.2, he.2⟩

variable {raw : Bytes} (htransaction : ∀ rendered w,
    (FileSet.transaction link plan.files (a.commit link plan raw rendered)).Ends w
      (fun o w' => T (.ok o) w w') fun e w' => T (.error e) w w')

include hT htold henrich hfinish htransaction

theorem ends_runPhases_scoped (w : World σ) : (a.runPhases link plan raw).Ends w
    (fun report w' => Scoped N T rough report w w') fun e w' => Cut N T rough e w w' := by
  rw [runPhases]
  refine (ends_enriching htold henrich raw w).bind ?_ fun _ _ he => .inl he
  rintro enriched w₁ ⟨h₁, hfails⟩
  cases hfailed : enriched.failed? with
  | some failed =>
    -- a rejected candidate: the transaction is not entered
    dsimp only
    rw [ends_bind, say, Act.say, ends_record, ends_bind, ends_desk]
    refine (ends_finish_within hfinish _ _ _).mono ?_ fun _ _ he =>
      .inl (Course.trans h₁ (Course.trans (Course.log w₁ _) he.1))
    rintro report w' ⟨h₂, hstate, hkind⟩
    refine .inl ⟨Course.trans h₁ (Course.trans (Course.log w₁ _) h₂), .inl ⟨hstate, ?_⟩⟩
    rw [hkind]
    exact congrArg some (hfails failed hfailed).2
  | none =>
    dsimp only
    cases enriched.value with
    | none => exact .inl h₁
    | some rendered =>
      refine (htransaction rendered w₁).bind ?_ fun e _ he =>
        .inr ⟨.error e, hT.before h₁ he, .inr (.inr ⟨e, rfl⟩)⟩
      intro outcome w₂ h₂
      rw [ends_bind, ends_desk]
      refine (ends_finish_within hfinish _ _ _).mono ?_ fun _ _ he =>
        .inr ⟨.ok outcome, hT.after (hT.before h₁ h₂) he.1, .inl he.2⟩
      rintro report w' ⟨h₃, hstate, hkind⟩
      exact .inr ⟨.ok outcome, hT.after (hT.before h₁ h₂) h₃, .inl ⟨outcome, rfl, hstate, hkind⟩⟩

variable (hclose : plan.tracing = true → ∀ s, (link.ask (.closeSpan s)).Within N
    fun e => e.interrupts = true ∨ rough)

include hclose

theorem ends_perform_scoped (w : World σ) : (a.perform link plan raw).Ends w
    (fun report w' => Scoped N T rough report w w') fun e w' => Cut N T rough e w w' := by
  rw [perform]
  refine (within_record (R := N) (F := fun _ => False) w).bind (fun _ w₁ h₁ => ?_)
    fun _ _ he => he.1.elim
  refine (within_record (R := N) (F := fun _ => False) w₁).bind (fun _ w₂ h₂ => ?_)
    fun _ _ he => he.1.elim
  have h₁₂ := Course.trans h₁ h₂
  refine (htold.publish_within (.updateStarted a.id a.digest a.size) rfl rfl
    (fun _ hphase => by cases hphase) w₂).bind (fun _ w₃ h₃ => ?_)
    fun _ _ he => .inl (Course.trans h₁₂ he.2)
  have h₁₃ := Course.trans h₁₂ h₃
  have hphases : ∀ w, (a.runPhases link plan raw).Ends w
      (fun report w' => Scoped N T rough report w w') fun e w' => Cut N T rough e w w' :=
    ends_runPhases_scoped hT htold henrich hfinish htransaction
  rw [Tracing.withUpdateSpan, Tracing.withSpan]
  split
  · next htracing =>
    refine (htold.openSpan _ w₃).bind (fun s w₄ h₄ => ?_) fun _ _ he =>
      .inl (Course.trans h₁₃ he.2)
    have h₁₄ := Course.trans h₁₃ h₄
    refine ends_ensuring.mpr (Ends.bind (Tracing.annotate_within s (htold.annotateSpan s) _ w₄)
      (fun _ w₅ h₅ => (hphases w₅).mono ?_ ?_) ?_)
    · -- what is left is closing the span, which only counts if it fails
      intro report w₆ h₆
      have h₁₆ := h₆.before hT (Course.trans h₁₄ h₅)
      exact (hclose htracing s w₆).mono (fun _ _ h₇ => h₁₆.after hT h₇) fun _ _ he =>
        h₁₆.cut hT he.2 he.1
    · intro e w₆ h₆
      have h₁₆ := h₆.before hT (Course.trans h₁₄ h₅)
      exact (hclose htracing s w₆).mono (fun _ _ h₇ => h₁₆.after hT h₇ (.inl rfl)) fun _ _ he =>
        h₁₆.after hT he.2 (.inr he.1)
    · intro e w₅ he
      have h₁₅ := Course.trans h₁₄ he.2
      exact (htold.closeSpan s w₅).mono (fun _ _ h₆ => .inl (Course.trans h₁₅ h₆)) fun _ _ he' =>
        .inl (Course.trans h₁₅ he'.2)
  · exact (hphases w₃).mono (fun _ _ h => h.before hT h₁₃) fun _ _ he =>
      he.before hT h₁₃

/-- An attempt goes around its transaction or through it, whichever way it ends. -/
theorem ends_attempt_scoped (w : World σ) : (Updater.attempt link plan a raw).Ends w
    (fun report w' => Scoped N T rough report w w') fun e w' => Cut N T rough e w w' := by
  rw [Updater.attempt, ends_bind, ends_guarded]
  refine (ends_perform_scoped hT htold henrich hfinish htransaction hclose w).mono
    (fun _ _ h => h) fun e w₁ h₁ => ?_
  split
  · exact h₁
  · next hordinary =>
    show (Updater.finishUnexpected link plan a e).Ends w₁ _ _
    rw [Updater.finishUnexpected, ends_bind, ends_desk, ends_bind, sayFault, ends_record]
    refine (ends_finish_within hfinish _ _ _).mono ?_ fun _ _ he =>
      h₁.after hT (Course.trans (Course.log w₁ _) he.1) (.inr (.inl he.2))
    rintro report w' ⟨h₂, hstate, hkind⟩
    have hend := Course.trans (Course.log w₁ _) h₂
    rcases h₁ with h | ⟨r, hr, hcut⟩
    · exact .inl ⟨Course.trans h hend, .inr ⟨hstate, hkind⟩⟩
    · have hwhy : rough ∨ ∃ e', r = .error e' := hcut.resolve_left hordinary
      exact .inr ⟨r, hT.after hr hend, .inr ⟨⟨hstate, hkind⟩, hwhy⟩⟩

end

end Attempt
end HotSwap
