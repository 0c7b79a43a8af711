/-
One phase of an attempt.

Around its action a phase tells that it starts, opens a span, tells how the action
ended and closes the span; each of these asks the host, and each can end the phase
in its own way.  What holds of the files does not change by that.

* `World.IsIn` — an attempt is running, in a phase;
* `FilePaths.Stable`, `FilePaths.Lasts` — assertions that nothing between the turns can
  break;
* `Link.Manners` — how the requests around an action behave;
* `Turn` — what an action makes of an assertion;
* `Tracing.ends_withSpan` — a body inside a span;
* `Attempt.ends_runPhase` — what the phase makes of it.

Design notes: a fault that leaves the phase early, before its action, finds the
assertion from before.  Faults that leave it later are *rough*; they come from
interrupts, or from a tracer that fails when a span is closed or marked.
-/
import HotSwap.Proofs.Discretion

namespace HotSwap

open Act

variable {σ β α : Type} {p : FilePaths} {view : σ → β} {link : Link σ} {w w' : World σ}
  {phase : Phase} {cuts rough : Prop} {F : Fault → Prop}

/-- An attempt is running, in a phase. -/
def World.IsIn (w : World σ) (phase : Phase) : Prop :=
  w.desk.engaged = true ∧ w.desk.phase = phase

theorem World.IsIn.congr (h : w.IsIn phase) (hdesk : w'.desk = w.desk) : w'.IsIn phase := by
  rw [IsIn, hdesk]
  exact h

/-! ### Stable assertions -/

namespace FilePaths

/-- Nothing that keeps the files can break the assertion. -/
def Stable (p : FilePaths) (view : σ → β) (I : World σ → Prop) : Prop :=
  ∀ w w', p.Kept view w w' → I w → I w'

variable {I J : World σ → Prop}

theorem stable_const (p : FilePaths) (view : σ → β) (P : Prop) :
    p.Stable view fun _ : World σ => P := fun _ _ _ => id

theorem Stable.and (hI : p.Stable view I) (hJ : p.Stable view J) :
    p.Stable view fun w => I w ∧ J w := fun w w' hw h =>
  ⟨hI w w' hw h.1, hJ w w' hw h.2⟩

theorem Stable.or (hI : p.Stable view I) (hJ : p.Stable view J) :
    p.Stable view fun w => I w ∨ J w := fun w w' hw =>
  Or.imp (hI w w' hw) (hJ w w' hw)

/-- Nothing between the turns of a running attempt can break the assertion, which
may look at the phase as well. -/
def Lasts (p : FilePaths) (view : σ → β) (A : World σ → Prop) : Prop :=
  ∀ w w', w.desk.engaged = true → p.Discreet view w w' → A w → A w'

theorem Stable.lasts (hI : p.Stable view I) : p.Lasts view I := fun w w' hengaged h =>
  hI w w' (h hengaged).2.2

theorem Stable.lasts_in (hI : p.Stable view I) (phase : Phase) :
    p.Lasts view fun w => w.IsIn phase ∧ I w := by
  rintro w w' hengaged h ⟨⟨-, hphase⟩, hw⟩
  obtain ⟨hengaged', hphase', hkept⟩ := h hengaged
  exact ⟨⟨hengaged', hphase'.trans hphase⟩, hI w w' hkept hw⟩

/-- A lasting assertion holds after an act that stays within the frame. -/
theorem Lasts.ends {A : World σ → Prop} (hA : p.Lasts view A) {a : Act σ α}
    (ha : a.Within (p.Discreet view) F) (hengaged : w.desk.engaged = true) (hw : A w) :
    a.Ends w (fun _ w' => w'.desk.engaged = true ∧ A w')
      (fun e w' => F e ∧ w'.desk.engaged = true ∧ A w') :=
  (ha w).mono (fun _ w' h => ⟨(h hengaged).1, hA w w' hengaged h hw⟩)
    fun _ w' he => ⟨he.1, (he.2 hengaged).1, hA w w' hengaged he.2 hw⟩

end FilePaths

/-! ### Manners -/

/-- Requests that are quiet stay within the frame; an interrupt comes only if
`cuts`, and only if it is `rough` here does anything come of closing a span or of
noting a fault on it. -/
structure Link.Manners (link : Link σ) (p : FilePaths) (view : σ → β) (cuts rough : Prop) :
    Prop where
  steady : link.Steady view
  keeps : link.Keeps (p.Discreet view) (fun e => e.interrupts = true → cuts)
    fun r => r.isQuiet = true
  closeSpan : ∀ s, (link.ask (.closeSpan s)).Within (p.Discreet view)
    fun e => (e.interrupts = true → cuts) ∧ rough
  recordFault : ∀ s fault, (link.ask (.recordFault s fault)).Within (p.Discreet view)
    fun e => (e.interrupts = true → cuts) ∧ rough
  rough_of_cuts : cuts → rough

namespace Link.Manners

variable (h : link.Manners p view cuts rough)

include h in
theorem publish_within (e : Event) : (Attempt.publish link e).Within (p.Discreet view)
    fun e => e.interrupts = true ∧ cuts :=
  (Attempt.publish_within e (h.keeps.ask (.publish e) rfl)).weaken fun _ he => ⟨he.2, he.1 he.2⟩

include h in
theorem keep_within (plan : UpdatePlan) (report : UpdateReport) :
    (Attempt.keep link plan report).Within (p.Discreet view)
      fun e => e.interrupts = true ∧ cuts :=
  (Attempt.keep_within plan report (h.keeps.ask _ rfl)).weaken fun _ he => ⟨he.2, he.1 he.2⟩

include h in
theorem recordFault_within (span : Option Span) (fault : Fault) :
    (Tracing.recordFault link span fault).Within (p.Discreet view)
      fun e => (e.interrupts = true → cuts) ∧ rough := by
  cases span with
  | none => exact within_pure _
  | some s => exact h.recordFault s fault

include h in
theorem failPhase_within (a : Attempt) (phase : Phase) (kind : FailureKind) (span : Option Span)
    (fault : Fault) : (a.failPhase link phase kind span fault).Within (p.Discreet view)
      fun e => (e.interrupts = true → cuts) ∧ rough :=
  (h.recordFault_within span fault).bind fun _ => within_record.bind fun _ =>
    (h.publish_within _).weaken fun _ he => ⟨fun _ => he.2, h.rough_of_cuts he.2⟩

end Link.Manners

/-! ### Turns -/

/-- From `I` the action ends in `P`; or in `B`, with an ordinary fault; or in `X`,
interrupted. -/
def Turn (action : Act σ α) (phase : Phase) (cuts : Prop) (I : World σ → Prop)
    (P : α → World σ → Prop) (B X : World σ → Prop) : Prop :=
  ∀ w : World σ, w.IsIn phase → I w → action.Ends w (fun v w' => w'.IsIn phase ∧ P v w')
    fun e w' => (e.interrupts = true → cuts) ∧ w'.IsIn phase ∧
      if e.interrupts then X w' else B w'

/-- An action that stays within the frame leads to whatever follows from before. -/
theorem turn_of_within {action : Act σ α} {I P B X : World σ → Prop}
    (haction : action.Within (p.Discreet view) fun e => e.interrupts = true → cuts)
    (hI : p.Stable view I) (hP : ∀ w, I w → P w) (hB : ∀ w, I w → B w) (hX : ∀ w, I w → X w) :
    Turn action phase cuts I (fun _ => P) B X := by
  intro w hin hw
  refine ((hI.lasts_in phase).ends haction hin.1 ⟨hin, hw⟩).mono ?_ ?_
  · exact fun _ w' h => ⟨h.2.1, hP w' h.2.2⟩
  · rintro e w' ⟨hcuts, -, hin', hw'⟩
    refine ⟨hcuts, hin', ?_⟩
    split
    · exact hX w' hw'
    · exact hB w' hw'

/-- Two assertions take a turn together; the second may rely on the first. -/
theorem Turn.and {action : Act σ α} {I J B B' X X' : World σ → Prop} {P Q : α → World σ → Prop}
    (h : Turn action phase cuts I P B X)
    (h' : ∀ w : World σ, w.IsIn phase → I w → J w → action.Ends w Q
      fun e w' => if e.interrupts then X' w' else B' w') :
    Turn action phase cuts (fun w => I w ∧ J w) (fun v w => P v w ∧ Q v w)
      (fun w => B w ∧ B' w) fun w => X w ∧ X' w := by
  rintro w hin ⟨hI, hJ⟩
  refine ((h w hin hI).and (h' w hin hI hJ)).mono ?_ ?_
  · rintro v w' ⟨⟨hin', hP⟩, hQ⟩
    exact ⟨hin', hP, hQ⟩
  · rintro e w' ⟨⟨hcuts, hin', he⟩, he'⟩
    refine ⟨hcuts, hin', ?_⟩
    split
    · next hi =>
      rw [if_pos hi] at he he'
      exact ⟨he, he'⟩
    · next hi =>
      rw [if_neg hi] at he he'
      exact ⟨he, he'⟩

/-- How a phase has ended: with `P` for its value, or with `B` for its failure. -/
def PhaseResult.Says (r : PhaseResult α) (phase : Phase) (kind : FailureKind)
    (P : Option α → World σ → Prop) (B : World σ → Prop) (w : World σ) : Prop :=
  r.state = phase ∧
    match r.failure with
    | none => P r.value w
    | some f => f.kind = kind ∧ B w

/-! ### Spans -/

/-- Inside a span a body runs as outside; a fault may come before it, and a rough
one after it. -/
theorem Tracing.ends_withSpan {A Bad : World σ → Prop} {Good : α → World σ → Prop}
    {body : Option Span → Act σ α} (hlink : link.Manners p view cuts rough) (tracing : Bool)
    (name : String) (facts : List (String × Data)) (hA : p.Lasts view A)
    (hGood : ∀ x, p.Lasts view (Good x)) (hBad : p.Lasts view Bad)
    (hbody : ∀ span w, w.desk.engaged = true → A w → (body span).Ends w
      (fun x w' => w'.desk.engaged = true ∧ Good x w')
      (fun e w' => (e.interrupts = true → cuts) ∧ w'.desk.engaged = true ∧ Bad w'))
    (hengaged : w.desk.engaged = true) (hw : A w) :
    (withSpan link tracing name facts body).Ends w
      (fun x w' => w'.desk.engaged = true ∧ Good x w')
      (fun e w' => (e.interrupts = true → cuts) ∧ w'.desk.engaged = true ∧
        (A w' ∨ Bad w' ∨ rough ∧ ∃ x, Good x w')) := by
  rw [withSpan]
  split
  · refine (hA.ends (hlink.keeps.ask (.openSpan name) rfl) hengaged hw).bind ?_ ?_
    · rintro s w₁ ⟨hengaged₁, hw₁⟩
      refine ends_ensuring.mpr (Ends.bind (hA.ends (annotate_within s (fun key value =>
        hlink.keeps.ask (.annotateSpan s key value) rfl) facts) hengaged₁ hw₁) ?_ ?_)
      · rintro - w₂ ⟨hengaged₂, hw₂⟩
        refine (hbody (some s) w₂ hengaged₂ hw₂).mono ?_ ?_
        · -- the body has its value; only closing the span can still fail
          rintro x w₃ ⟨hengaged₃, hx⟩
          refine ((hGood x).ends (hlink.closeSpan s) hengaged₃ hx).mono (fun _ _ => id) ?_
          rintro e w' ⟨⟨hcuts, hrough⟩, hengaged', hx'⟩
          exact ⟨hcuts, hengaged', .inr (.inr ⟨hrough, x, hx'⟩)⟩
        · -- a fault in closing the span takes the place of the one from the body
          rintro e w₃ ⟨hcuts, hengaged₃, he⟩
          refine (hBad.ends (hlink.closeSpan s) hengaged₃ he).mono ?_ ?_
          · exact fun _ w' h => ⟨hcuts, h.1, .inr (.inl h.2)⟩
          · exact fun e' w' h => ⟨h.1.1, h.2.1, .inr (.inl h.2.2)⟩
      · rintro e w₂ ⟨hcuts, hengaged₂, hw₂⟩
        refine (hA.ends (hlink.closeSpan s) hengaged₂ hw₂).mono ?_ ?_
        · exact fun _ w' h => ⟨hcuts, h.1, .inl h.2⟩
        · exact fun e' w' h => ⟨h.1.1, h.2.1, .inl h.2.2⟩
    · -- the span cannot be opened: the body has not begun
      rintro e w' ⟨hcuts, hengaged', hw'⟩
      exact ⟨hcuts, hengaged', .inl hw'⟩
  · exact (hbody none w hengaged hw).mono (fun _ _ => id) fun e w' he =>
      ⟨he.1, he.2.1, .inr (.inl he.2.2)⟩

/-! ### Phases -/

namespace Attempt

variable {action : Act σ (Option α)} {kind : FailureKind} {I B X : World σ → Prop}
  {P : Option α → World σ → Prop} {plan : UpdatePlan}

theorem says_stable (hP : ∀ v, p.Stable view (P v)) (hB : p.Stable view B) (r : PhaseResult α) :
    p.Stable view (r.Says phase kind P B) := by
  rintro w w' hkept ⟨hstate, h⟩
  refine ⟨hstate, ?_⟩
  split at h
  · exact hP _ w w' hkept h
  · exact ⟨h.1, hB w w' hkept h.2⟩

theorem says_ends {r : PhaseResult α} (h : r.Says phase kind P B w) : (∃ v, P v w) ∨ B w := by
  obtain ⟨-, h⟩ := h
  split at h
  · exact .inl ⟨_, h⟩
  · exact .inr h.2

/-- The action of a phase; what then fails is rough. -/
theorem ends_runAction (a : Attempt) (hlink : link.Manners p view cuts rough)
    (hturn : Turn action phase cuts I P B X) (hB : p.Stable view B) (span : Option Span)
    (hin : w.IsIn phase) (hw : I w) :
    (a.runAction link phase kind action span).Ends w
      (fun r w' => w'.IsIn phase ∧ r.Says phase kind P B w')
      (fun e w' => (e.interrupts = true → cuts) ∧ w'.IsIn phase ∧ rough ∧ (B w' ∨ X w')) := by
  rw [runAction, ends_bind, ends_guarded]
  refine (hturn w hin hw).mono ?_ ?_
  · exact fun v w₁ h => ⟨h.1, rfl, h.2⟩
  · rintro e w₁ ⟨hcuts, hin₁, he⟩
    split
    · next hi =>
      rw [if_pos hi] at he
      exact ⟨hcuts, hin₁, hlink.rough_of_cuts (hcuts hi), .inr he⟩
    · next hi =>
      rw [if_neg hi] at he
      -- an ordinary fault is told about and becomes the result
      refine ((hB.lasts_in phase).ends (hlink.failPhase_within a phase kind span e) hin₁.1
        ⟨hin₁, he⟩).bind ?_ ?_
      · rintro - w₂ ⟨-, hin₂, hw₂⟩
        exact ⟨hin₂, rfl, rfl, hw₂⟩
      · rintro e' w₂ ⟨⟨hcuts', hrough⟩, -, hin₂, hw₂⟩
        exact ⟨hcuts', hin₂, hrough, .inl hw₂⟩

/-- A phase leaves `I` by its action, or early; faults that leave it later are
rough. -/
theorem ends_runPhase (a : Attempt) (hlink : link.Manners p view cuts rough)
    (hturn : Turn action phase cuts I P B X) (hI : p.Stable view I)
    (hP : ∀ v, p.Stable view (P v)) (hB : p.Stable view B) (hX : p.Stable view X)
    (hengaged : w.desk.engaged = true) (hw : I w) :
    (a.runPhase link plan phase kind action).Ends w
      (fun r w' => w'.IsIn phase ∧ r.Says phase kind P B w')
      (fun e w' => (e.interrupts = true → cuts) ∧ w'.IsIn phase ∧
        (I w' ∨ rough ∧ ((∃ v, P v w') ∨ B w' ∨ X w'))) := by
  let A := fun w : World σ => w.IsIn phase ∧ I w
  let Bad := fun w : World σ => w.IsIn phase ∧ rough ∧ (B w ∨ X w)
  let Good := fun (r : PhaseResult α) (w : World σ) => w.IsIn phase ∧ r.Says phase kind P B w
  have hA : p.Lasts view A := hI.lasts_in phase
  have hBad : p.Lasts view Bad := ((p.stable_const view rough).and (hB.or hX)).lasts_in phase
  have hGood : ∀ r, p.Lasts view (Good r) := fun r => (says_stable hP hB r).lasts_in phase
  rw [runPhase, ends_bind, ends_changeDesk]
  -- entering the phase changes nothing that the assertion looks at
  generalize hw₁ : ({ w with desk := { w.desk with phase } } : World σ) = w₁
  have hA₁ : A w₁ := by
    rw [← hw₁]
    exact ⟨⟨hengaged, rfl⟩, hI w _ ((FilePaths.Kept.refl p view w).aside _ _) hw⟩
  refine (hA.ends (hlink.publish_within _) hA₁.1.1 hA₁).bind ?_ ?_
  · rintro - w₂ ⟨hengaged₂, hA₂⟩
    refine (Tracing.ends_withSpan hlink plan.tracing _ _ hA hGood hBad ?_ hengaged₂ hA₂).bind ?_ ?_
    · intro span w hengaged hw
      refine (a.ends_runAction hlink hturn hB span hw.1 hw.2).mono ?_ ?_
      · exact fun r w' h => ⟨h.1.1, h⟩
      · exact fun e w' h => ⟨h.1, h.2.1.1, h.2⟩
    · rintro r w₃ ⟨hengaged₃, hr⟩
      dsimp only
      split
      · have htell : (do
            a.say .debug "Phase completed" [("phase", .text phase.text)]
            publish link (.phaseCompleted a.id phase)).Within (p.Discreet view)
              fun e => e.interrupts = true ∧ cuts :=
          within_record.bind fun _ => hlink.publish_within _
        refine ((hGood r).ends htell hengaged₃ hr).bind ?_ ?_
        · exact fun _ w₄ h => h.2
        · rintro e w' ⟨⟨-, hcuts⟩, -, h⟩
          refine ⟨fun _ => hcuts, h.1, .inr ⟨hlink.rough_of_cuts hcuts, ?_⟩⟩
          exact (says_ends h.2).imp (fun h => h) .inl
      · exact hr
    · rintro e w' ⟨hcuts, -, hend⟩
      rcases hend with h | h | ⟨hrough, r, h⟩
      · exact ⟨hcuts, h.1, .inl h.2⟩
      · exact ⟨hcuts, h.1, .inr ⟨h.2.1, .inr h.2.2⟩⟩
      · exact ⟨hcuts, h.1, .inr ⟨hrough, (says_ends h.2).imp (fun h => h) .inl⟩⟩
  · rintro e w' ⟨⟨-, hcuts⟩, -, h⟩
    exact ⟨fun _ => hcuts, h.1, .inl h.2⟩

end Attempt
end HotSwap
