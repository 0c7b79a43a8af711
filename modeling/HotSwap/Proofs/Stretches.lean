/-
The long stretches of an update stay within a frame.

Between its turns an update asks the host and tells its log, many times over.  If
each single request stays within a relation of worlds, then so does the whole
stretch, however it ends.

* `Link.Keeps` — the requests of a kind stay within a relation;
* `pollUntil_within` — polling does, if each poll does;
* `drain_within`, `loadFlow_within`, `settle_within`, `issues_within` — the stretches
  of the drain and of the reload do;
* `drain_within_of_loop`, `validateAndStart_within_of_loop` — the same, where only their loops
  stand out;
* `publish_within`, `keep_within`, `finish_within` — telling how an update goes does.
-/
import HotSwap.Proofs.Chronicle
import HotSwap.Proofs.Ends
import HotSwap.Update.Attempt

namespace HotSwap

open Act

variable {σ α : Type} {R N : World σ → World σ → Prop} {F : Fault → Prop}
  {S : Request → Prop} {link : Link σ}

/-- Requests of a kind stay within `R` and raise faults of `F` only; so do the small
choices of the host. -/
structure Link.Keeps (link : Link σ) (R : World σ → World σ → Prop) (F : Fault → Prop)
    (S : Request → Prop) : Prop where
  ask : ∀ r, S r → (link.ask r).Within R F
  newId : link.newId.Within R F
  time : link.time.Within R F

theorem Link.Keeps.mono {S' : Request → Prop} (h : link.Keeps R F S) (hS : ∀ r, S' r → S r) :
    link.Keeps R F S' where
  ask r hr := h.ask r (hS r hr)
  newId := h.newId
  time := h.time

/-! ### Polling -/

section

variable [Frame R]

theorem toldToStop_within (listens : Bool) : (toldToStop listens : Act σ Bool).Within R F :=
  (within_look _).bind fun _ => within_pure _

/-- A poll ends with what its value comes to, or with its fault, unless that is one that asks
for another poll and the loop has not been told to stop. -/
theorem ends_pollOnce {listens : Bool} {ask : Act σ α} {settled : α → Act σ Bool} {poll : Nat}
    {w : World σ} {P : Option (Option (Residual α)) → World σ → Prop}
    {E : Fault → World σ → Prop} :
    (pollOnce listens ask settled poll).Ends w P E ↔
      ask.Ends w (fun value w' => (weigh listens settled poll value).Ends w' P E)
        fun e w' => if (e.asksAgain && !(listens && w'.desk.cancelled)) = true then P none w'
          else E e w' := by
  rw [pollOnce, ends_bind, ends_outcome]
  refine iff_of_eq (congrArg _ (funext fun e => funext fun w' => ?_))
  dsimp only
  rw [ends_bind, toldToStop, ends_bind, ends_desk, ends_pure]
  split
  · rfl
  · rfl

theorem weigh_within (listens : Bool) {settled : α → Act σ Bool}
    (hsettled : ∀ x, (settled x).Within R F) (poll : Nat) (value : α) :
    (weigh listens settled poll value).Within R F := by
  refine (hsettled value).bind fun done => ?_
  split
  · exact within_pure _
  · refine (toldToStop_within listens).bind fun told => ?_
    split
    · exact within_pure _
    · exact within_pure _

theorem pollOnce_within (listens : Bool) {ask : Act σ α} {settled : α → Act σ Bool}
    (hask : ask.Within R F) (hsettled : ∀ x, (settled x).Within R F) (poll : Nat) :
    (pollOnce listens ask settled poll).Within R F := fun w => by
  refine ends_pollOnce.mpr ((hask w).mono ?_ ?_)
  · intro value w' hw
    exact (weigh_within listens hsettled poll value w').mono (fun _ _ => Frame.trans hw)
      fun _ _ he => ⟨he.1, Frame.trans hw he.2⟩
  · intro e w' he
    split
    · exact he.2
    · exact he

theorem pollFrom_within (hpause : ∀ seconds, (link.ask (.pause seconds)).Within R F)
    (budget : Budget) (listens : Bool) {ask : Act σ α} {settled : α → Act σ Bool}
    (hask : ask.Within R F) (hsettled : ∀ x, (settled x).Within R F) (left poll : Nat) :
    (pollFrom link budget listens ask settled left poll).Within R F := by
  -- the induction is on the polls that are left
  induction left generalizing poll with
  | zero =>
    rw [pollFrom]
    refine hask.bind fun value => (hsettled value).bind fun done => ?_
    split
    · exact within_pure _
    · exact (toldToStop_within listens).bind fun _ => within_pure _
  | succ left ih =>
    rw [pollFrom]
    refine (pollOnce_within listens hask hsettled poll).bind fun answer => ?_
    cases answer with
    | some answer => exact within_pure _
    | none => exact within_say.bind fun _ => (hpause _).bind fun _ => ih (poll + 1)

theorem pollUntil_within (hpause : ∀ seconds, (link.ask (.pause seconds)).Within R F)
    (budget : Budget) (listens : Bool) {ask : Act σ α} {settled : α → Act σ Bool}
    (hask : ask.Within R F) (hsettled : ∀ x, (settled x).Within R F) :
    (pollUntil link budget listens ask settled).Within R F :=
  pollFrom_within hpause budget listens hask hsettled budget.maxRetries 1

end

section

variable [Course R]

/-! ### Bringing the flow to rest -/

namespace Drain

theorem publish_within (e : Event) (h : (link.ask (.publish e)).Within R F) :
    (publish link e).Within R F := by
  refine h.caught.bind fun answer => ?_
  cases answer with
  | ok _ => exact within_pure _
  | error fault => exact within_say

theorem identifiers_within (h : ∀ c, (link.ask (.componentIdentifier c)).Within R F)
    (cs : List Component) : (identifiers link cs).Within R F := by
  induction cs with
  | nil => exact within_pure _
  | cons c cs ih =>
    rw [identifiers]
    exact (h c).bind fun (_ : String) => ih.bind fun _ => within_pure _

theorem stopEach_within (h : ∀ id, (link.ask (.stopComponent id)).Within R F)
    (ids : List String) : (stopEach link ids).Within R F := by
  induction ids with
  | nil => exact within_pure _
  | cons id ids ih =>
    rw [stopEach]
    refine (h id).caught.bind fun answer => ?_
    cases answer with
    | ok _ => exact ih.bind fun stopped => within_pure _
    | error fault => exact within_say.bind fun _ => ih

variable (hlink : link.Keeps R F fun r => r.isDrain = true ∧ r.isLooped = false)

include hlink in
theorem classify_within : (classify link).Within R F := by
  refine (hlink.ask .processors ⟨rfl, rfl⟩).bind fun (processors : List Component) => ?_
  refine (identifiers_within (fun c => hlink.ask _ ⟨rfl, rfl⟩) processors).bind fun components => ?_
  exact (hlink.ask .connections ⟨rfl, rfl⟩).bind fun (_ : List Connection) => within_pure _

include hlink in
theorem stopSources_within : (stopSources link).Within R F := by
  refine (classify_within hlink).caught.bind fun answer => ?_
  cases answer with
  | error fault => exact within_say.bind fun _ => within_pure _
  | ok ids =>
    refine (stopEach_within (fun id => hlink.ask _ ⟨rfl, rfl⟩) ids).bind fun stopped => ?_
    exact within_say.bind fun _ => within_pure _

theorem askQueued_within (hqueued : (link.ask .isDataQueued).Within R F) :
    (askQueued link).Within R F :=
  Within.bind (fun w => Course.polls w _) fun _ => hqueued

omit [Course R] in
/-- Waiting until nothing is queued stays within what the loop stays within. -/
theorem awaitEmpty_within [Course N] (hNR : Absorbs N R) (budget : Budget) (listens : Bool)
    (hloop : (pollUntil link budget listens (askQueued link) fun queued =>
      return !queued).Within R F) : (awaitEmpty link budget listens).Within R F := by
  have hreset : (changeDesk fun d => { d with queuePolls := 0 } : Act σ Unit).Within N F :=
    fun w => Course.polls w 0
  refine hNR.bind_before hreset fun _ => hNR.bind_after hloop.caught fun answer => ?_
  rcases answer with fault | _ | residual
  · exact within_say.bind fun _ => (within_look _).bind fun _ => within_pure _
  · exact (within_look _).bind fun _ => within_pure _
  · have hend : (do return (false, (← Act.desk).queuePolls) : Act σ (Bool × Nat)).Within N F :=
      (within_look _).bind fun _ => within_pure _
    dsimp only
    split
    · exact within_say.bind fun _ => hend
    · exact hend

variable (hhalt : link.Keeps R F fun r => r.isHalt = true)

include hhalt in
theorem stopProcessing_within : (stopProcessing link).Within R F := by
  refine (hhalt.ask .stopProcessing rfl).caught.bind fun answer => ?_
  cases answer with
  | ok _ => exact within_pure _
  | error fault => exact within_say

include hhalt in
theorem force_within (budget : Budget) (polls : Nat) : (force link budget polls).Within R F := by
  refine hhalt.newId.bind fun requestId => within_say.bind fun _ => ?_
  refine (stopProcessing_within hhalt).bind fun _ => ?_
  refine (hhalt.ask (.dropAllQueued requestId drainRequestor) rfl).caught.bind fun answer => ?_
  cases answer with
  | ok _ => exact publish_within _ (hhalt.ask _ rfl)
  | error fault => exact within_say.bind fun _ => publish_within _ (hhalt.ask _ rfl)

include hhalt in
theorem requestStop_within (e : Endpoint) : (requestStop link e).Within R F :=
  (hhalt.ask (.endpointIdentifier e) rfl).bind fun (_ : String) =>
    (hhalt.ask (.stopTransmitting e) rfl).bind fun (_ : Transmission) => within_pure _

include hhalt in
theorem requestStops_within (es : List Endpoint) : (requestStops link es).Within R F := by
  induction es with
  | nil => exact within_pure _
  | cons e es ih =>
    rw [requestStops]
    refine (requestStop_within hhalt e).caught.bind fun answer => ?_
    cases answer with
    | ok stopping => exact ih.bind fun _ => within_pure _
    | error fault =>
      refine (hhalt.ask (.endpointIdentifier e) rfl).bind fun (_ : String) => ?_
      refine within_say.bind fun _ => ?_
      refine (hhalt.ask (.endpointIdentifier e) rfl).bind fun (_ : String) => ?_
      exact ih.bind fun _ => within_pure _

include hhalt in
theorem awaitEndpoint_within (timeout : Float) (s : Stopping) :
    (awaitEndpoint link timeout s).Within R F := by
  refine (hhalt.ask (.awaitStop s.transmission timeout) rfl).caught.bind fun answer => ?_
  cases answer with
  | ok _ => exact within_pure _
  | error fault =>
    dsimp only
    split
    · exact within_say.bind fun _ =>
        (publish_within _ (hhalt.ask _ rfl)).bind fun _ => within_pure _
    · exact within_say.bind fun _ => within_pure _

include hhalt in
theorem awaitEach_within (timeout : Float) (ss : List Stopping) :
    (awaitEach link timeout ss).Within R F := by
  induction ss with
  | nil => exact within_pure _
  | cons s ss ih =>
    rw [awaitEach]
    refine (awaitEndpoint_within hhalt timeout s).bind fun stopped => ?_
    split
    · exact ih
    · exact ih.bind fun _ => within_pure _

include hhalt in
theorem stopTransmission_within (timeout : Float) : (stopTransmission link timeout).Within R F := by
  refine (hhalt.ask .remoteEndpoints rfl).caught.bind fun answer => ?_
  cases answer with
  | error fault => exact within_say.bind fun _ => within_pure _
  | ok endpoints =>
    refine (requestStops_within hhalt endpoints).bind fun stops => ?_
    exact (awaitEach_within hhalt timeout stops.1).bind fun _ => within_pure _

end Drain

omit [Course R] in
/-- A drain stays within what its loop stays within. -/
theorem drain_within_of_loop [Course N] (hNR : Absorbs N R)
    (hlink : link.Keeps N F fun r => r.isDrain = true ∧ r.isLooped = false) (plan : DrainPlan)
    (listens : Bool)
    (hloop : (pollUntil link plan.budget listens (Drain.askQueued link) fun queued =>
      return !queued).Within R F) : (drain link plan listens).Within R F := by
  have hhalt : link.Keeps N F fun r => r.isHalt = true :=
    hlink.mono fun _ => Request.isDrain_of_isHalt
  have hend : ∀ (graceful : Bool) (polls : Nat) (sourcesStopped : List String),
      (do
        Drain.stopProcessing link
        let endpointsTimedOut ← Drain.stopTransmission link plan.stopTimeout
        return { graceful, polls, sourcesStopped, endpointsTimedOut : DrainReport }).Within N F :=
    fun _ _ _ => (Drain.stopProcessing_within hhalt).bind fun _ =>
      (Drain.stopTransmission_within hhalt _).bind fun _ => within_pure _
  refine hNR.bind_before within_say fun _ =>
    hNR.bind_before (Drain.stopSources_within hlink) fun stopped => ?_
  refine hNR.bind_after (Drain.awaitEmpty_within hNR plan.budget listens hloop)
    fun (graceful, polls) => ?_
  dsimp only
  split
  · exact within_say.bind fun _ => hend _ _ _
  · exact (Drain.force_within hhalt plan.budget polls).bind fun _ => hend _ _ _

theorem drain_within (hlink : link.Keeps R F fun r => r.isDrain = true) (plan : DrainPlan)
    (listens : Bool) : (drain link plan listens).Within R F :=
  drain_within_of_loop absorbs_self (hlink.mono fun _ => And.left) plan listens
    (pollUntil_within (fun _ => hlink.ask _ rfl) plan.budget listens
      (Drain.askQueued_within (hlink.ask _ rfl)) fun _ => within_pure _)

/-! ### Bringing a configuration to run -/

namespace Reload

omit [Course R] in
/-- A step ends as its act does, an ordinary fault being wrapped. -/
theorem ends_step {s : ReloadStep} {a : Act σ α} {w : World σ} {P : α → World σ → Prop}
    {E : Fault → World σ → Prop} (ha : a.Ends w P E)
    (hE : ∀ fault w', E fault w' → E (.reloadFailed s fault) w') : (step s a).Ends w P E := by
  rw [step, ends_bind, ends_guarded]
  refine ha.mono (fun _ _ h => h) fun fault w' he => ?_
  split
  · exact he
  · exact hE fault w' he

omit [Course R] in
theorem step_within {s : ReloadStep} {a : Act σ α} (ha : a.Within R F)
    (hF : ∀ e, e.interrupts = false → F e) : (step s a).Within R F := fun w =>
  ends_step (ha w) fun _ _ he => ⟨hF _ rfl, he.2⟩

variable (hlink : link.Keeps R F fun r => r.isValidation = true ∧ r.isLooped = false)

include hlink in
theorem distinct_within (seen : List String) (cs : List Component) :
    (distinct link seen cs).Within R F := by
  induction cs generalizing seen with
  | nil => exact within_pure _
  | cons c cs ih =>
    rw [distinct]
    refine (hlink.ask (.componentIdentifier c) ⟨rfl, rfl⟩).bind fun (id : String) => ?_
    split
    · exact ih seen
    · exact (hlink.ask (.componentIdentifier c) ⟨rfl, rfl⟩).bind fun (id : String) =>
        (ih (id :: seen)).bind fun _ => within_pure _

include hlink in
theorem components_within : (components link).Within R F := by
  refine (hlink.ask .controllerServices ⟨rfl, rfl⟩).bind fun (services : List Component) => ?_
  refine (hlink.ask .reportingTasks ⟨rfl, rfl⟩).bind fun (tasks : List Component) => ?_
  refine (hlink.ask .processors ⟨rfl, rfl⟩).bind fun (processors : List Component) => ?_
  exact (distinct_within hlink [] processors).bind fun _ => within_pure _

theorem unsettled_within (hvalidate : ∀ c, (link.ask (.performValidation c)).Within R F)
    (cs : List Component) : (unsettled link cs).Within R F := by
  induction cs with
  | nil => exact within_pure _
  | cons c cs ih =>
    rw [unsettled]
    exact (hvalidate c).bind fun (_ : Status) => ih.bind fun _ => within_pure _

include hlink in
theorem issues_within (cs : List Component) : (issues link cs).Within R F := by
  have hname : ∀ c messages, (issues.name link c messages).Within R F := by
    intro c messages
    induction messages with
    | nil => exact within_pure _
    | cons message rest ih =>
      rw [issues.name]
      exact (hlink.ask (.componentIdentifier c) ⟨rfl, rfl⟩).bind fun (_ : String) =>
        ih.bind fun _ => within_pure _
  induction cs with
  | nil => exact within_pure _
  | cons c cs ih =>
    rw [issues]
    exact (hlink.ask (.validationErrors c) ⟨rfl, rfl⟩).bind fun (messages : List String) =>
      (hname c messages).bind fun _ => ih.bind fun _ => within_pure _

include hlink in
theorem identifiers_within (cs : List Component) : (identifiers link cs).Within R F := by
  induction cs with
  | nil => exact within_pure _
  | cons c cs ih =>
    rw [identifiers]
    exact (hlink.ask (.componentIdentifier c) ⟨rfl, rfl⟩).bind fun (_ : String) =>
      ih.bind fun _ => within_pure _

omit [Course R] in
/-- Waiting until every component has settled stays within what the loop stays within. -/
theorem settle_within [Course N] (hNR : Absorbs N R)
    (hlink : link.Keeps N F fun r => r.isValidation = true ∧ r.isLooped = false) (budget : Budget)
    (listens : Bool) (hloop : ∀ cs, (pollUntil link budget listens (unsettled link cs)
      fun pending => return pending.isEmpty).Within R F) :
    (settle link budget listens).Within R F :=
  hNR.bind_before (components_within hlink) fun cs =>
    hNR.bind_after (hloop cs) fun _ => within_pure _

end Reload

section

variable (hF : ∀ e : Fault, e.interrupts = false → F e) {T : World σ → World σ → Prop}

include hF in
/-- A load that succeeds has loaded the configuration, with nothing but telling and
a fresh start around it. -/
theorem ends_loadFlow (hrebuild : (link.ask .rebuild).Within R F)
    (hload : ∀ w, (link.ask .loadConfiguration).Ends w (fun _ w' => T w w') fun e _ => F e)
    (w : World σ) :
    (loadFlow link).Ends w (fun _ w' => ∃ w₁ w₂, R w w₁ ∧ T w₁ w₂ ∧ R w₂ w') fun e _ => F e := by
  refine Ends.bind (within_say (R := R) (F := fun _ => False) w) ?_ fun _ _ he => he.1.elim
  rintro - w₁ h₁
  -- the configuration is loaded, and then the flow is rebuilt from it
  refine Reload.ends_step ((hload w₁).bind ?_ fun _ _ he => he) fun _ _ _ => hF _ rfl
  rintro - w₂ h₂
  exact (hrebuild w₂).mono (fun _ w' h => ⟨w₁, w₂, h₁, h₂, h⟩) fun _ _ => And.left

omit [Course R] in
include hF in
/-- A start that succeeds has started the flow as its last request; one that fails
has not. -/
theorem ends_validateAndStart_of_loop [Course N] (hNR : Absorbs N R)
    (hlink : link.Keeps N F fun r => r.isValidation = true ∧ r.isLooped = false) (budget : Budget)
    (listens : Bool) (hloop : ∀ cs, (pollUntil link budget listens (Reload.unsettled link cs)
      fun pending => return pending.isEmpty).Within R F)
    (hstart : ∀ w, (link.ask .startProcessing).Ends w (fun _ w' => T w w')
      fun e w' => F e ∧ N w w')
    (w : World σ) :
    (validateAndStart link budget listens).Ends w
      (fun _ w' => ∃ w₁ w₂, R w w₁ ∧ T w₁ w₂ ∧ N w₂ w') (fun e w' => F e ∧ R w w') := by
  refine Ends.bind (Reload.step_within (Reload.settle_within hNR hlink budget listens hloop) hF w)
    ?_ fun _ _ he => he
  rintro ⟨cs, pending⟩ w₁ h₁
  cases pending with
  | some pending =>
    -- some components are still being validated: the start is not reached
    refine Ends.bind (Reload.identifiers_within hlink pending.value w₁) ?_
      fun e w' he => ⟨he.1, hNR.after h₁ he.2⟩
    exact fun ids w₂ h₂ => ⟨hF _ rfl, hNR.after (hNR.after h₁ h₂) (Course.log w₂ _)⟩
  | none =>
    refine Ends.bind (Reload.step_within (Reload.issues_within hlink cs) hF w₁) ?_
      fun e w' he => ⟨he.1, hNR.after h₁ he.2⟩
    intro found w₂ h₂
    have h₁₂ := hNR.after h₁ h₂
    dsimp only
    split
    · exact ⟨hF _ rfl, hNR.after h₁₂ (Course.log w₂ _)⟩
    · refine Ends.bind (Reload.ends_step (hstart w₂) fun _ _ he => ⟨hF _ rfl, he.2⟩) ?_
        fun e w' he => ⟨he.1, hNR.after h₁₂ he.2⟩
      exact fun _ w₃ h₃ => ⟨w₂, w₃, h₁₂, h₃, Course.log w₃ _⟩

omit [Course R] in
include hF in
/-- A start stays within what its loop stays within. -/
theorem validateAndStart_within_of_loop [Course N] (hNR : Absorbs N R)
    (hlink : link.Keeps N F fun r => r.isValidation = true ∧ r.isLooped = false) (budget : Budget)
    (listens : Bool) (hloop : ∀ cs, (pollUntil link budget listens (Reload.unsettled link cs)
      fun pending => return pending.isEmpty).Within R F)
    (hstart : (link.ask .startProcessing).Within N F) :
    (validateAndStart link budget listens).Within R F := fun w => by
  refine (ends_validateAndStart_of_loop hF hNR hlink budget listens hloop hstart w).mono ?_
    fun _ _ => id
  rintro - w' ⟨w₁, w₂, h₁, h₂, h₃⟩
  exact hNR.after (hNR.after h₁ h₂) h₃

variable (hlink : link.Keeps R F fun r => r.isValidation = true)

include hlink

theorem Reload.loop_within (budget : Budget) (listens : Bool) (cs : List Component) :
    (pollUntil link budget listens (unsettled link cs) fun pending =>
      return pending.isEmpty).Within R F :=
  pollUntil_within (fun _ => hlink.ask _ rfl) budget listens
    (unsettled_within (fun _ => hlink.ask _ rfl) cs) fun _ => within_pure _

include hF

theorem ends_validateAndStart (budget : Budget) (listens : Bool)
    (hstart : ∀ w, (link.ask .startProcessing).Ends w (fun _ w' => T w w')
      fun e w' => F e ∧ R w w')
    (w : World σ) :
    (validateAndStart link budget listens).Ends w
      (fun _ w' => ∃ w₁ w₂, R w w₁ ∧ T w₁ w₂ ∧ R w₂ w') (fun e w' => F e ∧ R w w') :=
  ends_validateAndStart_of_loop hF absorbs_self (hlink.mono fun _ => And.left) budget listens
    (Reload.loop_within hlink budget listens) hstart w

theorem validateAndStart_within (budget : Budget) (listens : Bool)
    (hstart : (link.ask .startProcessing).Within R F) :
    (validateAndStart link budget listens).Within R F :=
  validateAndStart_within_of_loop hF absorbs_self (hlink.mono fun _ => And.left) budget listens
    (Reload.loop_within hlink budget listens) hstart

end

theorem loadFlow_within (hload : (link.ask .loadConfiguration).Within R F)
    (hrebuild : (link.ask .rebuild).Within R F) (hF : ∀ e : Fault, e.interrupts = false → F e) :
    (loadFlow link).Within R F :=
  within_say.bind fun _ => Reload.step_within (hload.bind fun _ => hrebuild) hF

theorem Attempt.reloadReverted_within (hload : (loadFlow link).Within R F) {validation : Budget}
    (hstart : (validateAndStart link validation false).Within R F)
    (hF : ∀ e : Fault, e.interrupts = false → F e) :
    (Attempt.reloadReverted link validation).Within R F := by
  have hreload : (reloadFlow link validation false).Within R F := hload.bind fun _ => hstart
  intro w
  rw [Attempt.reloadReverted, ends_bind, ends_guarded]
  refine (hreload w).mono (fun _ _ h => h) fun e w' he => ?_
  split
  · exact he
  · dsimp only
    split
    · exact ⟨hF _ rfl, he.2⟩
    · exact he

end

/-! ### Telling -/

section

variable [Frame R]

namespace Attempt

/-- Telling the observers raises nothing but interrupts. -/
theorem publish_within (e : Event) (h : (link.ask (.publish e)).Within R F) :
    (publish link e).Within R fun e => F e ∧ e.interrupts = true := by
  refine h.guarded.bind fun answer => ?_
  cases answer with
  | ok _ => exact within_pure _
  | error fault => exact within_say

/-- Neither does keeping a report. -/
theorem keep_within (plan : UpdatePlan) (report : UpdateReport)
    (h : (link.ask (.keepReport report)).Within R F) :
    (keep link plan report).Within R fun e => F e ∧ e.interrupts = true := by
  rw [keep]
  split
  · refine h.guarded.bind fun answer => ?_
    cases answer with
    | ok _ => exact within_pure _
    | error fault => exact within_say
  · exact within_pure _

theorem start_within (hid : link.newId.Within R F) (htime : link.time.Within R F) (raw : Bytes) :
    (start link raw).Within R F :=
  hid.bind fun _ => htime.bind fun _ => within_pure _

theorem finish_within (plan : UpdatePlan) (a : Attempt) (o : Outcome)
    (drained : Option DrainReport) (htime : link.time.Within R F)
    (htell : ∀ state succeeded duration kind, (link.ask (.publish
      (.updateCompleted a.id state succeeded duration kind))).Within R F)
    (hkeep : ∀ report : UpdateReport, report.attemptId = a.id →
      (link.ask (.keepReport report)).Within R F) :
    (finish link plan a o drained).Within R F := by
  refine htime.bind fun completedAt => ?_
  have hend : ∀ (report : UpdateReport) (event : Event), report.attemptId = a.id →
      (link.ask (.publish event)).Within R F → (do
        publish link event
        keep link plan report
        return report).Within R F := fun report event hid h =>
    ((publish_within _ h).weaken fun _ => And.left).bind fun _ =>
      ((keep_within plan report (hkeep report hid)).weaken fun _ => And.left).bind fun _ =>
        within_pure _
  dsimp only
  split
  · exact within_say.bind fun _ => hend _ _ rfl (htell _ _ _ _)
  · exact within_say.bind fun _ => hend _ _ rfl (htell _ _ _ _)

end Attempt

namespace Tracing

theorem annotate_within (s : Span)
    (h : ∀ key value, (link.ask (.annotateSpan s key value)).Within R F)
    (facts : List (String × Data)) : (annotate link s facts).Within R F := by
  induction facts with
  | nil => exact within_pure _
  | cons fact rest ih => exact (h _ _).bind fun _ => ih

end Tracing

end

end HotSwap
