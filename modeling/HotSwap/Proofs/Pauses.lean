/-
How long an update waits.

An update polls in three of its phases, and pauses between its polls.  Each of these phases
begins at most once, and keeps to a budget of its own.  The candidate and the configuration
that has been restored are validated apart, so that the budget of validation may be spent
twice.

* `Phase.polls`, `UpdatePlan.budgetOf` — the phases in which an update polls, and how long it
  may go on;
* `Stint`, `Paced` — such phases with their pauses, as the journal shows them;
* `Paced.pauses_le` — how many pauses there are at most;
* `pollFrom_rests`, `Attempt.runPhase_paced` — loops and phases keep to their budgets;
* `Updater.ends_apply_paced` — and so does an update.
-/
import Mathlib.Algebra.GroupWithZero.Nat
import Mathlib.Algebra.Order.BigOperators.Group.List
import Mathlib.Algebra.Order.Group.Nat
import HotSwap.Proofs.Scopes
import HotSwap.Proofs.Tellings

namespace HotSwap

open Act

variable {σ α : Type} {w w' : World σ} {link : Link σ} {plan : UpdatePlan} {a : Attempt}
  {id : String} {phases phases' : List Phase} {es es' : List Entry}

/-! ### Pauses and phases -/

/-- Whether an attempt polls in a phase. -/
def Phase.polls : Phase → Bool
  | .draining | .validating | .reloadingReverted => true
  | _ => false

/-- The budget to which an attempt keeps in a phase. -/
def UpdatePlan.budgetOf (plan : UpdatePlan) : Phase → Budget
  | .draining => plan.drain.budget
  | _ => plan.validation

/-- A pause within a budget. -/
def Budget.rest (b : Budget) : Entry := .asked (.pause b.pause.seconds)

/-- The observers are told that a phase begins. -/
def Phase.opening (id : String) (phase : Phase) : Entry :=
  .asked (.publish (.phaseStarted id phase))

namespace Entry

/-- Whether an entry is a pause. -/
def isPause : Entry → Bool
  | .asked (.pause _) => true
  | _ => false

/-- Whether an entry is a pause, or tells that a phase begins in which an attempt polls. -/
def paces : Entry → Bool
  | .asked (.pause _) => true
  | .asked (.publish (.phaseStarted _ phase)) => phase.polls
  | _ => false

theorem paces_answered {r : Request} {answer : Except Fault r.Answer} :
    (answered r answer).paces = false := rfl

theorem paces_of_murmur {e : Entry} {A : String → Prop} (he : e.Murmur A) : e.paces = false := by
  cases e with
  | asked r =>
    cases r with
    | publish event => cases event <;> first | rfl | exact he.elim
    | _ => first | rfl | exact he.elim
  | _ => rfl

theorem paces_of_ofFiles {e : Entry} (he : e.OfFiles) : e.paces = false := by
  cases e <;> first | rfl | exact he.elim

theorem paces_of_isPause {e : Entry} (he : e.isPause = true) : e.paces = true := by
  unfold isPause at he
  split at he
  · rfl
  · cases he

end Entry

/-- How many pauses there are. -/
def pausesIn (es : List Entry) : Nat := es.countP Entry.isPause

/-- A phase in which an attempt polls, and how often it pauses there. -/
structure Stint where
  phase : Phase
  pauses : Nat

/-- What the journal shows of it. -/
def Stint.entries (plan : UpdatePlan) (id : String) (s : Stint) : List Entry :=
  s.phase.opening id :: List.replicate s.pauses (plan.budgetOf s.phase).rest

/-- The entries show some of the phases, in order, each with pauses of its own length and no
more of them than its budget allows. -/
def Paced (plan : UpdatePlan) (id : String) (phases : List Phase) (es : List Entry) : Prop :=
  ∃ stints : List Stint, es = stints.flatMap (Stint.entries plan id) ∧
    (stints.map Stint.phase).Sublist phases ∧
    ∀ s ∈ stints, s.pauses ≤ (plan.budgetOf s.phase).maxRetries

namespace Paced

theorem nil : Paced plan id phases [] := ⟨[], rfl, List.nil_sublist _, by simp⟩

theorem append (h : Paced plan id phases es) (h' : Paced plan id phases' es') :
    Paced plan id (phases ++ phases') (es ++ es') := by
  obtain ⟨stints, rfl, hphases, hbudget⟩ := h
  obtain ⟨stints', rfl, hphases', hbudget'⟩ := h'
  refine ⟨stints ++ stints', by simp, ?_, List.forall_mem_append.mpr ⟨hbudget, hbudget'⟩⟩
  rw [List.map_append]
  exact hphases.append hphases'

theorem mono (h : Paced plan id phases es) (hphases : phases.Sublist phases') :
    Paced plan id phases' es := by
  obtain ⟨stints, hes, hstints, hbudget⟩ := h
  exact ⟨stints, hes, hstints.trans hphases, hbudget⟩

theorem pausesIn_entries (s : Stint) : pausesIn (s.entries plan id) = s.pauses := by
  rw [pausesIn, Stint.entries, List.countP_cons_of_neg (by simp [Phase.opening, Entry.isPause]),
    List.countP_replicate]
  exact if_pos rfl

/-- A phase of which the journal does not tell has no pauses. -/
theorem without {phase : Phase} (h : Paced plan id phases es)
    (hnot : phase.opening id ∉ es) : Paced plan id (phases.filter (· ≠ phase)) es := by
  obtain ⟨stints, rfl, hphases, hbudget⟩ := h
  refine ⟨stints, rfl, ?_, hbudget⟩
  have hother : ∀ p ∈ stints.map Stint.phase, decide (p ≠ phase) = true := by
    intro p hp
    obtain ⟨s, hs, rfl⟩ := List.mem_map.mp hp
    rw [decide_eq_true_eq]
    rintro rfl
    exact hnot (List.mem_flatMap.mpr ⟨s, hs, List.mem_cons_self ..⟩)
  rw [← List.filter_eq_self.mpr hother]
  exact hphases.filter _

/-- There are no more pauses than the budgets of the phases allow together. -/
theorem pauses_le (h : Paced plan id phases es) :
    pausesIn es ≤ (phases.map fun phase => (plan.budgetOf phase).maxRetries).sum := by
  obtain ⟨stints, rfl, hphases, hbudget⟩ := h
  calc pausesIn (stints.flatMap (Stint.entries plan id))
      = (stints.map Stint.pauses).sum := by
        rw [pausesIn, List.countP_flatMap]
        exact congrArg List.sum (List.map_congr_left fun s _ => pausesIn_entries s)
    _ ≤ (stints.map fun s => (plan.budgetOf s.phase).maxRetries).sum :=
        List.sum_le_sum hbudget
    _ = ((stints.map Stint.phase).map fun phase => (plan.budgetOf phase).maxRetries).sum := by
        rw [List.map_map]
        rfl
    _ ≤ (phases.map fun phase => (plan.budgetOf phase).maxRetries).sum :=
        (hphases.map _).sum_le_sum fun _ _ => Nat.zero_le _

end Paced

/-! ### Loops -/

/-- Pauses within a budget, `left` of them at most. -/
def Rests (b : Budget) (left : Nat) (es : List Entry) : Prop :=
  ∃ n ≤ left, es = List.replicate n b.rest

theorem Rests.nil (b : Budget) (left : Nat) : Rests b left [] := ⟨0, Nat.zero_le _, rfl⟩

variable {q : Bool → σ → Prop} {A : String → Prop} {F : Fault → Prop}
  {L : (r : Request) → Except Fault r.Answer → Prop} (hlink : link.Hears q A Entry.paces L)

/-- Nothing is told of pauses, nor of the phases in which an attempt polls. -/
abbrev World.Unpaced (q : Bool → σ → Prop) : World σ → World σ → Prop :=
  World.Tells q Entry.paces fun l => l = []

theorem World.absorbs_rests (b : Budget) (left : Nat) :
    Absorbs (World.Unpaced (σ := σ) q) (World.Tells q Entry.paces (Rests b left)) :=
  absorbs_tells (Rests.nil b left)

theorem World.absorbs_paced (phases : List Phase) :
    Absorbs (World.Unpaced (σ := σ) q) (World.Tells q Entry.paces (Paced plan id phases)) :=
  absorbs_tells Paced.nil

include hlink

theorem Link.Hears.pause_tells (b : Budget) : (link.ask (.pause b.pause.seconds)).Within
    (World.Tells q Entry.paces fun l => l = [b.rest]) fun _ => True :=
  hlink.ask_tells (fun _ _ => trivial) fun _ => rfl

/-- A loop pauses no more often than polls are left. -/
theorem pollFrom_rests (b : Budget) (listens : Bool) {ask : Act σ α} {settled : α → Act σ Bool}
    (hask : ask.Within (World.Unpaced q) fun _ => True)
    (hsettled : ∀ x, (settled x).Within (World.Unpaced q) fun _ => True) (left poll : Nat) :
    (pollFrom link b listens ask settled left poll).Within
      (World.Tells q Entry.paces (Rests b left)) fun _ => True := by
  induction left generalizing poll with
  | zero =>
    rw [pollFrom]
    refine (World.absorbs_rests b 0).within
      (hask.bind fun value => (hsettled value).bind fun done => ?_)
    split
    · exact within_pure _
    · exact (toldToStop_within listens).bind fun _ => within_pure _
  | succ left ih =>
    have hrests := World.absorbs_rests (σ := σ) (q := q) b (left + 1)
    rw [pollFrom]
    refine hrests.bind_before (pollOnce_within listens hask hsettled poll) fun answer => ?_
    cases answer with
    | some answer => exact hrests.within (within_pure _)
    | none =>
      refine hrests.bind_before within_say fun _ =>
        (hlink.pause_tells b).bind_tells (fun _ => ih (poll + 1)) ?_ ?_
      · rintro _ _ rfl ⟨n, hn, rfl⟩
        exact ⟨n + 1, Nat.succ_le_succ hn, rfl⟩
      · rintro _ rfl
        exact ⟨1, Nat.succ_le_succ (Nat.zero_le _), rfl⟩

/-! ### Attempts -/

theorem Link.Hears.ask_unpaced {r : Request} (hr : (Entry.asked r).paces = false) :
    (link.ask r).Within (World.Unpaced q) fun _ => True :=
  (hlink.ask_within hr (fun _ => rfl) fun _ _ => trivial).tells

theorem Link.Hears.keeps_unpaced {S : Request → Prop}
    (hS : ∀ r, S r → (Entry.asked r).paces = false) :
    link.Keeps (World.Unpaced q) (fun _ => True) S :=
  hlink.keeps_tells (fun _ _ _ => trivial) fun r hr _ => by
    simp [Request.noted, hS r hr, Entry.paces_answered]

/-- A drain pauses within its budget. -/
theorem drain_rests (d : DrainPlan) (listens : Bool) : (drain link d listens).Within
    (World.Tells q Entry.paces (Rests d.budget d.budget.maxRetries)) fun _ => True := by
  have hkeeps : link.Keeps (World.Unpaced q) (fun _ => True)
      fun r => r.isDrain = true ∧ r.isLooped = false :=
    hlink.keeps_unpaced fun r hr => by
      cases r with
      | publish event => cases event <;> first | rfl | cases hr.1
      | _ => first | rfl | cases hr.2
  refine drain_within_of_loop (World.absorbs_rests _ _) hkeeps d listens ?_
  exact pollFrom_rests hlink _ _ (Drain.askQueued_within (hlink.ask_unpaced rfl))
    (fun _ => within_pure _) _ _

/-- A start pauses within its budget. -/
theorem validateAndStart_rests (b : Budget) (listens : Bool) :
    (validateAndStart link b listens).Within
      (World.Tells q Entry.paces (Rests b b.maxRetries)) fun _ => True := by
  have hkeeps : link.Keeps (World.Unpaced q) (fun _ => True)
      fun r => r.isValidation = true ∧ r.isLooped = false :=
    hlink.keeps_unpaced fun r hr => by
      cases r with
      | pause => cases hr.2
      | _ => first | rfl | cases hr.1
  refine validateAndStart_within_of_loop (fun _ _ => trivial)
    (World.absorbs_rests _ _) hkeeps b listens (fun cs => ?_)
    (hlink.ask_unpaced rfl)
  exact pollFrom_rests hlink _ _ (Reload.unsettled_within (fun _ => hlink.ask_unpaced rfl) cs)
    (fun _ => within_pure _) _ _

omit hlink in
theorem unpaced_desk (w : World σ) (desk : Desk) (hengaged : desk.engaged = w.desk.engaged) :
    w.Unpaced q { w with desk } :=
  World.tells_desk w desk hengaged

theorem handles_unpaced : link.Handles (World.Unpaced q) fun _ => True :=
  (hlink.handles fun _ => Entry.paces_of_ofFiles).mono fun _ _ h => h.tells rfl

theorem loadFlow_unpaced : (loadFlow link).Within (World.Unpaced q) fun _ => True :=
  loadFlow_within (hlink.ask_unpaced rfl) (hlink.ask_unpaced rfl) fun _ _ => trivial

namespace Attempt

theorem told_unpaced (a : Attempt) :
    a.Told link (World.Unpaced q) (fun _ => True) fun phase => phase.polls = false where
  phase w phase := unpaced_desk w { w.desk with phase } rfl
  publish e _ _ hphase := hlink.ask_unpaced (by
    cases e with
    | phaseStarted _ phase => exact hphase phase rfl
    | _ => rfl)
  openSpan _ := hlink.ask_unpaced rfl
  annotateSpan _ _ _ := hlink.ask_unpaced rfl
  recordFault _ _ := hlink.ask_unpaced rfl
  closeSpan _ := hlink.ask_unpaced rfl

theorem underway_unpaced (a : Attempt) (phase : Phase) :
    a.Underway link (World.Unpaced q) (fun _ => True) phase where
  failed _ _ := hlink.ask_unpaced rfl
  completed := hlink.ask_unpaced rfl
  openSpan _ := hlink.ask_unpaced rfl
  annotateSpan _ _ _ := hlink.ask_unpaced rfl
  recordFault _ _ := hlink.ask_unpaced rfl
  closeSpan _ := hlink.ask_unpaced rfl

/-- A phase in which an attempt polls is told of once, and keeps to its budget. -/
theorem runPhase_paced (a : Attempt) {phase : Phase} (hpolls : phase.polls = true)
    (kind : FailureKind) {action : Act σ (Option α)}
    (haction : action.Within (World.Tells q Entry.paces
      (Rests (plan.budgetOf phase) (plan.budgetOf phase).maxRetries)) fun _ => True) :
    (a.runPhase link plan phase kind action).Within
      (World.Tells q Entry.paces (Paced plan a.id [phase])) fun _ => True := by
  have hopening : (publish link (.phaseStarted a.id phase)).Within
      (World.Tells q Entry.paces fun l => l = [phase.opening a.id]) fun _ => True := by
    have htold : ∀ answer, ((Request.publish (.phaseStarted a.id phase)).noted answer).filter
        Entry.paces = [phase.opening a.id] := fun answer => by
      simp [Request.noted, Entry.paces, hpolls, Phase.opening]
    refine (hlink.publish_reads _).tells ?_ ?_
    · rintro - l ⟨answer, rfl⟩
      exact htold answer
    · rintro e l ⟨answer, rfl⟩
      exact ⟨trivial, htold answer⟩
  have hstint : ∀ n ≤ (plan.budgetOf phase).maxRetries,
      Paced plan a.id [phase] (Stint.entries plan a.id ⟨phase, n⟩) := fun n hn =>
    ⟨[⟨phase, n⟩], by simp, List.Sublist.refl _, by simpa using hn⟩
  rw [runPhase_eq]
  refine (World.absorbs_paced _).bind_before
    (fun w => unpaced_desk w { w.desk with phase } rfl) fun _ => ?_
  refine hopening.bind_tells (fun _ => (underway_unpaced hlink a phase).continuePhase_within
    (World.absorbs_rests _ _) haction kind) ?_ ?_
  · rintro _ _ rfl ⟨n, hn, rfl⟩
    exact hstint n hn
  · rintro _ rfl
    exact hstint 0 (Nat.zero_le _)

variable {raw rendered : Bytes}

omit hlink in
/-- What an attempt does phase after phase, each with the phases in which it polls there. -/
theorem firstFailure_paced (steps : List (Act σ (PhaseResult Unit) × List Phase))
    (hsteps : ∀ step ∈ steps, step.1.Within
      (World.Tells q Entry.paces (Paced plan id step.2)) fun _ => True) :
    (firstFailure (steps.map Prod.fst)).Within
      (World.Tells q Entry.paces (Paced plan id (steps.flatMap Prod.snd))) fun _ => True := by
  induction steps with
  | nil => exact (World.absorbs_paced _).within (within_pure _)
  | cons step rest ih =>
    rw [List.forall_mem_cons] at hsteps
    refine hsteps.1.bind_tells (U := Paced plan id (rest.flatMap Prod.snd)) (fun r => ?_)
      (fun _ _ => .append) fun _ h => h.mono (List.sublist_append_left _ _)
    split
    · exact (World.absorbs_paced _).within (within_pure _)
    · exact ih hsteps.2

/-- On its way forward an attempt polls while the flow is drained and while the candidate is
validated. -/
theorem forward_paced (a : Attempt) :
    (firstFailure (a.forward link plan raw rendered)).Within
      (World.Tells q Entry.paces (Paced plan a.id [.draining, .validating])) fun _ => True := by
  have hstep : ∀ {action : Act σ Unit} {phase : Phase} (kind : FailureKind),
      action.Within (World.Unpaced q) (fun _ => True) → phase.polls = false →
      (a.runStep link plan phase kind action).Within
        (World.Tells q Entry.paces (Paced plan a.id [])) fun _ => True :=
    fun kind haction hphase => (World.absorbs_paced _).within
      ((told_unpaced hlink a).runStep_within hphase absorbs_self haction kind)
  have hany : ∀ e : Fault, e.interrupts = false → True := fun _ _ => trivial
  have hdrain : (a.drainPhase link plan).Within
      (World.Tells q Entry.paces (Paced plan a.id [.draining])) fun _ => True := by
    have hphase : (a.runPhase link plan .draining .drainFailure do
        return some (← drain link plan.drain true)).Within
        (World.Tells q Entry.paces (Paced plan a.id [.draining])) fun _ => True :=
      runPhase_paced hlink a rfl _
        ((World.absorbs_rests _ _).bind_after (drain_rests hlink plan.drain true)
          fun _ => within_pure _)
    refine (World.absorbs_paced _).bind_after hphase fun r => ?_
    dsimp only
    split
    · exact Within.bind (fun w => unpaced_desk w { w.desk with drained := r.value } rfl)
        fun _ => within_pure _
    · exact within_pure _
  have hstart : (a.runStep link plan .validating .reloadFailure
      (validateAndStart link plan.validation true)).Within
      (World.Tells q Entry.paces (Paced plan a.id [.validating])) fun _ => True :=
    runPhase_paced hlink a rfl _ ((World.absorbs_rests _ _).bind_after
      (validateAndStart_rests hlink plan.validation true) fun _ => within_pure _)
  refine firstFailure_paced [(_, []), (_, []), (_, [.draining]), (_, []), (_, [.validating])] ?_
  simp only [List.forall_mem_cons, List.not_mem_nil, false_imp_iff, implies_true, and_true]
  exact ⟨hstep _ ((FileSet.backup_within (handles_unpaced hlink) _ trivial).weaken hany) rfl,
    hstep _ ((FileSet.persist_within (handles_unpaced hlink) _ _ _ trivial).weaken hany) rfl,
    hdrain, hstep _ (loadFlow_unpaced hlink) rfl, hstart⟩

/-- On its way back it polls while the restored configuration is validated. -/
theorem rollBack_paced (a : Attempt) (failed : PhaseFailure) :
    (a.rollBack link plan failed).Within
      (World.Tells q Entry.paces (Paced plan a.id [.reloadingReverted])) fun _ => True := by
  have hrests := World.absorbs_rests (σ := σ) (q := q) plan.validation plan.validation.maxRetries
  have hreload : (reloadFlow link plan.validation false).Within (World.Tells q Entry.paces
      (Rests plan.validation plan.validation.maxRetries)) fun _ => True :=
    hrests.bind_before (loadFlow_unpaced hlink) fun _ =>
      validateAndStart_rests hlink plan.validation false
  have hreverted : (reloadReverted link plan.validation).Within (World.Tells q Entry.paces
      (Rests plan.validation plan.validation.maxRetries)) fun _ => True := by
    refine hrests.bind_after hreload.caught fun answer => ?_
    cases answer with
    | ok _ => exact within_pure _
    | error fault =>
      dsimp only
      split
      · exact within_raise trivial
      · exact within_raise trivial
  refine rollBack_within_of_steps (World.absorbs_paced _) a ?_ ?_ failed
  · exact (told_unpaced hlink a).runStep_within rfl absorbs_self
      ((revertFiles_within (handles_unpaced hlink) plan.files trivial).weaken fun _ _ => trivial) _
  · exact runPhase_paced hlink a rfl _ (hrests.bind_after hreverted fun _ => within_pure _)

/-- An attempt polls in three phases. -/
theorem ends_attempt_paced (a : Attempt) (raw : Bytes) (w : World σ)
    (hfinish : ∀ o drained, (a.finish link plan o drained).Within (World.Unpaced q)
      fun _ => True) :
    (Updater.attempt link plan a raw).Ends w
      (fun _ w' => w.Tells q Entry.paces
        (Paced plan a.id [.draining, .validating, .reloadingReverted]) w')
      fun _ w' => w.Tells q Entry.paces
        (Paced plan a.id [.draining, .validating, .reloadingReverted]) w' := by
  let R : World σ → World σ → Prop :=
    World.Tells q Entry.paces (Paced plan a.id [.draining, .validating, .reloadingReverted])
  have hpaced : Absorbs (World.Unpaced (σ := σ) q) R := World.absorbs_paced _
  have hcommit : ∀ rendered, (a.commit link plan raw rendered).Within R fun _ => True := by
    intro rendered
    refine (forward_paced hlink a).bind_tells (U := Paced plan a.id [.reloadingReverted])
      (fun failed => ?_) (fun _ _ => .append) fun _ h => h.mono (by simp)
    cases failed with
    | none => exact (World.absorbs_paced _).within (within_pure _)
    | some failed => exact rollBack_paced hlink a failed
  have hcleanup : (FileSet.cleanup link plan.files).Within (World.Unpaced q) fun _ => True :=
    FileSet.cleanup_within (handles_unpaced hlink) plan.files trivial
  have htold := told_unpaced hlink a
  have hscoped : (Updater.attempt link plan a raw).Ends w
      (fun report w' => Scoped (World.Unpaced q) (fun _ => R) True report w w')
      fun e w' => Cut (World.Unpaced q) (fun _ => R) True e w w' :=
    ends_attempt_scoped (N := World.Unpaced q) (T := fun _ => R) ⟨hpaced.before, hpaced.after⟩
      { htold with publish := fun e hprogresses hid hphase =>
          htold.publish e hprogresses hid fun phase h => by rw [hphase phase h]; rfl }
      (fun _ => hlink.ask_unpaced rfl) hfinish
      (fun rendered w => (hpaced.ensuring (hcommit rendered) hcleanup w).mono (fun _ _ h => h)
        fun _ _ he => he.2)
      (fun _ _ => (hlink.ask_unpaced rfl).weaken fun _ _ => .inr trivial) w
  refine hscoped.mono ?_ ?_
  · rintro report w' (⟨h, -⟩ | ⟨r, h, -⟩)
    · exact hpaced.of h
    · exact h
  · rintro e w' (h | ⟨r, h, -⟩)
    · exact hpaced.of h
    · exact h

end Attempt

omit hlink

/-! ### Updates -/

/-- What the journal shows of the pauses of an update. -/
structure KeepsPace (plan : UpdatePlan) (id : String) (es : List Entry) : Prop where
  /-- Three phases at most, in order, and each keeps to its budget. -/
  paced : Paced plan id [.draining, .validating, .reloadingReverted] (es.filter Entry.paces)
  /-- The budget of validation may be spent twice. -/
  total : pausesIn es ≤ plan.drain.budget.maxRetries + 2 * plan.validation.maxRetries
  /-- It is spent once, unless the candidate and the restored configuration are validated. -/
  once : Phase.validating.opening id ∉ es ∨ Phase.reloadingReverted.opening id ∉ es →
    pausesIn es ≤ plan.drain.budget.maxRetries + plan.validation.maxRetries

theorem Paced.keepsPace (h : Paced plan id [.draining, .validating, .reloadingReverted]
    (es.filter Entry.paces)) : KeepsPace plan id es := by
  have hpauses : pausesIn (es.filter Entry.paces) = pausesIn es := by
    rw [pausesIn, List.countP_filter]
    refine List.countP_congr fun e _ => ?_
    simpa using fun he => Entry.paces_of_isPause he
  have hwithout : ∀ {phase : Phase}, phase.opening id ∉ es →
      pausesIn es ≤ ((([.draining, .validating, .reloadingReverted] : List Phase).filter
        (· ≠ phase)).map fun phase => (plan.budgetOf phase).maxRetries).sum := fun hnot =>
    hpauses ▸ (h.without fun hmem => hnot (List.mem_of_mem_filter hmem)).pauses_le
  refine ⟨h, ?_, ?_⟩
  · have htotal := h.pauses_le
    rw [hpauses] at htotal
    simp [UpdatePlan.budgetOf] at htotal
    omega
  · rintro (hnot | hnot)
    · simpa [UpdatePlan.budgetOf] using hwithout hnot
    · simpa [UpdatePlan.budgetOf] using hwithout hnot

/-- **How long an update waits.**  However its collaborators behave, an update pauses while
the flow is drained, while the candidate is validated, and while the restored configuration is
validated, each time within the budget of that phase. -/
theorem Updater.ends_apply_paced (h : Host σ) (depth : Nat) (raw : Bytes) (w : World σ) :
    (apply (h.link (console plan) depth) plan raw).Ends w
      (fun _ w' => ∃ id, KeepsPace plan id (w.since w'))
      fun _ w' => ∃ id, KeepsPace plan id (w.since w') := by
  have hlink : (h.link (console plan) depth).Hears (fun b _ => b = true) (fun _ => True)
      Entry.paces (Host.Raising fun _ _ => True) :=
    (h.raises_any.abides (· = true)).hears_console (fun _ _ hb => hb)
      (fun _ => Entry.paces_of_murmur) plan depth
  generalize h.link (console plan) depth = link at hlink
  generalize ha : newAttempt link raw w = a
  have hfinish : ∀ o drained, (a.finish link plan o drained).Within
      (World.Unpaced fun b _ => b = true) fun _ => True := fun o drained =>
    a.finish_within plan o drained hlink.time_within.tells
      (fun _ _ _ _ => hlink.ask_unpaced rfl) fun _ _ => hlink.ask_unpaced rfl
  have hend : ∀ {T : List Entry → Prop} {w₁ w' : World σ},
      w₁.Tells (fun b _ => b = true) Entry.paces T w' → w₁.desk.engaged = true →
      w₁.journal = w.journal → T ((w.since w').filter Entry.paces) := by
    intro T w₁ w' htells hengaged hjournal
    obtain ⟨-, -, -, hes⟩ := htells hengaged
    rwa [World.since, hjournal] at hes
  cases hdesk : w.desk.engaged with
  | false =>
    rw [ends_apply_of_free hdesk, ha]
    exact (Attempt.ends_attempt_paced hlink a raw _ hfinish).mono
      (fun _ _ h => ⟨a.id, (hend h rfl rfl).keepsPace⟩) fun _ _ h =>
        ⟨a.id, (hend h rfl rfl).keepsPace⟩
  | true =>
    -- a refused update does not wait at all
    rw [ends_apply_of_engaged hdesk, ha]
    have hnone : ∀ {w' : World σ}, (afterStart link w).Unpaced (fun b _ => b = true) w' →
        ∃ id, KeepsPace plan id (w.since w') := by
      intro w' h
      have hes := hend h hdesk rfl
      exact ⟨a.id, Paced.keepsPace (by rw [hes]; exact Paced.nil)⟩
    exact ((within_record.bind fun _ => hfinish refused none) _).mono (fun _ _ => hnone)
      fun _ _ he => hnone he.2

end HotSwap
