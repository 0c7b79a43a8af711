/-
A whole attempt stays within a frame.

If each request of an attempt stays within a relation of worlds, and each access to a
file does, then so do the operations on the files, the phases, and the attempt as a
whole, however it ends.  Only the end of an attempt is told apart from the rest.

* `Link.Handles` — the accesses to files stay within a relation, and with them
  `FileSet.backup`, `FileSet.persist`, `FileSet.revert` and `FileSet.cleanup`;
* `Attempt.Told` — so does what is told of an attempt, and with it each phase, and
  `Attempt.Underway` — what is told of one phase after its beginning;
* `Attempt.Worked` — so does all that a commit does, but for a phase that stands out;
* `Attempt.Framed` — so do the requests of an attempt, but for those of its end;
* `Attempt.ends_perform_framed` — the attempt stays within the relation up to its end, and
  from there on;
* `Attempt.ends_attempt_framed` — the same, where an ordinary fault leads to an unexpected end;
* `Updater.ends_apply_of_free`, `Updater.ends_apply_of_engaged` — how an update runs on a
  free desk and on one that is taken.

Design notes: `Q` is what the end of an attempt does.  A relation that the end stays
within as well takes `Q` for itself.
-/
import HotSwap.Proofs.Stretches
import HotSwap.Update.Updater

namespace HotSwap

open Act

variable {σ α : Type} {R N : World σ → World σ → Prop} {F G C : Fault → Prop} {link : Link σ}
  {plan : UpdatePlan}

/-! ### Files -/

/-- An entry about files. -/
def Entry.OfFiles : Entry → Prop
  | .began _ | .accessed .. | .made .. => True
  | .asked _ | .answered .. => False

/-- A refusal of the system. -/
def Fault.Refusal (e : Fault) : Prop := ∃ refusal, e = .system refusal

/-- Each access to a file stays within `R` and raises nothing but refusals; so do notes
in the books, and the beginning of an operation of `O`. -/
structure Link.Handles (link : Link σ) (R : World σ → World σ → Prop)
    (O : FileOperation → Prop) : Prop where
  read : ∀ path, (link.readFile path).Within R Fault.Refusal
  discard : ∀ path, (link.discardFile path).Within R Fault.Refusal
  move : ∀ source target, (link.moveFile source target).Within R Fault.Refusal
  make : ∀ path content,
    (Link.makeFile path content : Act σ Unit).Within R Fault.Refusal
  ensure : ∀ path, (Link.ensureDirectory path : Act σ Unit).Within R Fault.Refusal
  books : ∀ w books, R w { w with books }
  began : ∀ w o, O o → R w (w.enter (.began o))

variable {O : FileOperation → Prop}

theorem Link.Handles.mono {R' : World σ → World σ → Prop} (h : link.Handles R O)
    (hR : ∀ w w', R w w' → R' w w') : link.Handles R' O where
  read path := (h.read path).mono hR fun _ => id
  discard path := (h.discard path).mono hR fun _ => id
  move source target := (h.move source target).mono hR fun _ => id
  make path content := (h.make path content).mono hR fun _ => id
  ensure path := (h.ensure path).mono hR fun _ => id
  books w books := hR _ _ (h.books w books)
  began w o ho := hR _ _ (h.began w o ho)

/-- Fewer operations are asked for. -/
theorem Link.Handles.weaken {O' : FileOperation → Prop} (h : link.Handles R O)
    (hO : ∀ o, O' o → O o) : link.Handles R O' :=
  { h with began := fun w o ho => h.began w o (hO o ho) }

theorem Entry.ofFiles_of_disk? {e : Entry} {disk : Disk} (h : e.disk? = some disk) :
    e.OfFiles := by
  cases e <;> trivial

section

variable {J : World σ → World σ → Prop}

theorem noted_within (hnoted : ∀ (w w' : World σ) (e : Entry), J w w' → e.disk? = some w'.disk →
      R w (w'.enter e)) (entry : Option Fault → Disk → Entry)
    (hentry : ∀ fault disk, (entry fault disk).disk? = some disk) {a : Act σ α}
    (ha : a.Within J F) : (Act.noted entry a).Within R F := fun w => by
  refine (ends_noted entry).mpr ((ha w).mono ?_ ?_)
  · exact fun _ w' h => hnoted w w' _ h (hentry none w'.disk)
  · exact fun e w' h => ⟨h.1, hnoted w w' _ h.2 (hentry (some e) w'.disk)⟩

/-- Accesses to files, from what they are made of: the leave of the host and a change of
the disk stay within `J`, and an entry in the journal that shows the disk then leads to
`R`. -/
theorem Link.handles_of_noted [Course J]
    (hgate : ∀ a (w : World σ), J w { w with host := (link.gate a w.host).2 })
    (hdisk : ∀ (w : World σ) disk, J w { w with disk })
    (hnoted : ∀ (w w' : World σ) (e : Entry), J w w' → e.disk? = some w'.disk → R w (w'.enter e))
    (hbooks : ∀ (w : World σ) books, R w { w with books })
    (hbegan : ∀ (w : World σ) o, O o → R w (w.enter (.began o))) : link.Handles R O := by
  have hchange : ∀ f : World σ → Disk,
      (Act.change fun w => { w with disk := f w } : Act σ Unit).Within J
        Fault.Refusal := fun f w => hdisk w (f w)
  have hleave : ∀ a, (link.leave a).Within J Fault.Refusal := by
    intro a
    refine Within.bind (fun w => hgate a w) fun answer => ?_
    cases answer with
    | none => exact within_pure _
    | some code => exact within_raise ⟨_, rfl⟩
  have happly : ∀ (refusal : Nat → SystemError) (answer : Except Nat Disk),
      (Link.applyDisk refusal answer : Act σ Unit).Within J Fault.Refusal := by
    intro refusal answer
    cases answer with
    | ok disk => exact hchange fun _ => disk
    | error code => exact within_raise ⟨_, rfl⟩
  refine ⟨fun path => ?_, fun path => ?_, fun source target => ?_, fun path content => ?_,
    fun path => ?_, hbooks, hbegan⟩
  · refine noted_within hnoted (.accessed (.read path)) (fun _ _ => rfl)
      ((hleave _).bind fun _ => (within_look _).bind fun disk => ?_)
    split
    · exact within_pure _
    · exact within_raise ⟨_, rfl⟩
  · refine noted_within hnoted (.accessed (.remove path)) (fun _ _ => rfl)
      ((hleave _).bind fun _ => (within_look _).bind fun disk => ?_)
    split
    · next changed _ => exact hchange fun _ => changed
    · split
      · exact within_pure _
      · exact within_raise ⟨_, rfl⟩
  · exact noted_within hnoted (.accessed (.replace source target)) (fun _ _ => rfl)
      ((hleave _).bind fun _ => (within_look _).bind fun disk => happly _ _)
  · exact noted_within hnoted (.made path) (fun _ _ => rfl)
      ((within_look _).bind fun disk => happly _ _)
  · refine noted_within hnoted (.made path) (fun _ _ => rfl)
      ((within_look _).bind fun disk => ?_)
    refine (hchange fun _ => _).bind fun _ => ?_
    split
    · exact within_pure _
    · exact within_raise ⟨_, rfl⟩

/-- Where each of these stays within `R` by itself. -/
theorem Link.handles_of_course [Course R]
    (hgate : ∀ a (w : World σ), R w { w with host := (link.gate a w.host).2 })
    (hdisk : ∀ (w : World σ) disk, R w { w with disk })
    (henter : ∀ (w : World σ) (e : Entry), e.OfFiles → R w (w.enter e))
    (hbooks : ∀ (w : World σ) books, R w { w with books }) : link.Handles R fun _ => True :=
  handles_of_noted hgate hdisk
    (fun _ w' e h he => Course.trans h (henter w' e (Entry.ofFiles_of_disk? he))) hbooks
    fun w _ _ => henter w _ trivial

end

/-- Where refusals are caught, and nothing else is raised. -/
theorem Act.Within.rescue {a : Act σ α} (h : a.Within R Fault.Refusal) : a.rescue.Within R F :=
  fun w => by
    refine ends_rescue.mpr ((h w).mono (fun _ _ => id) ?_)
    rintro e w' ⟨⟨refusal, rfl⟩, hR⟩
    exact hR

section

variable [Course R] (hlink : link.Handles R O)

include hlink

omit hlink in
theorem writeAtomically_within_of_accesses {target : Path} {content : Bytes} {apart : List Path}
    (hensure : (Link.ensureDirectory target.parent : Act σ Unit).Within R Fault.Refusal)
    (hmake : ∀ disk, (Link.makeFile (temporaryFor disk target apart) content : Act σ Unit).Within R
      Fault.Refusal)
    (hmove : ∀ disk, (link.moveFile (temporaryFor disk target apart) target).Within R
      Fault.Refusal)
    (hdiscard : ∀ disk, (link.discardFile (temporaryFor disk target apart)).Within R
      Fault.Refusal) :
    (writeAtomically link target content apart).Within R Fault.Refusal := by
  refine hensure.bind fun _ => (within_look _).bind fun disk => ?_
  refine (hmake disk).bind fun _ => fun w => ?_
  rw [ends_bind, ends_outcome]
  refine (hmove disk w).mono (fun _ _ h => h) fun e w₁ he => ?_
  -- the fault of the move is raised again, after the temporary file has gone
  refine (hdiscard disk w₁).bind ?_ fun _ _ he' => ⟨he'.1, Course.trans he.2 he'.2⟩
  exact fun _ _ h => ⟨he.1, Course.trans he.2 h⟩

theorem writeAtomically_within (target : Path) (content : Bytes) (apart : List Path) :
    (writeAtomically link target content apart).Within R Fault.Refusal :=
  writeAtomically_within_of_accesses (hlink.ensure _) (fun _ => hlink.make _ _)
    (fun _ => hlink.move _ _) fun _ => hlink.discard _

namespace FileSet

omit hlink in
theorem removeLogged_within_of_discard {path : Path}
    (hdiscard : (link.discardFile path).Within R Fault.Refusal) :
    (removeLogged link path).Within R F := by
  refine hdiscard.rescue.bind fun answer => ?_
  cases answer with
  | ok _ => exact within_pure _
  | error e => exact within_say.bind fun _ => within_pure _

theorem removeLogged_within (path : Path) : (removeLogged link path).Within R F :=
  removeLogged_within_of_discard (hlink.discard path)

omit hlink in
theorem explained_within {problem : FileProblem} {path : Path} {a : Act σ α}
    (h : a.Within R Fault.Refusal) :
    (explained problem path a).Within R fun e => e.interrupts = false := by
  refine h.rescue.bind fun answer => ?_
  cases answer with
  | ok x => exact within_pure x
  | error e => exact within_raise rfl

omit hlink in
theorem removeStale_within_of_discard {paths : List Path}
    (hdiscard : ∀ path ∈ paths, (link.discardFile path).Within R Fault.Refusal) :
    (removeStale link paths).Within R fun e => e.interrupts = false := by
  induction paths with
  | nil => exact within_pure _
  | cons path rest ih =>
    rw [removeStale]
    refine (removeLogged_within_of_discard (hdiscard path (List.mem_cons_self ..))).bind
      fun removed => ?_
    split
    · exact ih fun path hpath => hdiscard path (List.mem_cons_of_mem _ hpath)
    · exact within_raise rfl

theorem removeStale_within (paths : List Path) :
    (removeStale link paths).Within R fun e => e.interrupts = false :=
  removeStale_within_of_discard fun path _ => hlink.discard path

omit [Course R] in
theorem changeBooks_within (f : Bookkeeping → Bookkeeping) :
    (changeBooks f : Act σ Unit).Within R F := fun w => hlink.books w (f w.books)

theorem copy_within (p : FilePaths) (unreadable : FileProblem) (active backup : Path) :
    (copy link p unreadable active backup).Within R fun e => e.interrupts = false :=
  (explained_within (hlink.read active)).bind fun _ =>
    (explained_within (writeAtomically_within hlink backup _ _)).bind fun _ =>
      changeBooks_within hlink _

theorem backupRaw_within (p : FilePaths) :
    (backupRaw link p).Within R fun e => e.interrupts = false := by
  refine (within_look _).bind fun disk => ?_
  split
  · exact (copy_within hlink p _ _ _).bind fun _ => changeBooks_within hlink _
  · exact within_say.bind fun _ => changeBooks_within hlink _

theorem backup_within (p : FilePaths) (hO : O .backup) :
    (backup link p).Within R fun e => e.interrupts = false :=
  Within.bind (fun w => hlink.began w .backup hO) fun _ =>
    (changeBooks_within hlink _).bind fun _ => (removeStale_within hlink _).bind fun _ =>
      (copy_within hlink p _ _ _).bind fun _ => (backupRaw_within hlink p).bind fun _ =>
        within_say

theorem persist_within (p : FilePaths) (rendered raw : Bytes) (hO : O .persist) :
    (persist link p rendered raw).Within R fun e => e.interrupts = false :=
  Within.bind (fun w => hlink.began w .persist hO) fun _ =>
    (explained_within (writeAtomically_within hlink _ _ _)).bind fun _ =>
      (explained_within (writeAtomically_within hlink _ _ _)).bind fun _ => within_say

omit hlink in
theorem restore_within_of_accesses {p : FilePaths} {active backup : Path}
    (hwrite : (do writeAtomically link active (← link.readFile backup) p.all).Within R
      Fault.Refusal) (hdiscard : (link.discardFile active).Within R Fault.Refusal) :
    (restore link p active backup).Within R F := by
  refine (within_look _).bind fun books => ?_
  split
  · refine hwrite.rescue.bind fun answer => ?_
    cases answer with
    | ok _ => exact within_pure _
    | error e => exact within_say.bind fun _ => within_pure _
  · split
    · exact removeLogged_within_of_discard hdiscard
    · exact within_say.bind fun _ => within_pure _

theorem restore_within (p : FilePaths) (active backup : Path) :
    (restore link p active backup).Within R F :=
  restore_within_of_accesses
    ((hlink.read backup).bind fun _ => writeAtomically_within hlink _ _ _) (hlink.discard active)

theorem revert_within (p : FilePaths) (hO : O .revert) : (revert link p).Within R F :=
  Within.bind (fun w => hlink.began w .revert hO) fun _ =>
    (restore_within hlink p _ _).bind fun _ => (restore_within hlink p _ _).bind fun _ =>
      within_pure _

theorem cleanup_within (p : FilePaths) (hO : O .cleanup) : (cleanup link p).Within R F :=
  Within.bind (fun w => hlink.began w .cleanup hO) fun _ =>
    (removeLogged_within hlink _).bind fun _ => (removeLogged_within hlink _).bind fun _ =>
      changeBooks_within hlink _

end FileSet

theorem Attempt.revertFiles_within (p : FilePaths) (hO : O .revert) :
    (Attempt.revertFiles link p).Within R fun e => e.interrupts = false := by
  refine (FileSet.revert_within hlink p hO).bind fun reverted => ?_
  split
  · exact within_pure _
  · exact within_raise rfl

end

/-! ### The enrichment -/

theorem Attempt.enrich_within [Course R] {raw : Bytes} (henrich : (link.ask (.enrich raw)).Within R F)
    (hordinary : ∀ e, e.interrupts = false → F e) : (Attempt.enrich link plan raw).Within R F := by
  rw [Attempt.enrich]
  split
  · refine henrich.caught.bind fun answer => ?_
    rcases answer with fault | content | typeName
    · exact within_raise (hordinary _ rfl)
    · exact within_pure _
    · exact within_raise (hordinary _ rfl)
  · exact within_pure _

/-! ### Phases -/

/-- Whether an event tells how far an attempt has come, but not of its end. -/
def Event.progresses : Event → Bool
  | .updateStarted .. | .phaseStarted .. | .phaseCompleted .. | .phaseFailed .. => true
  | .updateCompleted .. | .drainForced .. | .transmissionStopTimedOut .. => false

/-- A request that an attempt may make before its end: events are its own, or those of
no attempt. -/
def Request.Precedes (id : String) : Request → Prop
  | .publish (.updateCompleted ..) | .keepReport _ => False
  | .publish e => ∀ other, e.attemptId? = some other → other = id
  | _ => True

theorem Request.precedes_of_progresses {e : Event} {id : String} (h : e.progresses = true)
    (hid : e.attemptId? = some id) : (Request.publish e).Precedes id := by
  have hother : ∀ other, e.attemptId? = some other → other = id := fun _ hother =>
    Option.some.inj (hother.symm.trans hid)
  cases e <;> first | exact hother | cases h

theorem Request.precedes_of_isDrain {r : Request} (h : r.isDrain = true) (id : String) :
    r.Precedes id := by
  cases r with
  | publish e =>
    cases e with
    | drainForced | transmissionStopTimedOut => simp [Request.Precedes, Event.attemptId?]
    | _ => cases h
  | keepReport report => cases h
  | _ => trivial

theorem Request.precedes_of_isValidation {r : Request} (h : r.isValidation = true) (id : String) :
    r.Precedes id := by
  cases r <;> trivial

/-- What is told of an attempt before its end, and of its phases if they are among `S`,
stays within `N` and raises faults of `F`; so do the spans around its parts, and the
beginning of a phase. -/
structure Attempt.Told (a : Attempt) (link : Link σ) (N : World σ → World σ → Prop)
    (F : Fault → Prop) (S : Phase → Prop) : Prop where
  phase : ∀ (w : World σ) phase, N w { w with desk := { w.desk with phase } }
  publish : ∀ e : Event, e.progresses = true → e.attemptId? = some a.id →
    (∀ phase, e.phase? = some phase → S phase) → (link.ask (.publish e)).Within N F
  openSpan : ∀ name, (link.ask (.openSpan name)).Within N F
  annotateSpan : ∀ s key value, (link.ask (.annotateSpan s key value)).Within N F
  recordFault : ∀ s fault, (link.ask (.recordFault s fault)).Within N F
  closeSpan : ∀ s, (link.ask (.closeSpan s)).Within N F

/-- A span around a body. -/
theorem Tracing.withSpan_within [Course N] (hNR : Absorbs N R)
    (hopen : ∀ name, (link.ask (.openSpan name)).Within N F)
    (hannotate : ∀ s key value, (link.ask (.annotateSpan s key value)).Within N F)
    (hclose : ∀ s, (link.ask (.closeSpan s)).Within N F) (tracing : Bool) (name : String)
    (facts : List (String × Data)) {body : Option Span → Act σ α}
    (hbody : ∀ span, (body span).Within R F) :
    (withSpan link tracing name facts body).Within R F := by
  rw [withSpan]
  split
  · exact hNR.bind_before (hopen name) fun s => hNR.ensuring
      (hNR.bind_before (annotate_within s (hannotate s) facts) fun _ => hbody (some s)) (hclose s)
  · exact hbody none

/-- A phase once its beginning has been told. -/
def Attempt.continuePhase (link : Link σ) (plan : UpdatePlan) (a : Attempt) (phase : Phase)
    (kind : FailureKind) (action : Act σ (Option α)) : Act σ (PhaseResult α) := do
  let result ←
    Tracing.withPhaseSpan link plan.tracing phase (a.runAction link phase kind action)
  if result.ok then
    a.say .debug "Phase completed" [("phase", .text phase.text)]
    publish link (.phaseCompleted a.id phase)
  return result

theorem Attempt.runPhase_eq (a : Attempt) (phase : Phase) (kind : FailureKind)
    (action : Act σ (Option α)) : a.runPhase link plan phase kind action = (do
      Act.changeDesk fun d => { d with phase }
      publish link (.phaseStarted a.id phase)
      a.continuePhase link plan phase kind action) := rfl

/-- What is told of a phase after its beginning stays within `N` and raises faults of `F`;
so do the spans around its parts. -/
structure Attempt.Underway (a : Attempt) (link : Link σ) (N : World σ → World σ → Prop)
    (F : Fault → Prop) (phase : Phase) : Prop where
  failed : ∀ kind error, (link.ask (.publish (.phaseFailed a.id phase kind error))).Within N F
  completed : (link.ask (.publish (.phaseCompleted a.id phase))).Within N F
  openSpan : ∀ name, (link.ask (.openSpan name)).Within N F
  annotateSpan : ∀ s key value, (link.ask (.annotateSpan s key value)).Within N F
  recordFault : ∀ s fault, (link.ask (.recordFault s fault)).Within N F
  closeSpan : ∀ s, (link.ask (.closeSpan s)).Within N F

namespace Attempt.Underway

variable [Course N] {a : Attempt} {phase : Phase} (hunderway : a.Underway link N F phase)

include hunderway

theorem failPhase_within (kind : FailureKind) (span : Option Span) (fault : Fault) :
    (a.failPhase link phase kind span fault).Within N F := by
  have hrecord : (Tracing.recordFault link span fault).Within N F := by
    cases span with
    | none => exact within_pure _
    | some s => exact hunderway.recordFault s fault
  exact hrecord.bind fun _ => within_record.bind fun _ =>
    (Attempt.publish_within _ (hunderway.failed kind fault.describe)).weaken fun _ => And.left

variable (hNR : Absorbs N R)

include hNR

theorem runAction_within {action : Act σ (Option α)} (haction : action.Within R F)
    (kind : FailureKind) (span : Option Span) :
    (a.runAction link phase kind action span).Within R F := by
  refine hNR.bind_after haction.caught fun answer => ?_
  cases answer with
  | ok value => exact within_pure _
  | error fault =>
    exact (hunderway.failPhase_within kind span fault).bind fun _ => within_pure _

/-- What is left of a phase stays within what its action stays within. -/
theorem continuePhase_within {action : Act σ (Option α)} (haction : action.Within R F)
    (kind : FailureKind) : (a.continuePhase link plan phase kind action).Within R F := by
  refine hNR.bind_after (Tracing.withSpan_within hNR hunderway.openSpan hunderway.annotateSpan
    hunderway.closeSpan _ _ _ fun span => hunderway.runAction_within hNR haction kind span)
    fun result => ?_
  dsimp only
  split
  · exact within_record.bind fun _ =>
      ((Attempt.publish_within _ hunderway.completed).weaken fun _ => And.left).bind
        fun _ => within_pure _
  · exact within_pure _

end Attempt.Underway

namespace Attempt.Told

variable [Course N] {a : Attempt} {S : Phase → Prop} (htold : a.Told link N F S)

include htold

theorem publish_within (e : Event) (hprogresses : e.progresses = true)
    (hid : e.attemptId? = some a.id) (hS : ∀ phase, e.phase? = some phase → S phase) :
    (Attempt.publish link e).Within N F :=
  (Attempt.publish_within e (htold.publish e hprogresses hid hS)).weaken fun _ => And.left

variable {phase : Phase} (hS : S phase)

include hS

omit [Course N] in
theorem underway : a.Underway link N F phase where
  failed _ _ := htold.publish _ rfl rfl (by rintro _ ⟨⟩; exact hS)
  completed := htold.publish _ rfl rfl (by rintro _ ⟨⟩; exact hS)
  openSpan := htold.openSpan
  annotateSpan := htold.annotateSpan
  recordFault := htold.recordFault
  closeSpan := htold.closeSpan

variable (hNR : Absorbs N R)

include hNR

/-- So does the phase as a whole, with telling around it. -/
theorem runPhase_within {action : Act σ (Option α)} (haction : action.Within R F)
    (kind : FailureKind) : (a.runPhase link plan phase kind action).Within R F := by
  have henter : (Act.changeDesk fun d => { d with phase } : Act σ Unit).Within N F := fun w =>
    htold.phase w phase
  rw [runPhase_eq]
  exact hNR.bind_before henter fun _ =>
    hNR.bind_before (htold.publish_within (.phaseStarted a.id phase) rfl rfl
      (by rintro _ ⟨⟩; exact hS)) fun _ =>
        (htold.underway hS).continuePhase_within hNR haction kind

theorem runStep_within {action : Act σ Unit} (haction : action.Within R F)
    (kind : FailureKind) : (a.runStep link plan phase kind action).Within R F :=
  htold.runPhase_within hS hNR (hNR.bind_after haction fun _ => within_pure _) kind

omit hS in
/-- The drain stays within what draining the flow stays within. -/
theorem drainPhase_within (hdraining : S .draining)
    (hdrained : ∀ (w : World σ) drained, N w { w with desk := { w.desk with drained } })
    (hdrain : (drain link plan.drain true).Within R F) :
    (a.drainPhase link plan).Within R F := by
  have hphase : (a.runPhase link plan .draining .drainFailure do
      return some (← drain link plan.drain true)).Within R F :=
    htold.runPhase_within hdraining hNR (hNR.bind_after hdrain fun _ => within_pure _) _
  refine hNR.bind_after hphase fun r => ?_
  dsimp only
  split
  · exact Within.bind (fun w => hdrained w r.value) fun _ => within_pure _
  · exact within_pure _

end Attempt.Told

/-! ### A commit -/

namespace Attempt

/-- Phases that stay within a relation. -/
theorem firstFailure_within [Course R] {acts : List (Act σ (PhaseResult Unit))}
    (hacts : ∀ act ∈ acts, act.Within R F) : (firstFailure acts).Within R F := by
  induction acts with
  | nil => exact within_pure _
  | cons act acts ih =>
    rw [firstFailure]
    refine (hacts act (List.mem_cons_self ..)).bind fun r => ?_
    split
    · exact within_pure _
    · exact ih fun act hact => hacts act (List.mem_cons_of_mem _ hact)

/-- Phases of which one stands out. -/
theorem firstFailure_within_of_mem [Course N] (hNR : Absorbs N R)
    {before after : List (Act σ (PhaseResult Unit))} {act : Act σ (PhaseResult Unit)}
    (hbefore : ∀ act ∈ before, act.Within N F) (hact : act.Within R F)
    (hafter : ∀ act ∈ after, act.Within N F) :
    (firstFailure (before ++ act :: after)).Within R F := by
  induction before with
  | nil =>
    refine hNR.bind_after hact fun r => ?_
    split
    · exact within_pure _
    · exact firstFailure_within hafter
  | cons first before ih =>
    refine hNR.bind_before (hbefore first (List.mem_cons_self ..)) fun r => ?_
    split
    · exact hNR.within (within_pure _)
    · exact ih fun act hact => hbefore act (List.mem_cons_of_mem _ hact)

/-- The way back, of which the reload may stand out. -/
theorem rollBack_within_of_steps [Course N] (hNR : Absorbs N R) (a : Attempt)
    (hrevert : (a.runStep link plan .revertingFiles .fileOperation
      (revertFiles link plan.files)).Within N F)
    (hreload : (a.runStep link plan .reloadingReverted .revertReloadFailure
      (reloadReverted link plan.validation)).Within R F) (failed : PhaseFailure) :
    (a.rollBack link plan failed).Within R F := by
  refine hNR.bind_before within_record fun _ => hNR.bind_before hrevert fun reverted => ?_
  split
  · exact hNR.within (within_record.bind fun _ => within_pure _)
  · split
    · exact hNR.within (within_record.bind fun _ => within_pure _)
    · refine hNR.bind_after hreload fun reloaded => ?_
      split
      · exact within_record.bind fun _ => within_pure _
      · exact within_record.bind fun _ => within_pure _

/-- What a commit does stays within `N` and raises faults of `F`, but for the drain and
the start of the candidate, of which nothing is said. -/
structure Worked (a : Attempt) (link : Link σ) (plan : UpdatePlan)
    (N : World σ → World σ → Prop) (F : Fault → Prop) : Prop where
  told : a.Told link N F fun _ => True
  handles : link.Handles N (· ≠ .cleanup)
  ordinary : ∀ e, e.interrupts = false → F e
  load : (loadFlow link).Within N F
  reload : (a.runStep link plan .reloadingReverted .revertReloadFailure
    (reloadReverted link plan.validation)).Within N F

namespace Worked

variable [Course N] {a : Attempt} (hworked : a.Worked link plan N F)

include hworked

theorem runStep_within {action : Act σ Unit} (haction : action.Within N F) (phase : Phase)
    (kind : FailureKind) : (a.runStep link plan phase kind action).Within N F :=
  hworked.told.runStep_within trivial absorbs_self haction kind

theorem backup_within : (a.runStep link plan .backingUp .fileOperation
    (FileSet.backup link plan.files)).Within N F :=
  hworked.runStep_within ((FileSet.backup_within hworked.handles _ (by simp)).weaken
    hworked.ordinary) _ _

theorem persist_within (rendered raw : Bytes) : (a.runStep link plan .persisting .fileOperation
    (FileSet.persist link plan.files rendered raw)).Within N F :=
  hworked.runStep_within ((FileSet.persist_within hworked.handles _ _ _ (by simp)).weaken
    hworked.ordinary) _ _

theorem rollBack_within (failed : PhaseFailure) : (a.rollBack link plan failed).Within N F :=
  rollBack_within_of_steps absorbs_self a (hworked.runStep_within
    ((revertFiles_within hworked.handles plan.files (by simp)).weaken hworked.ordinary) _ _)
    hworked.reload failed

variable {raw rendered : Bytes} (hNR : Absorbs N R)

include hNR

/-- A commit of which one phase forward stands out. -/
theorem commit_within_of_mem {before after : List (Act σ (PhaseResult Unit))}
    {act : Act σ (PhaseResult Unit)}
    (hforward : a.forward link plan raw rendered = before ++ act :: after)
    (hbefore : ∀ act ∈ before, act.Within N F) (hact : act.Within R F)
    (hafter : ∀ act ∈ after, act.Within N F) :
    (a.commit link plan raw rendered).Within R F := by
  rw [commit, hforward]
  refine hNR.bind_after (firstFailure_within_of_mem hNR hbefore hact hafter) fun failed => ?_
  cases failed with
  | none => exact within_pure _
  | some failed => exact hworked.rollBack_within failed

/-- The drain may stand out. -/
theorem commit_within_of_drain (hdrain : (a.drainPhase link plan).Within R F)
    (hstart : (a.runStep link plan .validating .reloadFailure
      (validateAndStart link plan.validation true)).Within N F) :
    (a.commit link plan raw rendered).Within R F := by
  have hforward : a.forward link plan raw rendered = [_, _] ++ _ :: [_, _] := rfl
  refine hworked.commit_within_of_mem hNR hforward ?_ hdrain ?_
  · rw [List.forall_mem_cons, List.forall_mem_singleton]
    exact ⟨hworked.backup_within, hworked.persist_within rendered raw⟩
  · rw [List.forall_mem_cons, List.forall_mem_singleton]
    exact ⟨hworked.runStep_within hworked.load _ _, hstart⟩

/-- So may the start of the candidate. -/
theorem commit_within_of_start (hdrain : (a.drainPhase link plan).Within N F)
    (hstart : (a.runStep link plan .validating .reloadFailure
      (validateAndStart link plan.validation true)).Within R F) :
    (a.commit link plan raw rendered).Within R F := by
  have hforward : a.forward link plan raw rendered = [_, _, _, _] ++ _ :: [] := rfl
  refine hworked.commit_within_of_mem hNR hforward ?_ hstart fun _ hact => by cases hact
  rw [List.forall_mem_cons, List.forall_mem_cons, List.forall_mem_cons, List.forall_mem_singleton]
  exact ⟨hworked.backup_within, hworked.persist_within rendered raw, hdrain,
    hworked.runStep_within hworked.load _ _⟩

end Worked

/-- Where every request stays within a relation, so does a commit. -/
theorem commit_within_of_keeps [Course N] (a : Attempt)
    (hdesk : ∀ (w : World σ) (desk : Desk), desk.engaged = w.desk.engaged → N w { w with desk })
    (hhandles : link.Handles N (· ≠ .cleanup)) (hlink : link.Keeps N F fun _ => True)
    (hordinary : ∀ e, e.interrupts = false → F e) (raw rendered : Bytes) :
    (a.commit link plan raw rendered).Within N F := by
  have hask : ∀ r, (link.ask r).Within N F := fun r => hlink.ask r trivial
  have hkeeps : ∀ S, link.Keeps N F S := fun _ => hlink.mono fun _ _ => trivial
  have htold : a.Told link N F fun _ => True :=
    ⟨fun w phase => hdesk w { w.desk with phase } rfl, fun _ _ _ _ => hask _, fun _ => hask _,
      fun _ _ _ => hask _, fun _ _ => hask _, fun _ => hask _⟩
  have hload : (loadFlow link).Within N F := loadFlow_within (hask _) (hask _) hordinary
  have hstart : ∀ listens, (validateAndStart link plan.validation listens).Within N F :=
    fun listens => validateAndStart_within hordinary (hkeeps _) _ _ (hask _)
  have hworked : a.Worked link plan N F :=
    ⟨htold, hhandles, hordinary, hload, htold.runStep_within trivial absorbs_self
      (reloadReverted_within hload (hstart false) hordinary) _⟩
  exact hworked.commit_within_of_drain absorbs_self
    (htold.drainPhase_within absorbs_self trivial
      (fun w drained => hdesk w { w.desk with drained } rfl) (drain_within (hkeeps _) _ _))
    (hworked.runStep_within (hstart true) _ _)

end Attempt

/-! ### A whole attempt -/

/-- The requests of an attempt stay within `R` and raise faults of `F`; those that
close a span stay within `N`, which is within `R`, and raise faults of `C`.  Nothing is
said of the requests of its end. -/
structure Attempt.Framed (a : Attempt) (link : Link σ) (plan : UpdatePlan)
    (R N : World σ → World σ → Prop) (F C : Fault → Prop) : Prop where
  ordinary : ∀ e, e.interrupts = false → F e
  closing : ∀ e, C e → F e
  narrow : ∀ w w', N w w' → R w w'
  desk : ∀ (w : World σ) (desk : Desk), desk.engaged = w.desk.engaged → R w { w with desk }
  handles : link.Handles R fun _ => True
  publish : ∀ e : Event, e.progresses = true → e.attemptId? = some a.id →
    (link.ask (.publish e)).Within R F
  openSpan : ∀ name, (link.ask (.openSpan name)).Within R F
  annotateSpan : ∀ s key value, (link.ask (.annotateSpan s key value)).Within R F
  recordFault : ∀ s fault, (link.ask (.recordFault s fault)).Within R F
  closeSpan : ∀ s, (link.ask (.closeSpan s)).Within N C
  enrich : ∀ raw, (link.ask (.enrich raw)).Within R F
  drain : (drain link plan.drain true).Within R F
  load : (loadFlow link).Within R F
  start : ∀ listens, (validateAndStart link plan.validation listens).Within R F

/-- Each phase asks of the host what it is for; the start of the flow is looked at
apart. -/
theorem Attempt.framed_of_requests [Course R] (a : Attempt)
    (hordinary : ∀ e, e.interrupts = false → F e) (hC : ∀ e, C e → F e)
    (hN : ∀ w w', N w w' → R w w')
    (hdesk : ∀ (w : World σ) (desk : Desk), desk.engaged = w.desk.engaged → R w { w with desk })
    (hhandles : link.Handles R fun _ => True)
    (hlink : link.Keeps R F fun r => r ≠ .startProcessing ∧ r.Precedes a.id)
    (hclose : ∀ s, (link.ask (.closeSpan s)).Within N C)
    (hstart : ∀ listens, (validateAndStart link plan.validation listens).Within R F) :
    a.Framed link plan R N F C where
  ordinary := hordinary
  closing := hC
  narrow := hN
  desk := hdesk
  handles := hhandles
  publish e hprogresses hid :=
    hlink.ask _ ⟨by simp, Request.precedes_of_progresses hprogresses hid⟩
  openSpan _ := hlink.ask _ ⟨by simp, trivial⟩
  annotateSpan _ _ _ := hlink.ask _ ⟨by simp, trivial⟩
  recordFault _ _ := hlink.ask _ ⟨by simp, trivial⟩
  closeSpan := hclose
  enrich _ := hlink.ask _ ⟨by simp, trivial⟩
  drain := by
    refine drain_within (hlink.mono fun r hr => ?_) plan.drain true
    exact ⟨(by rintro rfl; cases hr), Request.precedes_of_isDrain hr a.id⟩
  load := loadFlow_within (hlink.ask _ ⟨by simp, trivial⟩) (hlink.ask _ ⟨by simp, trivial⟩)
    hordinary
  start := hstart

/-- Inside a span a body ends as outside, if opening and marking the span stay within
`R`; but closing it may fail. -/
theorem Tracing.ends_withSpan_framed [Course R] [Course N] {Q : α → World σ → World σ → Prop}
    (hopen : ∀ name, (link.ask (.openSpan name)).Within R F)
    (hannotate : ∀ s key value, (link.ask (.annotateSpan s key value)).Within R F)
    (hclose : ∀ s, (link.ask (.closeSpan s)).Within N C) (hC : ∀ e, C e → F e)
    (hN : ∀ w w', N w w' → R w w')
    (hQ : ∀ e x w w', C e → Q x w w' → R w w') (tracing : Bool) (name : String)
    (facts : List (String × Data)) {body : Option Span → Act σ α}
    (hbody : ∀ span w, (body span).Ends w (fun x w' => Q x w w') fun e w' => F e ∧ R w w')
    (w : World σ) :
    (withSpan link tracing name facts body).Ends w
      (fun x w' => ∃ w₁ w₂, R w w₁ ∧ Q x w₁ w₂ ∧ N w₂ w') fun e w' => F e ∧ R w w' := by
  rw [withSpan]
  split
  · refine (hopen name w).bind (fun s w₁ h₁ => ?_) fun _ _ he => he
    have hbegun : (do annotate link s facts; body (some s)).Ends w₁
        (fun x w₃ => ∃ w₂, R w₁ w₂ ∧ Q x w₂ w₃) fun e w₃ => F e ∧ R w₁ w₃ := by
      refine (annotate_within s (hannotate s) facts w₁).bind (fun _ w₂ h₂ => ?_) fun _ _ he => he
      exact (hbody (some s) w₂).mono (fun _ _ h => ⟨w₂, h₂, h⟩) fun _ _ he =>
        ⟨he.1, Course.trans h₂ he.2⟩
    refine ends_ensuring.mpr (hbegun.mono ?_ ?_)
    · rintro x w₃ ⟨w₂, h₂, h₃⟩
      refine (hclose s w₃).mono (fun _ _ h₄ => ⟨w₂, w₃, Course.trans h₁ h₂, h₃, h₄⟩) ?_
      -- what the body has done still counts, when the span cannot be closed
      rintro e w₄ ⟨he, h₄⟩
      have h₃' := Course.trans (hQ e x _ _ he h₃) (hN _ _ h₄)
      exact ⟨hC e he, Course.trans h₁ (Course.trans h₂ h₃')⟩
    · rintro e w₃ ⟨he, h₃⟩
      refine (hclose s w₃).mono (fun _ _ h₄ => ⟨he, ?_⟩) fun e' _ he' => ⟨hC e' he'.1, ?_⟩
      · exact Course.trans h₁ (Course.trans h₃ (hN _ _ h₄))
      · exact Course.trans h₁ (Course.trans h₃ (hN _ _ he'.2))
  · exact (hbody none w).mono (fun _ w' h => ⟨w, w', Course.refl w, h, Course.refl w'⟩)
      fun _ _ he => he

/-- A phase that succeeds has ended its action as the action ends where it does not fail;
telling around it does not count. -/
theorem Attempt.Told.ends_runPhase [Course N] {a : Attempt} {S : Phase → Prop}
    (htold : a.Told link N F S) {phase : Phase} (hS : S phase) (kind : FailureKind)
    {Y : World σ → World σ → Prop} (hY : ∀ {w w'}, Y w w' → N w w')
    (hbefore : ∀ {w w' w''}, N w w' → Y w' w'' → Y w w'')
    (hafter : ∀ {w w' w''}, Y w w' → N w' w'' → Y w w'') {action : Act σ (Option α)}
    (haction : ∀ w, action.Ends w (fun _ w' => Y w w') fun e w' => F e ∧ N w w') (w : World σ) :
    (a.runPhase link plan phase kind action).Ends w
      (fun r w' => N w w' ∧ (r.failed? = none → Y w w')) fun e w' => F e ∧ N w w' := by
  have hbody : ∀ span w, (a.runAction link phase kind action span).Ends w
      (fun r w' => N w w' ∧ (r.failed? = none → Y w w')) fun e w' => F e ∧ N w w' := by
    intro span w
    rw [runAction, ends_bind, ends_guarded]
    refine (haction w).mono (fun _ _ h => ⟨hY h, fun _ => h⟩) fun e w₁ he => ?_
    split
    · exact he
    · refine ((htold.underway hS).failPhase_within kind span e w₁).bind (fun _ w₂ h₂ => ?_) fun _ _ he' =>
        ⟨he'.1, Course.trans he.2 he'.2⟩
      exact ⟨Course.trans he.2 h₂, fun h => by cases h⟩
  rw [runPhase_eq, ends_bind, ends_changeDesk]
  have h₁ := htold.phase w phase
  refine (htold.publish_within (.phaseStarted a.id phase) rfl rfl (by rintro _ ⟨⟩; exact hS) _).bind
    (fun _ w₂ h₂ => ?_) fun _ _ he => ⟨he.1, Course.trans h₁ he.2⟩
  have h₁₂ := Course.trans h₁ h₂
  refine (Tracing.ends_withSpan_framed (Q := fun r w w' => N w w' ∧ (r.failed? = none → Y w w'))
    htold.openSpan htold.annotateSpan htold.closeSpan (fun _ he => he) (fun _ _ h => h)
    (fun _ _ _ _ _ h => h.1) _ _ _ hbody w₂).bind ?_ fun _ _ he => ⟨he.1, Course.trans h₁₂ he.2⟩
  rintro r w₅ ⟨w₃, w₄, h₃, ⟨h₄, hr⟩, h₅⟩
  have hN : N w w₅ := Course.trans h₁₂ (Course.trans h₃ (Course.trans h₄ h₅))
  have hend : r.failed? = none → Y w w₅ := fun hfailed =>
    hafter (hbefore (Course.trans h₁₂ h₃) (hr hfailed)) h₅
  dsimp only
  split
  · rw [ends_bind, say, Act.say, ends_record]
    have h₆ := Course.log (R := N) w₅
    refine (htold.publish_within (.phaseCompleted a.id phase) rfl rfl (by rintro _ ⟨⟩; exact hS)
      _).bind (fun _ w₇ h₇ => ?_) fun _ _ he =>
        ⟨he.1, Course.trans hN (Course.trans (h₆ _) he.2)⟩
    have h₆₇ := Course.trans (h₆ _) h₇
    exact ⟨Course.trans hN h₆₇, fun hfailed => hafter (hend hfailed) h₆₇⟩
  · exact ⟨hN, hend⟩

namespace Attempt

variable [Course R] {a : Attempt} (hframed : a.Framed link plan R N F C) {Q : UpdateReport →
  World σ → World σ → Prop}

namespace Framed

include hframed

omit [Course R] in
theorem told : a.Told link R F fun _ => True where
  phase w phase := hframed.desk w { w.desk with phase } rfl
  publish e hprogresses hid _ := hframed.publish e hprogresses hid
  openSpan := hframed.openSpan
  annotateSpan := hframed.annotateSpan
  recordFault := hframed.recordFault
  closeSpan s := (hframed.closeSpan s).mono hframed.narrow hframed.closing

theorem runPhase_within {action : Act σ (Option α)} (haction : action.Within R F) (phase : Phase)
    (kind : FailureKind) : (a.runPhase link plan phase kind action).Within R F :=
  hframed.told.runPhase_within trivial absorbs_self haction kind

theorem runStep_within {action : Act σ Unit} (haction : action.Within R F) (phase : Phase)
    (kind : FailureKind) : (a.runStep link plan phase kind action).Within R F :=
  hframed.told.runStep_within trivial absorbs_self haction kind

/-- So does what its commit does. -/
theorem worked : a.Worked link plan R F where
  told := hframed.told
  handles := hframed.handles.weaken fun _ _ => trivial
  ordinary := hframed.ordinary
  load := hframed.load
  reload := hframed.runStep_within
    (reloadReverted_within hframed.load (hframed.start false) hframed.ordinary) _ _

theorem commit_within (raw rendered : Bytes) : (a.commit link plan raw rendered).Within R F :=
  hframed.worked.commit_within_of_drain absorbs_self
    (hframed.told.drainPhase_within absorbs_self trivial
      (fun w drained => hframed.desk w { w.desk with drained } rfl) hframed.drain)
    (hframed.runStep_within (hframed.start true) _ _)

theorem transaction_within (raw rendered : Bytes) :
    (FileSet.transaction link plan.files (a.commit link plan raw rendered)).Within R F := fun w => by
  have hcleanup := FileSet.cleanup_within hframed.handles plan.files trivial (F := F)
  refine ends_ensuring.mpr ((hframed.commit_within raw rendered w).mono ?_ ?_)
  · exact fun _ w₁ h₁ => (hcleanup w₁).mono (fun _ _ => Course.trans h₁) fun _ _ he =>
      ⟨he.1, Course.trans h₁ he.2⟩
  · exact fun _ w₁ he => (hcleanup w₁).mono (fun _ _ h => ⟨he.1, Course.trans he.2 h⟩)
      fun _ _ he' => ⟨he'.1, Course.trans he.2 he'.2⟩

end Framed

/-! ### Up to the end, and from there on -/

variable (hfinish : ∀ o drained w, (a.finish link plan o drained).Ends w
    (fun report w' => Q report w w') fun e w' => G e ∧ R w w')
  (hQ : ∀ e report w w', C e → Q report w w' → R w w')

include hframed hfinish

theorem ends_runPhases_framed (raw : Bytes) (w : World σ) :
    (a.runPhases link plan raw).Ends w (fun report w' => ∃ w₁, R w w₁ ∧ Q report w₁ w')
      fun e w' => (F e ∨ G e) ∧ R w w' := by
  have hend : ∀ o drained w₁, R w w₁ → (a.finish link plan o drained).Ends w₁
      (fun report w' => ∃ w₁, R w w₁ ∧ Q report w₁ w') fun e w' => (F e ∨ G e) ∧ R w w' :=
    fun o drained w₁ h₁ => (hfinish o drained w₁).mono (fun _ _ h => ⟨w₁, h₁, h⟩)
      fun _ _ he => ⟨.inr he.1, Course.trans h₁ he.2⟩
  rw [runPhases]
  refine (hframed.runPhase_within (enrich_within (hframed.enrich raw) hframed.ordinary) _ _ w).bind ?_
    fun _ _ he => ⟨.inl he.1, he.2⟩
  intro enriched w₁ h₁
  cases enriched.failed? with
  | some failed =>
    dsimp only
    rw [ends_bind, say, Act.say, ends_record, ends_bind, ends_desk]
    exact hend _ _ _ (Course.trans h₁ (Course.log w₁ _))
  | none =>
    dsimp only
    cases enriched.value with
    | none => exact ⟨.inl (hframed.ordinary _ rfl), h₁⟩
    | some rendered =>
      refine (hframed.transaction_within raw rendered w₁).bind ?_
        fun _ _ he => ⟨.inl he.1, Course.trans h₁ he.2⟩
      intro outcome w₂ h₂
      rw [ends_bind, ends_desk]
      exact hend _ _ _ (Course.trans h₁ h₂)

include hQ

variable [Course N]

/-- Inside its span an attempt stays within `R` up to its end, and after it; if it is
left by a fault, it has stayed within `R`. -/
theorem ends_traced_framed (raw : Bytes) (w : World σ) :
    (Tracing.withUpdateSpan link plan.tracing a.id (some a.digest) fun _ =>
      a.runPhases link plan raw).Ends w
      (fun report w' => ∃ w₁ w₂, R w w₁ ∧ Q report w₁ w₂ ∧ N w₂ w')
      fun e w' => (F e ∨ G e) ∧ R w w' := by
  have htold : ∀ e report w w', C e → (∃ w₁, R w w₁ ∧ Q report w₁ w') → R w w' := by
    rintro e report w w' he ⟨w₁, h₁, h⟩
    exact Course.trans h₁ (hQ e report w₁ w' he h)
  have hweaken : ∀ {α : Type} {b : Act σ α}, b.Within R F → b.Within R fun e => F e ∨ G e :=
    fun h => h.weaken fun _ => .inl
  refine Ends.mono (Tracing.ends_withSpan_framed (fun name => hweaken (hframed.openSpan name))
    (fun s key value => hweaken (hframed.annotateSpan s key value)) hframed.closeSpan
    (fun e he => .inl (hframed.closing e he)) hframed.narrow htold _ _ _
    (fun _ w => ends_runPhases_framed hframed hfinish raw w) w) ?_ fun _ _ he => he
  rintro report w' ⟨w₁, w₃, h₁, ⟨w₂, h₂, hend⟩, h₃⟩
  exact ⟨w₂, w₃, Course.trans h₁ h₂, hend, h₃⟩

/-- So does the attempt as a whole. -/
theorem ends_perform_framed (raw : Bytes) (w : World σ) :
    (a.perform link plan raw).Ends w
      (fun report w' => ∃ w₁ w₂, R w w₁ ∧ Q report w₁ w₂ ∧ N w₂ w')
      fun e w' => (F e ∨ G e) ∧ R w w' := by
  rw [perform]
  refine (within_record (R := R) (F := fun _ => False) w).bind (fun _ w₁ h₁ => ?_)
    fun _ _ he => he.1.elim
  refine (within_record (R := R) (F := fun _ => False) w₁).bind (fun _ w₂ h₂ => ?_)
    fun _ _ he => he.1.elim
  have h₁₂ := Course.trans h₁ h₂
  refine (hframed.told.publish_within (.updateStarted a.id a.digest a.size) rfl rfl
    (fun _ _ => trivial) w₂).bind
    (fun _ w₃ h₃ => ?_) fun _ _ he => ⟨.inl he.1, Course.trans h₁₂ he.2⟩
  have h₁₃ := Course.trans h₁₂ h₃
  refine (ends_traced_framed hframed hfinish hQ raw w₃).mono ?_ fun _ _ he =>
    ⟨he.1, Course.trans h₁₃ he.2⟩
  exact fun report w' ⟨w₄, w₅, h₄, hend, h₅⟩ => ⟨w₄, w₅, Course.trans h₁₃ h₄, hend, h₅⟩

/-- Where an ordinary fault has left an attempt, it ends all the same. -/
theorem ends_attempt_framed (raw : Bytes) (w : World σ) :
    (Updater.attempt link plan a raw).Ends w
      (fun report w' => ∃ w₁ w₂, R w w₁ ∧ Q report w₁ w₂ ∧ N w₂ w')
      fun e w' => ((F e ∨ G e) ∧ e.interrupts = true ∨ G e) ∧ R w w' := by
  rw [Updater.attempt, ends_bind, ends_guarded]
  refine (ends_perform_framed hframed hfinish hQ raw w).mono (fun _ _ h => h) fun e w₁ he => ?_
  split
  · next hi => exact ⟨.inl ⟨he.1, hi⟩, he.2⟩
  · show (Updater.finishUnexpected link plan a e).Ends w₁ _ _
    rw [Updater.finishUnexpected, ends_bind, ends_desk, ends_bind, sayFault, ends_record]
    refine (hfinish _ _ _).mono ?_ ?_
    · exact fun _ w' h => ⟨_, w', Course.trans he.2 (Course.log w₁ _), h, Course.refl w'⟩
    · exact fun _ _ he' => ⟨.inr he'.1, Course.trans he.2 (Course.trans (Course.log w₁ _) he'.2)⟩

end Attempt

/-! ### On a free desk, and on one that is taken -/

namespace Updater

variable {raw : Bytes} {w : World σ} {P : UpdateReport → World σ → Prop}
  {E : Fault → World σ → Prop}

/-- The attempt that begins in a world. -/
def newAttempt (link : Link σ) (raw : Bytes) (w : World σ) : Attempt where
  id := (link.freshId w.host).1
  digest := Text.hex (Codec.sha256 raw)
  size := raw.length
  startedAt := (link.now (link.freshId w.host).2).1

/-- What the host makes of the beginning of an attempt. -/
def afterStart (link : Link σ) (w : World σ) : World σ :=
  { w with host := (link.now (link.freshId w.host).2).2 }

/-- The world with the desk as `Updater.engage` leaves it. -/
def engaged (w : World σ) : World σ :=
  { w with desk := { w.desk with engaged := true, token := some false, drained := none,
                                 queuePolls := 0 } }

/-- The world with the desk as `Updater.release` leaves it. -/
def released (w : World σ) : World σ :=
  { w with desk := { w.desk with engaged := false, phase := .idle, token := none, drained := none,
                                 queuePolls := 0 } }

theorem ends_apply_iff : (apply link plan raw).Ends w P E ↔
    (if w.desk.engaged then do
        (newAttempt link raw w).say .warning
          "Flow configuration update already in progress, refusing concurrent update" []
        (newAttempt link raw w).finish link plan refused none
      else do
        engage
        (attempt link plan (newAttempt link raw w) raw).ensuring release).Ends
      (afterStart link w) P E := Iff.rfl

/-- On a free desk an attempt begins, and gives the desk back in the end. -/
theorem ends_apply_of_free (hfree : w.desk.engaged = false) :
    (apply link plan raw).Ends w P E ↔
      (attempt link plan (newAttempt link raw w) raw).Ends (engaged (afterStart link w))
        (fun report w' => P report (released w')) fun e w' => E e (released w') := by
  rw [ends_apply_iff, hfree, if_neg (by simp), ends_bind, engage, ends_changeDesk, ends_ensuring]
  rfl

/-- On a desk that is taken an attempt ends at once. -/
theorem ends_apply_of_engaged (hbusy : w.desk.engaged = true) :
    (apply link plan raw).Ends w P E ↔
      (do
        (newAttempt link raw w).say .warning
          "Flow configuration update already in progress, refusing concurrent update" []
        (newAttempt link raw w).finish link plan refused none).Ends (afterStart link w) P E := by
  rw [ends_apply_iff, hbusy, if_pos rfl]

end Updater

end HotSwap
