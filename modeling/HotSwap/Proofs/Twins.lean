/-
Two runs of an updater that go alike.

The worlds of the two runs differ in their logs, in what came before in their
journals and in how the hosts keep their states; where identifiers and times do not
matter they may differ in these.  A cancellation token is only looked at on the way
forward, so on the way back the one may have been cancelled and the other not.

* `Event.Like`, `Request.Like`, `UpdateReport.Like`, `Entry.Like` — the same up to
  identifiers and times;
* `Comparison` — what is compared, and how strictly;
* `Twins` — two worlds in the middle of an attempt that go alike;
* `Link.Mirrors` — two links that answer alike;
* `Link.Accords` — the same, but for what is only told to the observers and the history;
* `FileSet.backup_tracks`, `FileSet.persist_tracks`, … — the work on the files goes alike.
-/
import HotSwap.Proofs.Pairs
import HotSwap.Update.Updater

namespace HotSwap

open Act

/-! ### The same up to identifiers and times -/

/-- Equal, or, where that does not matter, anything. -/
def Loosely {α : Type} (loose : Prop) (x y : α) : Prop := loose ∨ x = y

namespace Loosely

variable {α β γ : Type} {loose : Prop}

theorem rfl {x : α} : Loosely loose x x := .inr (.refl x)

theorem map {x y : α} (f : α → β) (h : Loosely loose x y) : Loosely loose (f x) (f y) :=
  h.imp_right (congrArg f)

theorem map₂ {x x' : α} {y y' : β} (f : α → β → γ) (h : Loosely loose x x')
    (h' : Loosely loose y y') : Loosely loose (f x y) (f x' y') := by
  rcases h, h' with ⟨h | rfl, h' | rfl⟩
  · exact .inl h
  · exact .inl h
  · exact .inl h'
  · exact .rfl

theorem eq {x y : α} (h : Loosely False x y) : x = y := h.resolve_left id

end Loosely

/-- Two events that tell the same. -/
inductive Event.Like (loose : Prop) : Event → Event → Prop
  | updateStarted {id id' : String} (h : Loosely loose id id') (digest : String) (bytes : Nat) :
      Like loose (.updateStarted id digest bytes) (.updateStarted id' digest bytes)
  | phaseStarted {id id' : String} (h : Loosely loose id id') (phase : Phase) :
      Like loose (.phaseStarted id phase) (.phaseStarted id' phase)
  | phaseCompleted {id id' : String} (h : Loosely loose id id') (phase : Phase) :
      Like loose (.phaseCompleted id phase) (.phaseCompleted id' phase)
  | phaseFailed {id id' : String} (h : Loosely loose id id') (phase : Phase)
      (kind : FailureKind) (error : String) :
      Like loose (.phaseFailed id phase kind error) (.phaseFailed id' phase kind error)
  | drainForced (polls : Nat) {id id' : String} (h : Loosely loose id id') :
      Like loose (.drainForced polls id) (.drainForced polls id')
  | transmissionStopTimedOut (endpointId : String) (timeout : Float) :
      Like loose (.transmissionStopTimedOut endpointId timeout)
        (.transmissionStopTimedOut endpointId timeout)
  | updateCompleted {id id' : String} (h : Loosely loose id id') (state : Phase)
      (succeeded : Bool) {duration duration' : Int} (h' : Loosely loose duration duration')
      (kind : Option FailureKind) :
      Like loose (.updateCompleted id state succeeded duration kind)
        (.updateCompleted id' state succeeded duration' kind)

/-- Two reports of the same. -/
structure UpdateReport.Like (loose : Prop) (r r' : UpdateReport) : Prop where
  attemptId : Loosely loose r.attemptId r'.attemptId
  state : r.state = r'.state
  candidateDigest : r.candidateDigest = r'.candidateDigest
  startedAt : Loosely loose r.startedAt r'.startedAt
  completedAt : Loosely loose r.completedAt r'.completedAt
  failedPhase : r.failedPhase = r'.failedPhase
  failureKind : r.failureKind = r'.failureKind
  error : r.error = r'.error
  rollbackError : r.rollbackError = r'.rollbackError
  drain : r.drain = r'.drain

/-- Two requests for the same. -/
inductive Request.Like (loose : Prop) : Request → Request → Prop
  | rfl {r : Request} : Like loose r r
  | publish {e e' : Event} (h : e.Like loose e') : Like loose (.publish e) (.publish e')
  | annotateId (s : Span) {id id' : String} (h : Loosely loose id id') :
      Like loose (.annotateSpan s "update.attempt_id" (.text id))
        (.annotateSpan s "update.attempt_id" (.text id'))
  | dropAllQueued {id id' : String} (h : Loosely loose id id') (requestor : String) :
      Like loose (.dropAllQueued id requestor) (.dropAllQueued id' requestor)
  | keepReport {r r' : UpdateReport} (h : r.Like loose r') :
      Like loose (.keepReport r) (.keepReport r')

/-- Two entries about the same. -/
inductive Entry.Like (loose : Prop) : Entry → Entry → Prop
  | rfl {e : Entry} : Like loose e e
  | asked {r r' : Request} (h : r.Like loose r') : Like loose (.asked r) (.asked r')
  | answered {r r' : Request} (h : r.Like loose r') {answer : Except Fault r.Answer}
      {answer' : Except Fault r'.Answer} (h' : Matched (fun x y => HEq x y) answer answer') :
      Like loose (.answered r answer) (.answered r' answer')

/-- Two replies to an order that say the same. -/
inductive Reply.Like (loose : Prop) : Reply → Reply → Prop
  | rfl {r : Reply} : Like loose r r
  | report {r r' : UpdateReport} (h : r.Like loose r') : Like loose (.report r) (.report r')

theorem Event.Like.eq {e e' : Event} (h : e.Like False e') : e = e' := by
  cases h with
  | updateStarted h digest bytes => rw [h.eq]
  | phaseStarted h phase => rw [h.eq]
  | phaseCompleted h phase => rw [h.eq]
  | phaseFailed h phase kind error => rw [h.eq]
  | drainForced polls h => rw [h.eq]
  | transmissionStopTimedOut endpointId timeout => rfl
  | updateCompleted h state succeeded h' kind => rw [h.eq, h'.eq]

namespace UpdateReport.Like

variable {loose : Prop} {r r' : UpdateReport}

theorem eq (h : r.Like False r') : r = r' := by
  obtain ⟨h₁, h₂, h₃, h₄, h₅, h₆, h₇, h₈, h₉, h₁₀⟩ := h
  cases r
  cases r'
  simp only [UpdateReport.mk.injEq]
  exact ⟨h₁.eq, h₂, h₃, h₄.eq, h₅.eq, h₆, h₇, h₈, h₉, h₁₀⟩

theorem succeeded (h : r.Like loose r') : r.succeeded = r'.succeeded := by
  rw [UpdateReport.succeeded, UpdateReport.succeeded, h.state]

end UpdateReport.Like

theorem Request.Like.eq {r r' : Request} (h : r.Like False r') : r = r' := by
  cases h with
  | rfl => rfl
  | publish h => rw [h.eq]
  | annotateId s h => rw [h.eq]
  | dropAllQueued h requestor => rw [h.eq]
  | keepReport h => rw [h.eq]

theorem Entry.Like.eq {e e' : Entry} (h : e.Like False e') : e = e' := by
  cases h with
  | rfl => rfl
  | asked h => rw [h.eq]
  | answered h h' =>
    obtain rfl := h.eq
    rw [h'.of_heq]

theorem Reply.Like.eq {r r' : Reply} (h : r.Like False r') : r = r' := by
  cases h with
  | rfl => rfl
  | report h => rw [h.eq]

/-- Two attempts at the same. -/
structure Attempt.Like (loose : Prop) (a a' : Attempt) : Prop where
  id : Loosely loose a.id a'.id
  digest : a.digest = a'.digest
  size : a.size = a'.size
  startedAt : Loosely loose a.startedAt a'.startedAt

/-- The reports of the same end of two attempts at the same. -/
theorem Attempt.Like.report {loose : Prop} {a a' : Attempt} (h : a.Like loose a') (o : Outcome)
    (drained : Option DrainReport) {completedAt completedAt' : Int}
    (hcompleted : Loosely loose completedAt completedAt') :
    (a.report o drained completedAt).Like loose (a'.report o drained completedAt') where
  attemptId := h.id
  state := rfl
  candidateDigest := h.digest
  startedAt := h.startedAt.map Stamp.utc
  completedAt := hcompleted.map Stamp.utc
  failedPhase := rfl
  failureKind := rfl
  error := rfl
  rollbackError := rfl
  drain := rfl

/-! ### Two worlds -/

/-- Whether a phase is one of the way back. -/
def Phase.isWayBack : Phase → Bool
  | .revertingFiles | .reloadingReverted => true
  | _ => false

/-- What is compared in two runs. -/
structure Comparison (σ τ : Type) where
  /-- The states of the two hosts belong together. -/
  host : σ → τ → Prop
  /-- Whether the first run may hold refused updates that the second one lacks;
  identifiers, times and the candidates that wait may then differ. -/
  loose : Prop
  /-- The two journals belong together. -/
  journal : List Entry → List Entry → Prop
  enter : ∀ {j j' e e'}, journal j j' → Entry.Like loose e e' → journal (j ++ [e]) (j' ++ [e'])

/-- Two tokens are the same; on the way back it is enough that there are two. -/
def TokensAlike (p : Phase) (t t' : Option Bool) : Prop :=
  t = t' ∨ p.isWayBack = true ∧ t.isSome = true ∧ t'.isSome = true

namespace TokensAlike

variable {p : Phase} {t t' : Option Bool}

theorem isSome_eq (h : TokensAlike p t t') : t.isSome = t'.isSome := by
  rcases h with rfl | ⟨-, h, h'⟩
  · rfl
  · rw [h, h']

theorem eq (h : TokensAlike p t t') (hp : p.isWayBack = false) : t = t' :=
  h.resolve_right fun h => by simp [hp] at h

/-- On the way back, and not before, tokens may come to differ. -/
theorem of_phase {p' : Phase} (h : TokensAlike p t t')
    (hp : p.isWayBack = true → p'.isWayBack = true) : TokensAlike p' t t' :=
  h.imp_right fun ⟨hback, hsome⟩ => ⟨hp hback, hsome⟩

theorem cancelled (h : TokensAlike p t t') :
    TokensAlike p (t.map fun _ => true) (t'.map fun _ => true) := by
  rcases h with rfl | ⟨hp, h, h'⟩
  · exact .inl rfl
  · exact .inr ⟨hp, by simpa using h, by simpa using h'⟩

end TokensAlike

variable {σ τ α β : Type} {κ : Comparison σ τ} {p p' : Phase} {w : World σ} {v : World τ}

/-- Two worlds in the same phase of an attempt, from which it goes on alike. -/
structure Twins (κ : Comparison σ τ) (p : Phase) (w : World σ) (v : World τ) : Prop where
  engaged : w.desk.engaged = true
  engaged' : v.desk.engaged = true
  phase : w.desk.phase = p
  phase' : v.desk.phase = p
  token : TokensAlike p w.desk.token v.desk.token
  polls : w.desk.queuePolls = v.desk.queuePolls
  drained : w.desk.drained = v.desk.drained
  waiting : ¬ κ.loose → w.desk.waiting = v.desk.waiting
  books : w.books = v.books
  disk : w.disk = v.disk
  host : κ.host w.host v.host
  journal : κ.journal w.journal v.journal

namespace Twins

theorem enter (h : Twins κ p w v) {e e' : Entry} (he : e.Like κ.loose e') :
    Twins κ p (w.enter e) (v.enter e') :=
  { h with journal := κ.enter h.journal he }

theorem withHost (h : Twins κ p w v) {s : σ} {t : τ} (hst : κ.host s t) :
    Twins κ p { w with host := s } { v with host := t } :=
  { h with host := hst }

theorem withDisk (h : Twins κ p w v) (disk : Disk) :
    Twins κ p { w with disk } { v with disk } :=
  { h with disk := rfl }

theorem withBooks (h : Twins κ p w v) (books : Bookkeeping) :
    Twins κ p { w with books } { v with books } :=
  { h with books := rfl }

theorem withPolls (h : Twins κ p w v) (n : Nat) :
    Twins κ p { w with desk := { w.desk with queuePolls := n } }
      { v with desk := { v.desk with queuePolls := n } } :=
  { h with polls := rfl }

theorem withDrained (h : Twins κ p w v) (drained : Option DrainReport) :
    Twins κ p { w with desk := { w.desk with drained } } { v with desk := { v.desk with drained } } :=
  { h with drained := rfl }

/-- The next phase; from the way back no phase of the way forward follows. -/
theorem withPhase (h : Twins κ p w v) (hp : p.isWayBack = true → p'.isWayBack = true) :
    Twins κ p' { w with desk := { w.desk with phase := p' } }
      { v with desk := { v.desk with phase := p' } } :=
  { h with phase := rfl, phase' := rfl, token := h.token.of_phase hp }

/-- A loop that listens to its token stops in both worlds or in none, where tokens
count. -/
theorem cancelled (h : Twins κ p w v) (hp : p.isWayBack = false) :
    w.desk.cancelled = v.desk.cancelled := by
  rw [Desk.cancelled, Desk.cancelled, h.token.eq hp]

end Twins

/-! ### Two links -/

/-- Two links through which the same requests are answered alike. -/
structure Link.Mirrors (κ : Comparison σ τ) (link : Link σ) (link' : Link τ) : Prop where
  ask : ∀ {p r r'}, Request.Like κ.loose r r' →
    Tracks (Twins κ p) (link.ask r) (link'.ask r') fun x y => HEq x y
  gate : ∀ a {s t}, κ.host s t →
    (link.gate a s).1 = (link'.gate a t).1 ∧ κ.host (link.gate a s).2 (link'.gate a t).2
  freshId : ∀ {s t}, κ.host s t → Loosely κ.loose (link.freshId s).1 (link'.freshId t).1 ∧
    κ.host (link.freshId s).2 (link'.freshId t).2
  now : ∀ {s t}, κ.host s t → Loosely κ.loose (link.now s).1 (link'.now t).1 ∧
    κ.host (link.now s).2 (link'.now t).2

/-- Whether a request only tells the observers or the history something. -/
def Request.observes : Request → Bool
  | .publish _ | .keepReport _ => true
  | _ => false

/-- The same plan, with reports kept or not. -/
def UpdatePlan.keeping (plan : UpdatePlan) (keeps : Bool) : UpdatePlan :=
  { plan with keepsReports := keeps }

/-- Two links through which an attempt goes alike, although the observers and the history
may take what they are told in different ways; and in the second run reports are kept
only if `keeps`. -/
structure Link.Accords (κ : Comparison σ τ) (plan : UpdatePlan) (keeps : Bool) (link : Link σ)
    (link' : Link τ) : Prop where
  ask : ∀ {p r r'}, Request.Like κ.loose r r' → r.observes = false →
    Tracks (Twins κ p) (link.ask r) (link'.ask r') fun x y => HEq x y
  publish : ∀ {p e e'}, Event.Like κ.loose e e' →
    Tracks (Twins κ p) (link.ask (.publish e)).guarded (link'.ask (.publish e')).guarded
      fun _ _ => True
  keep : ∀ {p r r'}, UpdateReport.Like κ.loose r r' →
    Tracks (Twins κ p) (Attempt.keep link plan r) (Attempt.keep link' (plan.keeping keeps) r') Eq
  gate : ∀ a {s t}, κ.host s t →
    (link.gate a s).1 = (link'.gate a t).1 ∧ κ.host (link.gate a s).2 (link'.gate a t).2
  freshId : ∀ {s t}, κ.host s t → Loosely κ.loose (link.freshId s).1 (link'.freshId t).1 ∧
    κ.host (link.freshId s).2 (link'.freshId t).2
  now : ∀ {s t}, κ.host s t → Loosely κ.loose (link.now s).1 (link'.now t).1 ∧
    κ.host (link.now s).2 (link'.now t).2

theorem record_tracks (r r' : Record) :
    Tracks (Twins κ p) (record r : Act σ Unit) (record r' : Act τ Unit) Eq :=
  pairs_change fun _ _ h => { h with }

theorem say_tracks {logger logger' : String} {level level' : Level} {event event' : String}
    {fields fields' : List (String × Data)} :
    Tracks (Twins κ p) (say logger level event fields : Act σ Unit)
      (say logger' level' event' fields' : Act τ Unit) Eq :=
  record_tracks _ _

/-- Something may be said in one of the runs alone. -/
theorem pure_say_tracks {logger : String} {level : Level} {event : String}
    {fields : List (String × Data)} :
    Tracks (Twins κ p) (pure () : Act σ Unit) (say logger level event fields : Act τ Unit) Eq :=
  fun _ _ hwv => ⟨.ok rfl, { hwv with }⟩

theorem say_pure_tracks {logger : String} {level : Level} {event : String}
    {fields : List (String × Data)} :
    Tracks (Twins κ p) (say logger level event fields : Act σ Unit) (pure () : Act τ Unit) Eq :=
  fun _ _ hwv => ⟨.ok rfl, { hwv with }⟩

theorem enter_tracks (e : Entry) :
    Tracks (Twins κ p) (enter e : Act σ Unit) (enter e : Act τ Unit) Eq :=
  pairs_change fun _ _ h => h.enter .rfl

theorem disk_tracks : Tracks (Twins κ p) (look World.disk) (look World.disk) Eq :=
  tracks_look fun _ _ h => h.disk

theorem books_tracks :
    Tracks (Twins κ p) (books : Act σ Bookkeeping) (books : Act τ Bookkeeping) Eq :=
  tracks_look fun _ _ h => h.books

theorem changeBooks_tracks (f : Bookkeeping → Bookkeeping) :
    Tracks (Twins κ p) (changeBooks f : Act σ Unit) (changeBooks f : Act τ Unit) Eq :=
  pairs_change fun w v h => by
    rw [← h.books]
    exact h.withBooks (f w.books)

theorem changeDisk_tracks (disk : Disk) :
    Tracks (Twins κ p) (change fun w => { w with disk } : Act σ Unit)
      (change fun w => { w with disk } : Act τ Unit) Eq :=
  pairs_change fun _ _ h => h.withDisk disk

theorem noted_tracks {a : Act σ α} {b : Act τ β} {V : α → β → Prop}
    (h : Tracks (Twins κ p) a b V) (entry : Option Fault → Disk → Entry) :
    Tracks (Twins κ p) (a.noted entry) (b.noted entry) V :=
  Pairs.noted h fun failure w v hwv => by
    rw [← hwv.disk]
    exact hwv.enter .rfl

/-- Where all is answered alike, so is what the history is told. -/
theorem Link.Mirrors.keep_tracks {link : Link σ} {link' : Link τ} (h : link.Mirrors κ link')
    (plan : UpdatePlan) {r r' : UpdateReport} (hr : r.Like κ.loose r') :
    Tracks (Twins κ p) (Attempt.keep link plan r) (Attempt.keep link' plan r') Eq := by
  rw [Attempt.keep, Attempt.keep]
  split
  · have hkeep : Tracks (Twins κ p) (link.ask (.keepReport r)) (link'.ask (.keepReport r')) Eq :=
      (h.ask (.keepReport hr)).mono fun _ _ => eq_of_heq
    refine hkeep.caught fun answer => ?_
    cases answer with
    | ok _ => exact tracks_pure rfl
    | error fault => exact say_tracks
  · exact tracks_pure rfl

/-- Links that answer alike accord with each other. -/
theorem Link.Mirrors.accords {link : Link σ} {link' : Link τ} (h : link.Mirrors κ link')
    (plan : UpdatePlan) : link.Accords κ plan plan.keepsReports link' where
  ask hr _ := h.ask hr
  publish he := (h.ask (.publish he)).guarded.mono fun _ _ _ => trivial
  keep := h.keep_tracks plan
  gate := h.gate
  freshId := h.freshId
  now := h.now

namespace Link.Accords

variable {plan : UpdatePlan} {keeps : Bool} {link : Link σ} {link' : Link τ}
  (h : link.Accords κ plan keeps link')

include h

/-- The same request gets the same answer. -/
theorem ask_same (r : Request) (hr : r.observes = false) :
    Tracks (Twins κ p) (link.ask r) (link'.ask r) Eq :=
  (h.ask .rfl hr).mono fun _ _ => eq_of_heq

/-- Whatever comes of telling the observers, what follows goes alike. -/
theorem publish_bind {e e' : Event} {f : Except Fault Unit → Act σ α}
    {g : Except Fault Unit → Act τ β} {V : α → β → Prop} (he : e.Like κ.loose e')
    (hf : ∀ answer answer', Tracks (Twins κ p) (f answer) (g answer') V) :
    Tracks (Twins κ p) ((link.ask (.publish e)).guarded >>= f)
      ((link'.ask (.publish e')).guarded >>= g) V :=
  (h.publish he).bind fun answer answer' _ => hf answer answer'

theorem newId_tracks : Tracks (Twins κ p) link.newId link'.newId (Loosely κ.loose) :=
  pairs_choose fun _ _ hwv => ⟨(h.freshId hwv.host).1, hwv.withHost (h.freshId hwv.host).2⟩

theorem time_tracks : Tracks (Twins κ p) link.time link'.time (Loosely κ.loose) :=
  pairs_choose fun _ _ hwv => ⟨(h.now hwv.host).1, hwv.withHost (h.now hwv.host).2⟩

/-! ### File accesses -/

theorem leave_tracks (a : Access) : Tracks (Twins κ p) (link.leave a) (link'.leave a) Eq := by
  have hgate : Tracks (Twins κ p) (Link.choose (link.gate a)) (Link.choose (link'.gate a)) Eq :=
    pairs_choose fun _ _ hwv => ⟨(h.gate a hwv.host).1, hwv.withHost (h.gate a hwv.host).2⟩
  refine hgate.then fun refusal => ?_
  cases refusal with
  | none => exact tracks_pure rfl
  | some code => exact tracks_raise _

theorem readFile_tracks (path : Path) :
    Tracks (Twins κ p) (link.readFile path) (link'.readFile path) Eq := by
  refine noted_tracks ((h.leave_tracks _).then fun _ => disk_tracks.then fun disk => ?_) _
  cases disk.read path with
  | ok content => exact tracks_pure rfl
  | error code => exact tracks_raise _

theorem discardFile_tracks (path : Path) :
    Tracks (Twins κ p) (link.discardFile path) (link'.discardFile path) Eq := by
  refine noted_tracks ((h.leave_tracks _).then fun _ => disk_tracks.then fun disk => ?_) _
  cases disk.remove path with
  | ok disk => exact changeDisk_tracks disk
  | error code =>
    dsimp only
    split
    · exact tracks_pure rfl
    · exact tracks_raise _

omit h in
theorem applyDisk_tracks (refusal : Nat → SystemError) (result : Except Nat Disk) :
    Tracks (Twins κ p) (Link.applyDisk refusal result : Act σ Unit)
      (Link.applyDisk refusal result : Act τ Unit) Eq := by
  cases result with
  | ok disk => exact changeDisk_tracks disk
  | error code => exact tracks_raise _

theorem moveFile_tracks (source target : Path) :
    Tracks (Twins κ p) (link.moveFile source target) (link'.moveFile source target) Eq :=
  noted_tracks ((h.leave_tracks _).then fun _ => disk_tracks.then fun _ =>
    applyDisk_tracks _ _) _

omit h in
theorem makeFile_tracks (path : Path) (content : Bytes) :
    Tracks (Twins κ p) (Link.makeFile path content : Act σ Unit)
      (Link.makeFile path content : Act τ Unit) Eq :=
  noted_tracks (disk_tracks.then fun _ => applyDisk_tracks _ _) _

omit h in
theorem ensureDirectory_tracks (path : Path) :
    Tracks (Twins κ p) (Link.ensureDirectory path : Act σ Unit)
      (Link.ensureDirectory path : Act τ Unit) Eq := by
  refine noted_tracks (disk_tracks.then fun disk => ?_) _
  dsimp only
  generalize disk.makeDirectories path = made
  obtain ⟨disk, refusal⟩ := made
  refine (changeDisk_tracks disk).then fun _ => ?_
  cases refusal with
  | none => exact tracks_pure rfl
  | some e => exact tracks_raise _

theorem writeAtomically_tracks (target : Path) (content : Bytes) (apart : List Path) :
    Tracks (Twins κ p) (writeAtomically link target content apart)
      (writeAtomically link' target content apart) Eq := by
  refine (ensureDirectory_tracks _).then fun _ => disk_tracks.then fun disk => ?_
  refine (makeFile_tracks _ _).then fun _ => ?_
  refine (h.moveFile_tracks _ _).outcome.bind fun r _ hr => hr.eq ▸ ?_
  cases r with
  | ok _ => exact tracks_pure rfl
  | error e => exact (h.discardFile_tracks _).then fun _ => tracks_raise _

end Link.Accords

/-! ### The files of a configuration -/

namespace FileSet

variable {plan : UpdatePlan} {keeps : Bool} {link : Link σ} {link' : Link τ}
  (h : link.Accords κ plan keeps link')

include h

theorem removeLogged_tracks (path : Path) :
    Tracks (Twins κ p) (removeLogged link path) (removeLogged link' path) Eq := by
  refine (h.discardFile_tracks path).rescue.bind fun r _ hr => hr.eq ▸ ?_
  cases r with
  | ok _ => exact tracks_pure rfl
  | error e => exact say_tracks.then fun _ => tracks_pure rfl

omit h in
theorem explained_tracks (problem : FileProblem) (path : Path) {a : Act σ α} {b : Act τ α}
    (ha : Tracks (Twins κ p) a b Eq) :
    Tracks (Twins κ p) (explained problem path a) (explained problem path b) Eq := by
  refine ha.rescue.bind fun r _ hr => hr.eq ▸ ?_
  cases r with
  | ok x => exact tracks_pure rfl
  | error e => exact tracks_raise _

theorem removeStale_tracks (paths : List Path) :
    Tracks (Twins κ p) (removeStale link paths) (removeStale link' paths) Eq := by
  induction paths with
  | nil => exact tracks_pure rfl
  | cons path rest ih =>
    refine (removeLogged_tracks h path).then fun removed => ?_
    cases removed with
    | true => exact ih
    | false => exact tracks_raise _

theorem copy_tracks (files : FilePaths) (unreadable : FileProblem) (active backup : Path) :
    Tracks (Twins κ p) (copy link files unreadable active backup)
      (copy link' files unreadable active backup) Eq := by
  refine (explained_tracks _ _ (h.readFile_tracks active)).then fun content => ?_
  refine (explained_tracks _ _ (h.writeAtomically_tracks _ _ _)).then fun _ => ?_
  exact changeBooks_tracks _

theorem backupRaw_tracks (files : FilePaths) :
    Tracks (Twins κ p) (backupRaw link files) (backupRaw link' files) Eq := by
  refine disk_tracks.then fun disk => ?_
  split
  · exact (copy_tracks h files _ _ _).then fun _ => changeBooks_tracks _
  · exact say_tracks.then fun _ => changeBooks_tracks _

theorem backup_tracks (files : FilePaths) :
    Tracks (Twins κ p) (backup link files) (backup link' files) Eq := by
  refine (enter_tracks _).then fun _ => (changeBooks_tracks _).then fun _ => ?_
  refine (removeStale_tracks h _).then fun _ => (copy_tracks h files _ _ _).then fun _ => ?_
  exact (backupRaw_tracks h files).then fun _ => say_tracks

theorem persist_tracks (files : FilePaths) (rendered raw : Bytes) :
    Tracks (Twins κ p) (persist link files rendered raw) (persist link' files rendered raw) Eq := by
  refine (enter_tracks _).then fun _ => ?_
  refine (explained_tracks _ _ (h.writeAtomically_tracks _ _ _)).then fun _ => ?_
  exact (explained_tracks _ _ (h.writeAtomically_tracks _ _ _)).then fun _ => say_tracks

theorem restore_tracks (files : FilePaths) (active backup : Path) :
    Tracks (Twins κ p) (restore link files active backup) (restore link' files active backup)
      Eq := by
  refine books_tracks.then fun books => ?_
  split
  · have hwrite := (h.readFile_tracks (p := p) backup).then fun content =>
      h.writeAtomically_tracks active content files.all
    refine hwrite.rescue.bind fun r _ hr => hr.eq ▸ ?_
    cases r with
    | ok _ => exact tracks_pure rfl
    | error e => exact say_tracks.then fun _ => tracks_pure rfl
  · split
    · exact removeLogged_tracks h active
    · exact say_tracks.then fun _ => tracks_pure rfl

theorem revert_tracks (files : FilePaths) :
    Tracks (Twins κ p) (revert link files) (revert link' files) Eq := by
  refine (enter_tracks _).then fun _ => (restore_tracks h files _ _).then fun active => ?_
  exact (restore_tracks h files _ _).then fun raw => tracks_pure rfl

theorem cleanup_tracks (files : FilePaths) :
    Tracks (Twins κ p) (cleanup link files) (cleanup link' files) Eq := by
  refine (enter_tracks _).then fun _ => (removeLogged_tracks h _).then fun _ => ?_
  exact (removeLogged_tracks h _).then fun _ => changeBooks_tracks _

end FileSet
end HotSwap
