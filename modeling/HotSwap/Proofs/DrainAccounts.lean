/-
What the journal shows of a drain.

The requests of a drain come in one order, with their answers: what the sources are, and
the stop of each; the polls; dropping what is queued, unless a poll has found nothing; the
stop of all processing; and then every remote endpoint is asked to stop, before any of
them is waited for.

* `Drain.Stage`, `Entry.stage` — what the steps of a drain are about;
* `Drain.Intake`, `Drain.Polling`, `Drain.Forcing`, `Drain.Parting`, `Drain.Wait` — the
  parts, each with the entries that show it;
* `Drain.Account` — the whole; `Drain.Account.Makes` says which report it makes;
* `Drain.Account.ShownIn` — a journal shows it, and nothing else of a drain;
  `Drain.Account.ShownIn.filterMap_endpoints` and its like say that what is read about one
  thing is read off one part.

Design notes: the pauses between polls are left out.  A pause that fails ends the polls, as
a question that fails does, unless its fault asks for another poll; the last poll has been
answered then, and not as wished for.
-/
import HotSwap.Flow.Drain
import HotSwap.Proofs.Readings

namespace HotSwap

namespace Drain

/-! ### Stages -/

/-- What the steps of a drain are about. -/
inductive Stage where
  /-- The components that originate work. -/
  | sources
  /-- Whether work is queued. -/
  | queues
  /-- All processing, and the work that is queued. -/
  | processing
  /-- The remote endpoints. -/
  | endpoints
  deriving DecidableEq, Repr

end Drain

/-- What a request of a drain is about; pauses, and requests of no drain, are left out. -/
def Request.stage : Request → Option Drain.Stage
  | .processors | .componentIdentifier _ | .connections | .stopComponent _ => some .sources
  | .isDataQueued => some .queues
  | .stopProcessing | .dropAllQueued .. | .publish (.drainForced ..) => some .processing
  | .remoteEndpoints | .endpointIdentifier _ | .stopTransmitting _ | .awaitStop ..
  | .publish (.transmissionStopTimedOut ..) => some .endpoints
  | _ => none

/-- What an entry is about. -/
def Entry.stage : Entry → Option Drain.Stage
  | .asked r | .answered r _ => r.stage
  | _ => none

/-- Whether an entry is a step of a drain, or the answer to one. -/
def Entry.drains (e : Entry) : Bool := e.stage.isSome

theorem Entry.drains_of_murmur {e : Entry} {A : String → Prop} (he : e.Murmur A) :
    e.drains = false := by
  have hr : ∀ r : Request, r.Concludes A → r.stage = none := fun r hr => by
    cases r with
    | publish event => cases event <;> first | rfl | exact hr.elim
    | _ => first | rfl | exact hr.elim
  cases e with
  | asked r => rw [drains, stage, hr r he]; rfl
  | answered r answer => rw [drains, stage, hr r he]; rfl
  | _ => rfl

namespace Drain

/-! ### Sources -/

/-- What the host has said of the flow: its processors with their identifiers, and its
connections. -/
structure Classification where
  named : List (Component × String)
  connections : List Connection

namespace Classification

/-- The components that originate work. -/
def sources (c : Classification) : List String :=
  HotSwap.sources (c.named.map Prod.snd) c.connections

def entries (c : Classification) : List Entry :=
  Request.processors.noted (.ok (c.named.map Prod.fst)) ++
  (c.named.flatMap (fun n => (Request.componentIdentifier n.1).noted (.ok n.2)) ++
  Request.connections.noted (.ok c.connections))

end Classification

/-- Part of a classification without the connections. -/
def Unclassified : Entry → Prop
  | .asked r => r = .processors ∨ (∃ c, r = .componentIdentifier c) ∨ r = .connections
  | .answered .processors _ | .answered (.componentIdentifier _) _
  | .answered .connections (.error _) => True
  | _ => False

/-- What was done about the sources: the stop of each with its answer, if it was found out
which they are. -/
inductive Intake where
  | unclassified (es : List Entry)
  | classified (c : Classification) (stops : List (String × Except Fault Unit))

namespace Intake

def stops : Intake → List (String × Except Fault Unit)
  | unclassified _ => []
  | classified _ stops => stops

def entries : Intake → List Entry
  | unclassified es => es
  | classified c stops =>
    c.entries ++ stops.flatMap fun s => (Request.stopComponent s.1).noted s.2

/-- Exactly the sources are stopped. -/
def Sound : Intake → Prop
  | unclassified es => ∀ e ∈ es, Unclassified e
  | classified c stops => stops.map Prod.fst = c.sources

/-- An intake that may have been cut short: only sources were stopped, in their order. -/
def Begun : Intake → Prop
  | unclassified es => ∀ e ∈ es, Unclassified e
  | classified c stops => stops.map Prod.fst <+: c.sources

theorem Sound.begun {i : Intake} (h : i.Sound) : i.Begun := by
  cases i with
  | unclassified es => exact h
  | classified c stops =>
    have hstops : stops.map Prod.fst = c.sources := h
    exact ⟨[], (List.append_nil _).trans hstops⟩

/-- The components that did stop. -/
def stopped (i : Intake) : List String := (i.stops.filter fun s => s.2.isOk).map Prod.fst

end Intake

/-! ### Queues -/

/-- Whether a loop over the queues has ended with nothing queued. -/
def emptied : Except Fault (Option (Residual Bool)) → Bool
  | .ok residual => residual.isNone
  | .error _ => false

/-- The polls: the answers after which there may have been another poll, as something was
queued or another one was asked for, and the answer to the last one. -/
structure Polling where
  before : List (Except Fault Bool)
  leaves : ∀ a ∈ before, leavesOpen (fun queued => !queued) a = true
  last : Except Fault Bool

namespace Polling

/-- How often was polled. -/
def polls (p : Polling) : Nat := p.before.length + 1

/-- Whether the last poll found nothing queued. -/
def graceful (p : Polling) : Bool :=
  match p.last with
  | .ok queued => !queued
  | .error _ => false

/-- The answers to the polls. -/
def answers (p : Polling) : List (Except Fault Bool) := p.before ++ [p.last]

def entries (p : Polling) : List Entry :=
  p.answers.flatMap fun a : Except Fault Bool => Request.isDataQueued.noted a

/-- One poll and no other. -/
def once (last : Except Fault Bool) : Polling where
  before := []
  leaves := by simp
  last

theorem entries_once (last : Except Fault Bool) :
    (once last).entries = Request.isDataQueued.noted last := rfl

/-- After one more poll that left room for another one. -/
def after (p : Polling) (a : Except Fault Bool)
    (ha : leavesOpen (fun queued => !queued) a = true) : Polling where
  before := a :: p.before
  leaves := List.forall_mem_cons.mpr ⟨ha, p.leaves⟩
  last := p.last

theorem entries_after (p : Polling) (a : Except Fault Bool)
    (ha : leavesOpen (fun queued => !queued) a = true) :
    (p.after a ha).entries = Request.isDataQueued.noted a ++ p.entries := rfl

/-- A loop over the queues that goes on, or is cut short before it does, is not graceful. -/
theorem graceful_once_of_open {a : Except Fault Bool}
    (ha : leavesOpen (fun queued => !queued) a = true) : (once a).graceful = false := by
  cases a with
  | ok queued => simpa [leavesOpen, graceful, once] using ha
  | error e => rfl

/-- The polls of a loop over the queues, where the pauses are left out. -/
theorem exists_of_polled {F : Fault → Prop} {listens : Bool} {left : Nat}
    {result : Except Fault (Option (Residual Bool))} {l : List Entry}
    (h : Polled listens (fun queued => !queued)
      (fun a l => FailsWith F a ∧ l = Request.isDataQueued.noted a)
      (fun a l => FailsWith F a ∧ l = []) left result l) :
    FailsWith F result ∧ ∃ p : Polling, p.before.length ≤ left ∧
      p.graceful = emptied result ∧ l = p.entries := by
  induction h with
  | @met _ queued _ hpoll hx => exact ⟨trivial, once (.ok queued), Nat.zero_le _, hx, hpoll.2⟩
  | @unmet _ r _ hpoll hr _ => exact ⟨trivial, once (.ok r.value), Nat.zero_le _, hr, hpoll.2⟩
  | raised hpoll => exact ⟨hpoll.1, once _, Nat.zero_le _, rfl, hpoll.2⟩
  | restless hpoll hopen hpause =>
    refine ⟨hpause.1, once _, Nat.zero_le _, graceful_once_of_open hopen, ?_⟩
    rw [hpoll.2, hpause.2, List.append_nil, entries_once]
  | next hpoll hopen hpause _ ih =>
    obtain ⟨hresult, p, hleft, hgraceful, rfl⟩ := ih
    refine ⟨hresult, p.after _ hopen, Nat.succ_le_succ hleft, hgraceful, ?_⟩
    rw [hpoll.2, hpause.2, List.nil_append, entries_after]

end Polling

/-- How queued work was dropped: under which identifier, and what came of each step. -/
structure Forcing where
  requestId : String
  stopped : Except Fault Unit
  dropped : Except Fault Unit
  told : Except Fault Unit

def Forcing.entries (f : Forcing) (polls : Nat) : List Entry :=
  Request.stopProcessing.noted f.stopped ++
  ((Request.dropAllQueued f.requestId drainRequestor).noted f.dropped ++
  (Request.publish (.drainForced polls f.requestId)).noted f.told)

/-! ### Remote endpoints -/

/-- What came of asking an endpoint to stop, with each reading of its identifier. -/
inductive Parting where
  /-- It took the request. -/
  | taken (e : Endpoint) (name : String) (t : Transmission)
  /-- It did not, and its identifier was read twice more. -/
  | refused (e : Endpoint) (first logged name : String) (fault : Fault)
  /-- Its identifier could not be read, so that it was not even asked. -/
  | unread (e : Endpoint) (fault : Fault) (logged name : String)

namespace Parting

def endpoint : Parting → Endpoint
  | taken e .. | refused e .. | unread e .. => e

def entries : Parting → List Entry
  | taken e name t => (Request.endpointIdentifier e).noted (.ok name) ++
      (Request.stopTransmitting e).noted (.ok t)
  | refused e first logged name fault => (Request.endpointIdentifier e).noted (.ok first) ++
      ((Request.stopTransmitting e).noted (.error fault) ++
      ((Request.endpointIdentifier e).noted (.ok logged) ++
      (Request.endpointIdentifier e).noted (.ok name)))
  | unread e fault logged name => (Request.endpointIdentifier e).noted (.error fault) ++
      ((Request.endpointIdentifier e).noted (.ok logged) ++
      (Request.endpointIdentifier e).noted (.ok name))

/-- The endpoint as it is waited for. -/
def stopping? : Parting → Option Stopping
  | taken _ endpointId transmission => some { endpointId, transmission }
  | _ => none

/-- The identifier under which an endpoint is reported that did not take the request. -/
def refusal? : Parting → Option String
  | taken .. => none
  | refused _ _ _ name _ | unread _ _ _ name => some name

/-- The fault with which the identifier could not be read is one of `U`. -/
def Sound (U : Endpoint → Fault → Prop) : Parting → Prop
  | unread e fault .. => U e fault
  | _ => True

end Parting

/-- What came of waiting for an endpoint, and of telling that the time is over. -/
structure Wait where
  stopping : Stopping
  answer : Except Fault Unit
  told : Except Fault Unit

namespace Wait

/-- Whether the time was over before the endpoint had stopped. -/
def timedOut (w : Wait) : Bool :=
  match w.answer with
  | .ok _ => false
  | .error fault => fault.isTimeout

def entries (w : Wait) (timeout : Float) : List Entry :=
  (Request.awaitStop w.stopping.transmission timeout).noted w.answer ++
  if w.timedOut then
    (Request.publish (.transmissionStopTimedOut w.stopping.endpointId timeout)).noted w.told
  else []

end Wait

/-- How the remote endpoints were stopped, if they could be listed. -/
inductive Silencing where
  | unlisted (fault : Fault)
  | listed (partings : List Parting) (waits : List Wait)

namespace Silencing

def partings : Silencing → List Parting
  | unlisted _ => []
  | listed partings _ => partings

def waits : Silencing → List Wait
  | unlisted _ => []
  | listed _ waits => waits

def listing : Silencing → Except Fault (List Endpoint)
  | unlisted fault => .error fault
  | listed partings _ => .ok (partings.map Parting.endpoint)

def entries (s : Silencing) (timeout : Float) : List Entry :=
  Request.remoteEndpoints.noted s.listing ++
  (s.partings.flatMap Parting.entries ++ s.waits.flatMap fun w => w.entries timeout)

/-- Whoever took the request is waited for, and nobody else. -/
structure Sound (U : Endpoint → Fault → Prop) (s : Silencing) : Prop where
  partings : ∀ p ∈ s.partings, p.Sound U
  waits : s.waits.map Wait.stopping = s.partings.filterMap Parting.stopping?

/-- The endpoints that did not stop: those that did not take the request, and those that
were waited for in vain. -/
def left (s : Silencing) : List String :=
  s.partings.filterMap Parting.refusal? ++
  (s.waits.filter fun w => !w.answer.isOk).map fun w => w.stopping.endpointId

end Silencing

/-! ### Whole drains -/

/-- What a drain did, in order. -/
structure Account where
  intake : Intake
  polling : Polling
  forcing : Option Forcing
  stopped : Except Fault Unit
  silencing : Silencing

namespace Account

/-- What is done after the polls, and before the remote endpoints are listed. -/
def halt (c : Account) (polls : Nat) : List Entry :=
  c.forcing.elim [] (·.entries polls) ++ Request.stopProcessing.noted c.stopped

def entries (c : Account) (polls : Nat) (timeout : Float) : List Entry :=
  c.intake.entries ++ (c.polling.entries ++ (c.halt polls ++ c.silencing.entries timeout))

/-- The report that such a drain makes; what is queued is dropped if and only if
the last poll has found something. -/
structure Makes (U : Endpoint → Fault → Prop) (budget : Budget) (c : Account)
    (report : DrainReport) : Prop where
  intake : c.intake.Sound
  budget : c.polling.before.length ≤ budget.maxRetries
  forcing : c.forcing.isSome = !c.polling.graceful
  silencing : c.silencing.Sound U
  graceful : report.graceful = c.polling.graceful
  sourcesStopped : report.sourcesStopped = c.intake.stopped
  endpointsTimedOut : report.endpointsTimedOut = c.silencing.left

end Account

/-! ### Readings -/

/-- The request that an entry shows, if it is one of a kind. -/
def requestIn (p : Request → Bool) : Entry → Option Request
  | .asked r => if p r then some r else none
  | _ => none

/-- The requests of a kind, in order. -/
abbrev requestsOf (p : Request → Bool) (es : List Entry) : List Request :=
  es.filterMap (requestIn p)

/-- What a function says of the answer that an entry shows. -/
def answerIn {β : Type} (f : (r : Request) → Except Fault r.Answer → Option β) : Entry → Option β
  | .answered r answer => f r answer
  | _ => none

/-- What it says of the answers, in order. -/
abbrev answersOf {β : Type} (f : (r : Request) → Except Fault r.Answer → Option β)
    (es : List Entry) : List β :=
  es.filterMap (answerIn f)

/-- Entries about one thing. -/
abbrev About (s : Stage) (es : List Entry) : Prop := ∀ e ∈ es, e.stage = some s

/-- What is read off entries about one thing only. -/
abbrev OnlyAbout {β : Type} (s : Stage) (f : Entry → Option β) : Prop :=
  ∀ e, e.stage ≠ some s → f e = none

section

variable {β : Type} {s s' : Stage} {f : Entry → Option β} {es : List Entry} {i : Intake}
  {c : Account} {polls : Nat} {timeout : Float}

theorem onlyAbout_requestIn {p : Request → Bool} (hp : ∀ r, r.stage ≠ some s → p r = false) :
    OnlyAbout s (requestIn p) := fun e he => by
  cases e with
  | asked r => simp [requestIn, hp r he]
  | _ => rfl

theorem onlyAbout_answerIn {g : (r : Request) → Except Fault r.Answer → Option β}
    (hg : ∀ r, r.stage ≠ some s → ∀ answer, g r answer = none) : OnlyAbout s (answerIn g) :=
  fun e he => by
  cases e with
  | answered r answer => exact hg r he answer
  | _ => rfl

theorem about_noted {r : Request} (hr : r.stage = some s) (answer : Except Fault r.Answer) :
    About s (r.noted answer) := by
  simp [About, Request.noted, Entry.stage, hr]

theorem about_append {es' : List Entry} (h : About s es) (h' : About s es') : About s (es ++ es') :=
  List.forall_mem_append.mpr ⟨h, h'⟩

theorem about_flatMap {γ : Type} {g : γ → List Entry} (h : ∀ x, About s (g x)) (xs : List γ) :
    About s (xs.flatMap g) := fun e he => by
  obtain ⟨x, -, hx⟩ := List.mem_flatMap.mp he
  exact h x e hx

theorem About.filterMap_eq_nil (h : About s es) (hf : OnlyAbout s' f) (hne : s ≠ s') :
    es.filterMap f = [] :=
  List.filterMap_eq_nil_iff.mpr fun e he => hf e (by simp [h e he, hne])

theorem Intake.Sound.about (h : i.Sound) : About .sources i.entries := by
  cases i with
  | unclassified es =>
    intro e he
    have hun := h e he
    cases e with
    | asked r => rcases hun with rfl | ⟨_, rfl⟩ | rfl <;> rfl
    | answered r answer => cases r <;> first | rfl | exact hun.elim
    | _ => exact hun.elim
  | classified c stops =>
    exact about_append (about_append (about_noted rfl _)
      (about_append (about_flatMap (fun _ => about_noted rfl _) _) (about_noted rfl _)))
      (about_flatMap (fun _ => about_noted rfl _) _)

theorem Polling.about (p : Polling) : About .queues p.entries :=
  about_flatMap (fun _ => about_noted rfl _) _

theorem Forcing.about (f : Forcing) (polls : Nat) : About .processing (f.entries polls) :=
  about_append (about_noted rfl _) (about_append (about_noted rfl _) (about_noted rfl _))

theorem Silencing.about (s : Silencing) (timeout : Float) :
    About .endpoints (s.entries timeout) := by
  refine about_append (about_noted rfl _) (about_append (about_flatMap (fun p => ?_) _)
    (about_flatMap (fun w => ?_) _))
  · cases p with
    | taken e name t => exact about_append (about_noted rfl _) (about_noted rfl _)
    | refused e first logged name fault =>
      exact about_append (about_noted rfl _) (about_append (about_noted rfl _)
        (about_append (about_noted rfl _) (about_noted rfl _)))
    | unread e fault logged name =>
      exact about_append (about_noted rfl _) (about_append (about_noted rfl _) (about_noted rfl _))
  · refine about_append (about_noted rfl _) ?_
    split
    · exact about_noted rfl _
    · simp [About]

namespace Account

theorem about_halt (c : Account) (polls : Nat) : About .processing (c.halt polls) := by
  refine about_append ?_ (about_noted rfl _)
  cases c.forcing with
  | none => simp [About]
  | some f => exact f.about polls

/-- The journal shows this, and nothing else of a drain. -/
def ShownIn (c : Account) (es : List Entry) (polls : Nat) (timeout : Float) : Prop :=
  es.filter Entry.drains = c.entries polls timeout

namespace ShownIn

variable (h : c.ShownIn es polls timeout)

include h

/-- Reading the journal is reading what it shows of the drain. -/
theorem filterMap_eq (hf : ∀ e, e.stage = none → f e = none) :
    es.filterMap f = c.intake.entries.filterMap f ++ (c.polling.entries.filterMap f ++
      ((c.halt polls).filterMap f ++ (c.silencing.entries timeout).filterMap f)) := by
  have hdrains : (es.filter Entry.drains).filterMap f = es.filterMap f := by
    rw [List.filterMap_filter]
    refine List.filterMap_congr fun e _ => ?_
    split
    · rfl
    · next he => exact (hf e (by simpa [Entry.drains] using he)).symm
  rw [← hdrains, h, entries, List.filterMap_append, List.filterMap_append, List.filterMap_append]

theorem filterMap_sources (hf : OnlyAbout .sources f) :
    es.filterMap f = c.intake.entries.filterMap f := by
  rw [h.filterMap_eq fun e he => hf e (by simp [he]),
    c.polling.about.filterMap_eq_nil hf (by decide),
    (c.about_halt polls).filterMap_eq_nil hf (by decide),
    (c.silencing.about timeout).filterMap_eq_nil hf (by decide)]
  simp only [List.append_nil]

variable (hintake : c.intake.Sound)

include hintake

theorem filterMap_queues (hf : OnlyAbout .queues f) :
    es.filterMap f = c.polling.entries.filterMap f := by
  rw [h.filterMap_eq fun e he => hf e (by simp [he]),
    hintake.about.filterMap_eq_nil hf (by decide),
    (c.about_halt polls).filterMap_eq_nil hf (by decide),
    (c.silencing.about timeout).filterMap_eq_nil hf (by decide)]
  simp only [List.append_nil, List.nil_append]

theorem filterMap_endpoints (hf : OnlyAbout .endpoints f) :
    es.filterMap f = (c.silencing.entries timeout).filterMap f := by
  rw [h.filterMap_eq fun e he => hf e (by simp [he]),
    hintake.about.filterMap_eq_nil hf (by decide), c.polling.about.filterMap_eq_nil hf (by decide),
    (c.about_halt polls).filterMap_eq_nil hf (by decide)]
  simp only [List.nil_append]

end ShownIn

end Account

end

/-- Some reading of the identifier of an endpoint has failed, with a fault of `U`. -/
def Unreadable (U : Endpoint → Fault → Prop) (e : Fault) (es : List Entry) : Prop :=
  ∃ endpoint, U endpoint e ∧ Entry.answered (.endpointIdentifier endpoint) (.error e) ∈ es

theorem Unreadable.after {U : Endpoint → Fault → Prop} {e : Fault} {es : List Entry}
    (h : Unreadable U e es) (before : List Entry) : Unreadable U e (before ++ es) := by
  obtain ⟨endpoint, hU, hmem⟩ := h
  exact ⟨endpoint, hU, List.mem_append_right _ hmem⟩

end Drain

end HotSwap
