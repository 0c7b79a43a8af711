/-
Every drain has its account.

* `Link.Hears.stopSources_drains`, `Link.Hears.awaitEmpty_drains`, `Link.Hears.force_drains`,
  `Link.Hears.stopTransmission_drains` — the parts of a drain, as they are read;
* `Link.Hears.drain_recounted` — a drain that ends with a report has done what some account
  says, and one that ends with a fault has failed to read the identifier of an endpoint;
* `Attended.ends_drain` — so the journal shows an account, where nobody else drains the flow;
* `Host.Legible`, `Attended.ends_drain_legible` — where identifiers can be read, there always
  is a report.

Design notes: each part is read for itself, whatever ordinary faults come instead of answers.
The faults that are not caught are those of reading an identifier once more, when an endpoint
could not be asked to stop.
-/
import HotSwap.Proofs.DrainAccounts
import HotSwap.Proofs.Tallies
import HotSwap.Proofs.Tellings

namespace HotSwap

open Act

variable {σ α : Type} {q : Bool → σ → Prop} {A : String → Prop}
  {L : (r : Request) → Except Fault r.Answer → Prop} {link : Link σ}

/-- What happens before a reading of an identifier fails changes nothing about that. -/
theorem Act.Yields.bind_unreadable {β : Type} {keep : Entry → Bool} {a : Act σ α}
    {f : α → Act σ β} {P : α → List Entry → Prop} {Q : β → List Entry → Prop}
    {U : Endpoint → Fault → Prop} (h : a.Yields q keep P (Drain.Unreadable U))
    (hf : ∀ x l, P x l →
      (f x).Yields q keep (fun y l' => Q y (l ++ l')) (Drain.Unreadable U)) :
    (a >>= f).Yields q keep Q (Drain.Unreadable U) :=
  h.bind fun x l hl => (hf x l hl).mono (fun _ _ hy => hy) fun _ _ he => he.after l

namespace Link.Hears

open Drain

variable (hlink : link.Hears q A Entry.drains L)

include hlink

theorem ask_drains {r : Request} (hr : r.stage.isSome = true) :
    (link.ask r).Yields q Entry.drains (fun x l => L r (.ok x) ∧ l = r.noted (.ok x))
      fun e l => L r (.error e) ∧ l = r.noted (.error e) := by
  have hnoted : ∀ answer, (r.noted answer).filter Entry.drains = r.noted answer := fun answer => by
    simp [Request.noted, Entry.drains, Entry.stage, hr]
  exact (hlink.ask r).mono (fun _ _ h => ⟨h.1, h.2.trans (hnoted _)⟩)
    fun _ _ h => ⟨h.1, h.2.trans (hnoted _)⟩

variable (hL : ∀ r e, L r (.error e) → e.interrupts = false)

include hL

/-- Where ordinary faults are caught, a step is read with whatever answer it gets. -/
theorem guarded_drains {r : Request} (hr : r.stage.isSome = true) :
    (link.ask r).guarded.Yields q Entry.drains (fun answer l => l = r.noted answer)
      fun _ _ => False := by
  refine Yields.guarded ((hlink.ask_drains hr).mono (fun _ _ h => h.2) fun e l h => ?_)
  rw [if_neg (by simp [hL r e h.1])]
  exact h.2

theorem publish_drains {e : Event} (he : (Request.publish e).stage.isSome = true) :
    (Drain.publish link e).Yields q Entry.drains
      (fun _ l => ∃ answer, l = (Request.publish e).noted answer) fun _ _ => False := by
  refine (hlink.guarded_drains hL he).bind ?_
  rintro answer l rfl
  cases answer with
  | ok _ => exact yields_pure ⟨.ok (), List.append_nil _⟩
  | error fault =>
    exact yields_say ⟨.error fault, List.append_nil _⟩

/-! ### Sources -/

theorem ask_unclassified {r : Request} (hr : r.stage.isSome = true)
    (hask : ∀ answer, ∀ e ∈ r.noted answer, Unclassified e) :
    (link.ask r).Traces q Entry.drains (fun l => ∀ e ∈ l, Unclassified e)
      (fun e => e.interrupts = false) fun x l => l = r.noted (.ok x) :=
  (hlink.ask_drains hr).mono (fun x _ h => ⟨h.2, h.2 ▸ hask (.ok x)⟩)
    fun e _ h => ⟨hL r e h.1, h.2 ▸ hask (.error e)⟩

theorem identifiers_drains (cs : List Component) :
    (identifiers link cs).Traces q Entry.drains (fun l => ∀ e ∈ l, Unclassified e)
      (fun e => e.interrupts = false) fun names l => ∃ named : List (Component × String),
        named.map Prod.fst = cs ∧ named.map Prod.snd = names ∧
        l = named.flatMap fun n => (Request.componentIdentifier n.1).noted (.ok n.2) := by
  induction cs with
  | nil => exact traces_pure ⟨[], rfl, rfl, rfl⟩
  | cons c cs ih =>
    rw [identifiers]
    refine (hlink.ask_unclassified hL (r := .componentIdentifier c) rfl
      (by simp [Request.noted, Unclassified])).bind ?_
    rintro (name : String) l rfl
    refine ih.bind ?_
    rintro names l ⟨named, rfl, rfl, rfl⟩
    exact traces_pure ⟨(c, name) :: named, rfl, rfl, by simp⟩

theorem classify_drains : (classify link).Yields q Entry.drains
    (fun ids l => ∃ c : Classification, ids = c.sources ∧ l = c.entries)
    fun e l => e.interrupts = false ∧ ∀ x ∈ l, Unclassified x := by
  refine Yields.bind ((hlink.ask_unclassified hL (r := .processors) rfl
    (by simp [Request.noted, Unclassified])).mono fun _ _ h _ => h) ?_
  rintro (processors : List Component) l ⟨rfl, hl⟩
  refine Yields.bind (Yields.mono (hlink.identifiers_drains hL processors) (fun _ _ h => h)
    fun e l' h => ⟨h.1, List.forall_mem_append.mpr ⟨hl, h.2⟩⟩) ?_
  rintro names l' ⟨⟨named, rfl, rfl, rfl⟩, hl'⟩
  refine Yields.bind (P := fun (connections : List Connection) l =>
    l = Request.connections.noted (.ok connections)) ((hlink.ask_drains rfl).mono
      (fun _ _ h => h.2) ?_) ?_
  · rintro e l ⟨he, rfl⟩
    refine ⟨hL _ e he, List.forall_mem_append.mpr ⟨hl, List.forall_mem_append.mpr ⟨hl', ?_⟩⟩⟩
    simp [Request.noted, Unclassified]
  · rintro connections l rfl
    exact yields_pure ⟨⟨named, connections⟩, rfl, by simp [Classification.entries]⟩

theorem stopEach_drains (ids : List String) : (stopEach link ids).Yields q Entry.drains
    (fun stopped l => ∃ stops : List (String × Except Fault Unit), stops.map Prod.fst = ids ∧
      stopped = (stops.filter fun s => s.2.isOk).map Prod.fst ∧
      l = stops.flatMap fun s => (Request.stopComponent s.1).noted s.2)
    fun _ _ => False := by
  induction ids with
  | nil => exact yields_pure ⟨[], rfl, rfl, rfl⟩
  | cons id ids ih =>
    rw [stopEach]
    refine (hlink.guarded_drains hL (r := .stopComponent id) rfl).bind ?_
    rintro (answer : Except Fault Unit) l rfl
    cases answer with
    | ok _ =>
      refine ih.bind ?_
      rintro _ l ⟨stops, rfl, rfl, rfl⟩
      exact yields_pure ⟨(id, .ok ()) :: stops, rfl, rfl, by simp⟩
    | error fault =>
      refine say_bind_yields (ih.mono ?_ fun _ _ he => he)
      rintro _ l ⟨stops, rfl, rfl, rfl⟩
      exact ⟨(id, .error fault) :: stops, rfl, rfl, rfl⟩

theorem stopSources_drains : (stopSources link).Yields q Entry.drains
    (fun stopped l => ∃ i : Intake, i.Sound ∧ stopped = i.stopped ∧ l = i.entries)
    fun _ _ => False := by
  have hclassify : (classify link).guarded.Yields q Entry.drains
      (fun answer l => match answer with
        | .ok ids => ∃ c : Classification, ids = c.sources ∧ l = c.entries
        | .error _ => ∀ x ∈ l, Unclassified x) fun _ _ => False := by
    refine Yields.guarded ((hlink.classify_drains hL).mono (fun _ _ h => h) fun e l h => ?_)
    rw [if_neg (by simp [h.1])]
    exact h.2
  refine hclassify.bind fun answer l hl => ?_
  cases answer with
  | error fault =>
    exact say_bind_yields (yields_pure ⟨.unclassified l, hl, rfl, List.append_nil l⟩)
  | ok ids =>
    obtain ⟨c, rfl, rfl⟩ := hl
    refine (hlink.stopEach_drains hL c.sources).bind ?_
    rintro stopped l ⟨stops, hids, rfl, rfl⟩
    exact say_bind_yields (yields_pure ⟨.classified c stops, hids, rfl, by simp [Intake.entries]⟩)

/-! ### Queues -/

theorem askQueued_drains : (askQueued link).Yields q Entry.drains
    (fun queued l => l = Request.isDataQueued.noted (.ok queued))
    fun e l => e.interrupts = false ∧ l = Request.isDataQueued.noted (.error e) := by
  have hcounted : (Act.changeDesk fun d => { d with queuePolls := d.queuePolls + 1 }).Within
      (World.Silent q Entry.drains) fun _ => False :=
    fun w => Course.polls (R := World.Silent q Entry.drains) w _
  refine hcounted.bind_yields (fun _ he => he.elim) fun _ => ?_
  exact (hlink.ask_drains (r := .isDataQueued) rfl).mono (fun _ _ h => h.2)
    fun e _ h => ⟨hL _ e h.1, h.2⟩

/-- However the polls end, all of them but the last have found something, or have asked for
another poll. -/
theorem pollUntil_drains (budget : Budget) (listens : Bool) :
    (pollUntil link budget listens (askQueued link) fun queued => return !queued).Yields
      q Entry.drains
      (fun residual l => ∃ p : Polling, p.before.length ≤ budget.maxRetries ∧
        p.graceful = emptied (.ok residual) ∧ l = p.entries)
      fun e l => e.interrupts = false ∧ ∃ p : Polling, p.before.length ≤ budget.maxRetries ∧
        p.graceful = emptied (.error e) ∧ l = p.entries := by
  refine (Yields.pollFrom
    (K := fun a l => FailsWith (fun e => e.interrupts = false) a ∧
      l = Request.isDataQueued.noted a)
    (Z := fun a l => FailsWith (fun e => e.interrupts = false) a ∧ l = [])
    ?_ ?_ listens budget.maxRetries 1).mono ?_ ?_
  · exact (hlink.askQueued_drains hL).mono (fun _ _ hl => ⟨trivial, hl⟩) fun _ _ he => he
  · exact (hlink.ask_within (r := .pause _) rfl (fun _ => rfl) (hL _)).yields.mono
      (fun _ _ hl => ⟨trivial, hl⟩) fun _ _ he => he
  · exact fun residual l h => (Polling.exists_of_polled h).2
  · exact fun e l h => Polling.exists_of_polled h

theorem awaitEmpty_drains (budget : Budget) (listens : Bool) :
    (awaitEmpty link budget listens).Yields q Entry.drains
      (fun r l => ∃ p : Polling, p.before.length ≤ budget.maxRetries ∧ r.1 = p.graceful ∧
        l = p.entries) fun _ _ => False := by
  have hloop : (pollUntil link budget listens (askQueued link) fun queued =>
      return !queued).guarded.Yields q Entry.drains
      (fun answer l => ∃ p : Polling, p.before.length ≤ budget.maxRetries ∧
        p.graceful = emptied answer ∧ l = p.entries) fun _ _ => False := by
    refine Yields.guarded ((hlink.pollUntil_drains hL budget listens).mono (fun _ _ h => h) ?_)
    rintro e l ⟨he, p, hp⟩
    rw [if_neg (by simp [he])]
    exact ⟨p, hp⟩
  have hreset : (Act.changeDesk fun d => { d with queuePolls := 0 }).Within
      (World.Silent q Entry.drains) fun _ => False :=
    fun w => Course.polls (R := World.Silent q Entry.drains) w 0
  refine hreset.bind_yields (fun _ he => he) fun _ => hloop.bind ?_
  rintro answer l ⟨p, hbefore, hgraceful, rfl⟩
  -- whatever is logged then, the answer says whether the last poll has found nothing
  have hend : ∀ graceful, p.graceful = graceful →
      (do return (graceful, (← Act.desk).queuePolls) : Act σ (Bool × Nat)).Yields q Entry.drains
        (fun r l' => ∃ p' : Polling, p'.before.length ≤ budget.maxRetries ∧ r.1 = p'.graceful ∧
          p.entries ++ l' = p'.entries) fun _ _ => False := by
    rintro _ rfl
    refine Within.bind_yields (within_look (F := fun _ => False) _) (fun _ he => he) fun _ => ?_
    exact yields_pure ⟨p, hbefore, rfl, List.append_nil _⟩
  rcases answer with fault | _ | residual
  · exact say_bind_yields (hend _ hgraceful)
  · exact hend _ hgraceful
  · dsimp only
    split
    · exact say_bind_yields (hend _ hgraceful)
    · exact hend _ hgraceful

theorem stopProcessing_drains : (Drain.stopProcessing link).Yields q Entry.drains
    (fun _ l => ∃ answer, l = Request.stopProcessing.noted answer) fun _ _ => False := by
  refine (hlink.guarded_drains hL (r := .stopProcessing) rfl).bind ?_
  rintro (answer : Except Fault Unit) l rfl
  cases answer with
  | ok _ => exact yields_pure ⟨.ok (), List.append_nil _⟩
  | error fault =>
    exact yields_say ⟨.error fault, List.append_nil _⟩

theorem force_drains (budget : Budget) (polls : Nat) :
    (force link budget polls).Yields q Entry.drains
      (fun _ l => ∃ f : Forcing, l = f.entries polls) fun _ _ => False := by
  refine Within.bind_yields (hlink.newId_within (F := fun _ => False)) (fun _ he => he)
    fun requestId => ?_
  refine say_bind_yields ((hlink.stopProcessing_drains hL).bind ?_)
  rintro - l ⟨stopped, rfl⟩
  refine (hlink.guarded_drains hL (r := .dropAllQueued requestId drainRequestor) rfl).bind ?_
  rintro (dropped : Except Fault Unit) l rfl
  have htold : (Drain.publish link (.drainForced polls requestId)).Yields q Entry.drains
      (fun _ l => ∃ f : Forcing, Request.stopProcessing.noted stopped ++
        ((Request.dropAllQueued requestId drainRequestor).noted dropped ++ l) = f.entries polls)
      fun _ _ => False := by
    refine (hlink.publish_drains hL rfl).mono ?_ fun _ _ he => he
    rintro - l ⟨told, rfl⟩
    exact ⟨⟨requestId, stopped, dropped, told⟩, rfl⟩
  cases dropped with
  | ok _ => exact htold
  | error fault => exact say_bind_yields htold

/-! ### Remote endpoints -/

omit hL in
theorem identifier_drains (e : Endpoint) : (link.ask (.endpointIdentifier e)).Yields q Entry.drains
    (fun name l => l = (Request.endpointIdentifier e).noted (.ok name))
    (Unreadable fun e fault => L (.endpointIdentifier e) (.error fault)) := by
  refine (hlink.ask_drains (r := .endpointIdentifier e) rfl).mono (fun _ _ h => h.2) ?_
  rintro fault l ⟨hL, rfl⟩
  exact ⟨e, hL, by simp [Request.noted]⟩

/-- An endpoint takes the request, or refuses it, or cannot be asked. -/
theorem requestStop_drains (e : Endpoint) : (requestStop link e).guarded.Yields q Entry.drains
    (fun answer l => match answer with
      | .ok s => l = (Parting.taken e s.endpointId s.transmission).entries
      | .error fault => (∃ first, l = (Request.endpointIdentifier e).noted (.ok first) ++
          (Request.stopTransmitting e).noted (.error fault)) ∨
          L (.endpointIdentifier e) (.error fault) ∧
            l = (Request.endpointIdentifier e).noted (.error fault))
    fun _ _ => False := by
  have hreads : (requestStop link e).Yields q Entry.drains
      (fun s l => l = (Parting.taken e s.endpointId s.transmission).entries)
      fun fault l => fault.interrupts = false ∧
        ((∃ first, l = (Request.endpointIdentifier e).noted (.ok first) ++
          (Request.stopTransmitting e).noted (.error fault)) ∨
          L (.endpointIdentifier e) (.error fault) ∧
            l = (Request.endpointIdentifier e).noted (.error fault)) := by
    refine Yields.bind ((hlink.ask_drains (r := .endpointIdentifier e) rfl).mono (fun _ _ h => h.2)
      fun fault _ h => ⟨hL _ fault h.1, .inr h⟩) ?_
    rintro (name : String) l rfl
    refine Yields.bind (P := fun t l => l = (Request.stopTransmitting e).noted (.ok t))
      ((hlink.ask_drains rfl).mono (fun _ _ h => h.2) ?_) ?_
    · rintro fault l ⟨he, rfl⟩
      exact ⟨hL _ fault he, .inl ⟨name, rfl⟩⟩
    · rintro (t : Transmission) l rfl
      exact yields_pure (by rw [List.append_nil]; rfl)
  refine Yields.guarded (hreads.mono (fun _ _ h => h) fun fault l h => ?_)
  rw [if_neg (by simp [h.1])]
  exact h.2

/-- All endpoints are asked to stop, each of them once and in order. -/
theorem requestStops_drains (es : List Endpoint) : (requestStops link es).Yields q Entry.drains
    (fun r l => ∃ partings : List Parting, partings.map Parting.endpoint = es ∧
      (∀ p ∈ partings, p.Sound fun e fault => L (.endpointIdentifier e) (.error fault)) ∧
      r = (partings.filterMap Parting.stopping?, partings.filterMap Parting.refusal?) ∧
      l = partings.flatMap Parting.entries)
    (Unreadable fun e fault => L (.endpointIdentifier e) (.error fault)) := by
  induction es with
  | nil => exact yields_pure ⟨[], rfl, by simp, rfl, rfl⟩
  | cons e es ih =>
    rw [requestStops]
    refine (hlink.requestStop_drains hL e).of_safe.bind_unreadable fun answer l hl => ?_
    cases answer with
    | ok s =>
      obtain rfl := hl
      refine ih.bind_unreadable ?_
      rintro _ l ⟨partings, rfl, hsound, rfl, rfl⟩
      refine yields_pure ⟨.taken e s.endpointId s.transmission :: partings, rfl, ?_, rfl, by simp⟩
      simpa [Parting.Sound] using hsound
    | error fault =>
      -- the identifier is read twice more, whatever has failed
      refine (hlink.identifier_drains e).bind_unreadable ?_
      rintro (logged : String) l' rfl
      refine say_bind_yields ((hlink.identifier_drains e).bind_unreadable ?_)
      rintro (name : String) l' rfl
      refine ih.bind_unreadable ?_
      rintro _ l' ⟨partings, rfl, hsound, rfl, rfl⟩
      rcases hl with ⟨first, rfl⟩ | ⟨hfault, rfl⟩
      · refine yields_pure ⟨.refused e first logged name fault :: partings, rfl, ?_, rfl, ?_⟩
        · simpa [Parting.Sound] using hsound
        · simp [Parting.entries]
      · refine yields_pure ⟨.unread e fault logged name :: partings, rfl, ?_, rfl, ?_⟩
        · simpa [Parting.Sound] using ⟨hfault, hsound⟩
        · simp [Parting.entries]

theorem awaitEndpoint_drains (timeout : Float) (s : Stopping) :
    (awaitEndpoint link timeout s).Yields q Entry.drains
      (fun stopped l => ∃ w : Wait, w.stopping = s ∧ stopped = w.answer.isOk ∧
        l = w.entries timeout) fun _ _ => False := by
  refine (hlink.guarded_drains hL (r := .awaitStop s.transmission timeout) rfl).bind ?_
  rintro (answer : Except Fault Unit) l rfl
  cases answer with
  | ok _ => exact yields_pure ⟨⟨s, .ok (), .ok ()⟩, rfl, rfl, rfl⟩
  | error fault =>
    dsimp only
    split
    · next htimeout =>
      refine say_bind_yields ((hlink.publish_drains hL rfl).bind ?_)
      rintro - l ⟨told, rfl⟩
      refine yields_pure ⟨⟨s, .error fault, told⟩, rfl, rfl, ?_⟩
      simp [Wait.entries, Wait.timedOut, htimeout]
    · next htimeout =>
      refine say_bind_yields (yields_pure ⟨⟨s, .error fault, .ok ()⟩, rfl, rfl, ?_⟩)
      simp [Wait.entries, Wait.timedOut, htimeout]

theorem awaitEach_drains (timeout : Float) (ss : List Stopping) :
    (awaitEach link timeout ss).Yields q Entry.drains
      (fun names l => ∃ waits : List Wait, waits.map Wait.stopping = ss ∧
        names = (waits.filter fun w => !w.answer.isOk).map (fun w => w.stopping.endpointId) ∧
        l = waits.flatMap fun w => w.entries timeout) fun _ _ => False := by
  induction ss with
  | nil => exact yields_pure ⟨[], rfl, rfl, rfl⟩
  | cons s ss ih =>
    rw [awaitEach]
    refine (hlink.awaitEndpoint_drains hL timeout s).bind ?_
    rintro _ l ⟨w, rfl, rfl, rfl⟩
    split
    · next hstopped =>
      refine ih.mono ?_ fun _ _ he => he
      rintro names l ⟨waits, rfl, rfl, rfl⟩
      exact ⟨w :: waits, rfl, by simp [hstopped], rfl⟩
    · next hstopped =>
      refine ih.bind ?_
      rintro names l ⟨waits, rfl, rfl, rfl⟩
      exact yields_pure ⟨w :: waits, rfl, by simp [hstopped], by simp⟩

theorem stopTransmission_drains (timeout : Float) :
    (stopTransmission link timeout).Yields q Entry.drains
      (fun names l => ∃ s : Silencing,
        s.Sound (fun e fault => L (.endpointIdentifier e) (.error fault)) ∧ names = s.left ∧
        l = s.entries timeout)
      (Unreadable fun e fault => L (.endpointIdentifier e) (.error fault)) := by
  refine (hlink.guarded_drains hL (r := .remoteEndpoints) rfl).of_safe.bind_unreadable ?_
  rintro (answer : Except Fault (List Endpoint)) l rfl
  cases answer with
  | error fault =>
    exact say_bind_yields
      (yields_pure ⟨.unlisted fault, ⟨by simp [Silencing.partings], rfl⟩, rfl, rfl⟩)
  | ok endpoints =>
    refine (hlink.requestStops_drains hL endpoints).bind_unreadable ?_
    rintro _ l ⟨partings, rfl, hsound, rfl, rfl⟩
    refine (hlink.awaitEach_drains hL timeout _).of_safe.bind_unreadable ?_
    rintro names l ⟨waits, hwaits, rfl, rfl⟩
    refine yields_pure ⟨.listed partings waits, ⟨hsound, hwaits⟩, rfl, ?_⟩
    rw [List.append_nil]
    rfl

/-! ### The whole -/

/-- A drain has an account and reports it, unless some reading of the identifier of an
endpoint fails. -/
theorem drain_recounted (plan : DrainPlan) (listens : Bool) :
    (drain link plan listens).Yields q Entry.drains
      (fun report l => ∃ c : Account,
        c.Makes (fun e fault => L (.endpointIdentifier e) (.error fault)) plan.budget report ∧
        l = c.entries report.polls plan.stopTimeout)
      (Unreadable fun e fault => L (.endpointIdentifier e) (.error fault)) := by
  refine say_bind_yields ((hlink.stopSources_drains hL).of_safe.bind_unreadable ?_)
  rintro sourcesStopped l ⟨intake, hintake, rfl, rfl⟩
  refine (hlink.awaitEmpty_drains hL plan.budget listens).of_safe.bind_unreadable ?_
  rintro ⟨graceful, polls⟩ l ⟨polling, hbudget, rfl, rfl⟩
  have hend : ∀ forcing : Option Forcing, forcing.isSome = !polling.graceful → (do
      Drain.stopProcessing link
      let endpointsTimedOut ← Drain.stopTransmission link plan.stopTimeout
      return DrainReport.mk polling.graceful polls intake.stopped endpointsTimedOut).Yields q
      Entry.drains
      (fun report l => ∃ c : Account,
        c.Makes (fun e fault => L (.endpointIdentifier e) (.error fault)) plan.budget report ∧
        intake.entries ++ (polling.entries ++ (forcing.elim [] (·.entries polls) ++ l)) =
          c.entries report.polls plan.stopTimeout)
      (Unreadable fun e fault => L (.endpointIdentifier e) (.error fault)) := by
    intro forcing hforcing
    refine (hlink.stopProcessing_drains hL).of_safe.bind_unreadable ?_
    rintro - l ⟨stopped, rfl⟩
    refine (hlink.stopTransmission_drains hL plan.stopTimeout).bind_unreadable ?_
    rintro names l ⟨silencing, hsound, rfl, rfl⟩
    refine yields_pure ⟨⟨intake, polling, forcing, stopped, silencing⟩,
      ⟨hintake, hbudget, hforcing, hsound, rfl, rfl, rfl⟩, ?_⟩
    simp [Account.entries, Account.halt]
  dsimp only
  split
  · next hgraceful =>
    exact say_bind_yields (hend none (by simp [hgraceful]))
  · next hgraceful =>
    refine (hlink.force_drains hL plan.budget polls).of_safe.bind_unreadable ?_
    rintro - l ⟨forcing, rfl⟩
    exact hend (some forcing) (by simp [hgraceful])

end Link.Hears

/-- Where nobody else drains the flow, and the host raises nothing but ordinary faults, the
journal of a drain shows its account. -/
theorem Attended.ends_drain {console : Link σ → Command → Act σ Reply} {w : World σ}
    (hw : Attended console w) {h : Host σ} {E : Request → Fault → Prop} (hE : h.Raises E)
    (hordinary : ∀ r e, E r e → e.interrupts = false) (depth : Nat) (plan : DrainPlan)
    (listens : Bool) :
    (drain (h.link console depth) plan listens).Ends w
      (fun report w' => report.polls = queries (w.since w') ∧ ∃ c : Drain.Account,
        c.Makes (fun e => E (.endpointIdentifier e)) plan.budget report ∧
        c.ShownIn (w.since w') report.polls plan.stopTimeout)
      fun e w' => Drain.Unreadable (fun e => E (.endpointIdentifier e)) e (w.since w') := by
  obtain ⟨Q, hQ, hwatch⟩ := hw.exists_watch
  obtain ⟨htallies, hhears⟩ := hwatch h depth
  have hlink := hhears E Entry.drains hE fun _ => Entry.drains_of_murmur
  have hL : ∀ r e, Host.Raising E r (.error e) → e.interrupts = false :=
    fun r e he => hordinary r e (he e rfl)
  have hU : (fun e fault => Host.Raising E (.endpointIdentifier e) (.error fault)) =
      fun e => E (.endpointIdentifier e) := by
    funext e fault
    simp [Host.Raising]
  have hfollows := hlink.drain_recounted hL plan listens w
  rw [hU] at hfollows
  have hqueries := hhears E Entry.isQuery hE fun e he => by
    cases e with
    | asked r => cases r <;> first | rfl | exact he.elim
    | _ => rfl
  refine (hfollows.and (htallies.ends_drain hqueries plan listens hQ)).mono ?_ ?_
  · rintro report w' ⟨⟨l, ⟨c, hc, rfl⟩, hreads⟩, hpolls⟩
    exact ⟨hpolls, c, hc, (hreads hQ).2.2.2.2⟩
  · rintro e w' ⟨⟨l, ⟨endpoint, hU, hmem⟩, hreads⟩, -⟩
    rw [← (hreads hQ).2.2.2.2] at hmem
    exact ⟨endpoint, hU, (List.mem_filter.mp hmem).1⟩

/-- A host that raises ordinary faults only, and lets the identifiers of its endpoints be
read. -/
def Host.Legible (h : Host σ) : Prop :=
  h.Raises fun r e => e.interrupts = false ∧ ∀ endpoint, r ≠ .endpointIdentifier endpoint

/-- Under such a host every drain ends with a report. -/
theorem Attended.ends_drain_legible {console : Link σ → Command → Act σ Reply} {w : World σ}
    (hw : Attended console w) {h : Host σ} (hh : h.Legible) (depth : Nat) (plan : DrainPlan)
    (listens : Bool) :
    (drain (h.link console depth) plan listens).Ends w
      (fun report w' => report.polls = queries (w.since w') ∧ ∃ c : Drain.Account,
        c.Makes (fun _ _ => False) plan.budget report ∧
        c.ShownIn (w.since w') report.polls plan.stopTimeout) fun _ _ => False := by
  refine (hw.ends_drain hh (fun _ _ he => he.1) depth plan listens).mono ?_ ?_
  · rintro report w' ⟨hpolls, c, hc, hshown⟩
    have hnone : (fun (e : Endpoint) (fault : Fault) => fault.interrupts = false ∧
        ∀ endpoint, Request.endpointIdentifier e ≠ .endpointIdentifier endpoint) =
        fun _ _ => False := by
      funext e fault
      exact eq_false fun he => he.2 e rfl
    exact ⟨hpolls, c, hnone ▸ hc, hshown⟩
  · rintro e w' ⟨endpoint, he, -⟩
    exact he.2 endpoint rfl

end HotSwap
