/-
Spans mirror the phases.

With a tracer an attempt has a span of its own, and inside it each phase has one.  The
journal shows that the spans are opened and closed like brackets, that a failure is noted
on the span of the phase that has failed, and what is open while the attempt works.

* `Request.isWork` — what phases ask for: the flow, the enrichment, a pause;
* `Nested` — spans are opened and closed like brackets, around the work of each phase;
* `PhaseSpan` — a phase in its span, and what the journal shows of it;
* `Mirrored` — the spans of an attempt are those of its phases, one after the other;
* `InSpans.mirrored` — phases in their spans are nested as they should be;
* `Link.Records` — a link behind which spans are recorded;
* `runPhase_tracked`, `runPhase_shows` — a phase is shown in its span, whichever way it ends;
* `commit_shows`, `runPhases_shows`, `perform_shows` — and so is an attempt;
* `Updater.ends_apply_mirrored` — the result.

Design notes: a span is open from the answer to the request that opens it until it is asked
to close.  Requests about spans do not fail, and nothing interrupts but the history.
-/
import HotSwap.Proofs.Clearances
import HotSwap.Proofs.Instants
import HotSwap.Proofs.Passages

namespace HotSwap

open Act

variable {σ α : Type} {w w' : World σ} {id : String} {is is' : List Instant}

/-! ### What is tracked -/

/-- Whether a phase makes such a request for its own sake: it calls the flow, has the
candidate enriched, or pauses. -/
def Request.isWork : Request → Bool
  | .enrich _ | .pause _ => true
  | r => r.isCall

/-- Whether an entry opens or closes a span, or asks for work. -/
def Entry.isNested : Entry → Bool
  | .answered (.openSpan _) (.ok _) | .asked (.closeSpan _) => true
  | .asked r => r.isWork
  | _ => false

/-- The same, and the entries that tell of phases and their failures. -/
def Entry.isTracked : Entry → Bool
  | .asked (.publish e) => e.phase?.isSome
  | .asked (.recordFault ..) => true
  | e => e.isNested

theorem Entry.isTracked_of_isNested {e : Entry} (he : e.isNested = true) : e.isTracked = true := by
  cases e with
  | asked r => cases r <;> first | exact he | cases he
  | _ => exact he

theorem Entry.isTracked_of_murmur {A : String → Prop} {e : Entry} (he : e.Murmur A) :
    e.isTracked = false := by
  cases e with
  | asked r =>
    cases r with
    | publish e => cases e <;> first | rfl | exact he.elim
    | keepReport => rfl
    | _ => exact he.elim
  | answered r answer => cases r <;> first | rfl | exact he.elim
  | _ => rfl

theorem Entry.isTracked_of_ofFiles {e : Entry} (he : e.OfFiles) : e.isTracked = false := by
  cases e <;> first | rfl | exact he.elim

/-! ### Nesting -/

/-- What instants make of the spans that are open, the innermost first.  Only the innermost
is closed, and there is work only while two are open: that of the attempt, and in it that of
the phase of the updater. -/
inductive Nested : List (String × Span) → List Instant → List (String × Span) → Prop
  | nil (spans : List (String × Span)) : Nested spans [] spans
  | opens {spans spans' : List (String × Span)} {is : List Instant} {phase : Phase}
      {name : String} {s : Span} (rest : Nested ((name, s) :: spans) is spans') :
      Nested spans (⟨phase, .answered (.openSpan name) (.ok s)⟩ :: is) spans'
  | closes {spans spans' : List (String × Span)} {is : List Instant} {phase : Phase}
      {name : String} {s : Span} (rest : Nested spans is spans') :
      Nested ((name, s) :: spans) (⟨phase, .asked (.closeSpan s)⟩ :: is) spans'
  | works {spans' : List (String × Span)} {is : List Instant} {phase : Phase} {r : Request}
      {s root : Span} (hr : r.isWork = true)
      (rest : Nested [("phase:" ++ phase.text, s), ("update", root)] is spans') :
      Nested [("phase:" ++ phase.text, s), ("update", root)] (⟨phase, .asked r⟩ :: is) spans'
  | apart {spans spans' : List (String × Span)} {is : List Instant} {i : Instant}
      (hi : i.entry.isNested = false) (rest : Nested spans is spans') :
      Nested spans (i :: is) spans'

namespace Nested

variable {spans spans' spans'' : List (String × Span)}

theorem append (h : Nested spans is spans') (h' : Nested spans' is' spans'') :
    Nested spans (is ++ is') spans'' := by
  induction h with
  | nil => exact h'
  | opens _ ih => exact .opens (ih h')
  | closes _ ih => exact .closes (ih h')
  | works hr _ ih => exact .works hr (ih h')
  | apart hi _ ih => exact .apart hi (ih h')

/-- Only what is tracked matters. -/
theorem of_filter (h : Nested spans (is.filter (·.entry.isTracked)) spans') :
    Nested spans is spans' := by
  induction is generalizing spans with
  | nil => exact h
  | cons i is ih =>
    cases hi : i.entry.isTracked with
    | false =>
      rw [List.filter_cons_of_neg (by simp [hi])] at h
      refine .apart ?_ (ih h)
      cases hnested : i.entry.isNested with
      | false => rfl
      | true => rw [Entry.isTracked_of_isNested hnested] at hi; cases hi
    | true =>
      rw [List.filter_cons_of_pos (by simp [hi])] at h
      cases h with
      | opens rest => exact .opens (ih rest)
      | closes rest => exact .closes (ih rest)
      | works hr rest => exact .works hr (ih rest)
      | apart hnot rest => exact .apart hnot (ih rest)

end Nested

/-! ### Phases in their spans -/

/-- A phase that has been passed in a span of its own. -/
structure PhaseSpan where
  phase : Phase
  span : Span
  /-- What was asked for meanwhile, in order. -/
  work : List Request
  isWork : ∀ r ∈ work, r.isWork = true
  failure : Option Failure

namespace PhaseSpan

variable (id : String) (p : PhaseSpan)

/-- What the journal shows inside the span: the work, and the failure of the phase. -/
def inside : List Entry :=
  p.work.map .asked ++
    match p.failure with
    | none => []
    | some f => [.asked (.recordFault p.span f.fault),
        .asked (.publish (.phaseFailed id p.phase f.kind f.fault.describe))]

/-- What it shows after the span: that the phase has been completed. -/
def after : List Entry :=
  match p.failure with
  | none => [.asked (.publish (.phaseCompleted id p.phase))]
  | some _ => []

/-- What it shows of the whole. -/
def entries : List Entry :=
  .asked (.publish (.phaseStarted id p.phase)) ::
    .answered (.openSpan ("phase:" ++ p.phase.text)) (.ok p.span) ::
      (p.inside id ++ .asked (.closeSpan p.span) :: p.after id)

/-- All of it is done in that phase. -/
def instants : List Instant := (p.entries id).map (Instant.mk p.phase)

end PhaseSpan

/-- The spans of an attempt mirror its phases: they are nested, and each phase is passed in
a span of its own, inside that of the attempt. -/
structure Mirrored (id : String) (is : List Instant) : Prop where
  /-- In the end no span is open. -/
  nested : Nested [] is []
  /-- Spans, phases and failures come in this order, and there are no others. -/
  shape : ∃ (root : Span) (spans : List PhaseSpan),
    (is.map (·.entry)).filter Entry.isTracked =
      .answered (.openSpan "update") (.ok root) ::
        (spans.flatMap (PhaseSpan.entries id) ++ [.asked (.closeSpan root)])

/-- Nothing but phases, each in a span of its own. -/
def InSpans (id : String) (is : List Instant) : Prop :=
  ∃ spans : List PhaseSpan, is = spans.flatMap (PhaseSpan.instants id)

instance : Cumulative (InSpans id) where
  nil := ⟨[], rfl⟩
  append := by
    rintro _ _ ⟨spans, rfl⟩ ⟨spans', rfl⟩
    exact ⟨spans ++ spans', List.flatMap_append.symm⟩

/-- The span of an attempt around phases in spans of their own. -/
def Enclosed (id : String) (is : List Instant) : Prop :=
  ∃ (phase phase' : Phase) (root : Span) (inner : List Instant), InSpans id inner ∧
    is = ⟨phase, .answered (.openSpan "update") (.ok root)⟩ ::
      (inner ++ [⟨phase', .asked (.closeSpan root)⟩])

/-- A phase is nested in the span of the attempt. -/
theorem PhaseSpan.nested (p : PhaseSpan) (id : String) (root : Span) :
    Nested [("update", root)] (p.instants id) [("update", root)] := by
  have hwork : ∀ (work : List Request) (rest : List Entry), (∀ r ∈ work, r.isWork = true) →
      Nested [("phase:" ++ p.phase.text, p.span), ("update", root)]
        (rest.map (Instant.mk p.phase)) [("update", root)] →
      Nested [("phase:" ++ p.phase.text, p.span), ("update", root)]
        ((work.map Entry.asked ++ rest).map (Instant.mk p.phase)) [("update", root)] := by
    intro work rest hisWork hrest
    induction work with
    | nil => exact hrest
    | cons r work ih =>
      obtain ⟨hr, hisWork⟩ := List.forall_mem_cons.mp hisWork
      exact .works hr (ih hisWork)
  rw [instants, entries, inside, List.append_assoc]
  refine .apart rfl (.opens (hwork _ _ p.isWork ?_))
  cases hfailure : p.failure with
  | none =>
    rw [after, hfailure]
    exact .closes (.apart rfl (.nil _))
  | some f =>
    rw [after, hfailure]
    exact .apart rfl (.apart rfl (.closes (.nil _)))

theorem InSpans.nested (h : InSpans id is) (root : Span) :
    Nested [("update", root)] is [("update", root)] := by
  obtain ⟨spans, rfl⟩ := h
  induction spans with
  | nil => exact .nil _
  | cons p spans ih => exact (p.nested id root).append ih

theorem InSpans.entries (h : InSpans id is) :
    ∃ spans : List PhaseSpan, is.map (·.entry) = spans.flatMap (PhaseSpan.entries id) := by
  obtain ⟨spans, rfl⟩ := h
  refine ⟨spans, ?_⟩
  rw [List.map_flatMap]
  congr 1
  funext p
  simp [PhaseSpan.instants, Function.comp_def]

/-- What is tracked of an attempt tells that its spans mirror its phases. -/
theorem Enclosed.mirrored (h : Enclosed id (is.filter (·.entry.isTracked))) : Mirrored id is := by
  obtain ⟨phase, phase', root, inner, hinner, hfilter⟩ := h
  refine ⟨.of_filter ?_, ?_⟩
  · rw [hfilter]
    exact .opens ((hinner.nested root).append (.closes (.nil [])))
  · obtain ⟨spans, hspans⟩ := hinner.entries
    refine ⟨root, spans, ?_⟩
    have hmap : (is.map (·.entry)).filter Entry.isTracked =
        (is.filter (·.entry.isTracked)).map (·.entry) := List.filter_map
    rw [hmap, hfilter, List.map_cons, List.map_append, hspans]
    rfl

/-! ### Work -/

/-- Nothing but requests for work. -/
def OfWork (es : List Entry) : Prop :=
  ∃ work : List Request, (∀ r ∈ work, r.isWork = true) ∧ es = work.map Entry.asked

instance : Cumulative OfWork where
  nil := ⟨[], by simp, rfl⟩
  append := by
    rintro _ _ ⟨work, hwork, rfl⟩ ⟨work', hwork', rfl⟩
    exact ⟨work ++ work', List.forall_mem_append.mpr ⟨hwork, hwork'⟩, List.map_append.symm⟩

namespace Request

variable {r : Request}

theorem ofWork_of_isWork (hr : r.isWork = true) (answer : Except Fault r.Answer) :
    OfWork ((r.noted answer).filter Entry.isTracked) := by
  refine ⟨[r], by simpa using hr, ?_⟩
  cases r <;> first | rfl | cases hr

/-- Of a drain only the work is tracked, but not what it tells. -/
theorem ofWork_of_isDrain (hr : r.isDrain = true) (answer : Except Fault r.Answer) :
    OfWork ((r.noted answer).filter Entry.isTracked) := by
  cases r with
  | publish e =>
    refine ⟨[], by simp, ?_⟩
    cases e <;> first | rfl | cases hr
  | _ => exact ofWork_of_isWork (by first | rfl | cases hr) answer

theorem isWork_of_isValidation (hr : r.isValidation = true) : r.isWork = true := by
  cases r <;> first | rfl | cases hr

end Request

/-- A stretch of work, all of it in one phase. -/
def World.Toils (w w' : World σ) : Prop :=
  w.Leaves (fun b _ => b = true) Entry.isTracked OfWork w' ∧ w.Dwells w'

instance : Course (World.Toils (σ := σ)) where
  refl w := ⟨Course.refl w, Course.refl w⟩
  trans h h' := ⟨Course.trans h.1 h'.1, Course.trans h.2 h'.2⟩
  log w log := ⟨Course.log w log, Course.log w log⟩
  polls w n := ⟨Course.polls w n, Course.polls w n⟩

theorem Link.handles_toils (link : Link σ) : link.Handles World.Toils fun _ => True := by
  have hquiet : ∀ {w w' : World σ}, w'.desk = w.desk → w'.journal = w.journal →
      w'.phases = w.phases → w.Toils w' := by
    intro w w' hdesk hjournal hphases
    have hsilent : w.Silent (fun b _ => b = true) Entry.isTracked w' :=
      World.silent_of_journal (fun _ h => h) (by rw [hdesk]) (by rw [hdesk]) hjournal
    exact ⟨hsilent.leaves, World.dwells_of_journal (by rw [hdesk]) (by rw [hdesk]) hjournal hphases⟩
  refine Link.handles_of_course (fun _ _ => hquiet rfl rfl rfl) (fun _ _ => hquiet rfl rfl rfl)
    (fun w e he => ⟨?_, w.dwells_enter e⟩) fun _ _ => hquiet rfl rfl rfl
  exact (World.silent_enter (Entry.isTracked_of_ofFiles he)).leaves

/-! ### Links -/

/-- A running attempt goes on to run, and does not fail; `P` holds of what it returns and of
what is tracked of it. -/
abbrev Act.Tracked (act : Act σ α) (P : α → List Entry → Prop) : Prop :=
  act.Yields (fun b _ => b = true) Entry.isTracked P fun _ _ => False

variable {L : (r : Request) → Except Fault r.Answer → Prop} {link : Link σ} {plan : UpdatePlan}
  {a : Attempt} {phase : Phase} {kind : FailureKind} {F : Fault → Prop}

/-- What comes through the link is heard, and leaves an attempt in its phase; requests about
spans do not fail, and nothing interrupts but the keeping of reports. -/
structure Link.Records (link : Link σ) (L : (r : Request) → Except Fault r.Answer → Prop) :
    Prop where
  hears : link.Hears (fun b _ => b = true) (fun _ => True) Entry.isTracked L
  dwells : link.Keeps World.Dwells (fun _ => True) fun _ => True
  ordinary : ∀ r, (∀ report, r ≠ .keepReport report) → ∀ e, L r (.error e) → e.interrupts = false
  spans : ∀ r : Request, r.isSpan = true → ∀ e, ¬ L r (.error e)

namespace Link.Records

variable (hlink : link.Records L)

include hlink

/-- A request that is not tracked, nor its answer. -/
theorem ask_shows {T : List Instant → Prop} [Cumulative T] {r : Request}
    (hasked : (Entry.asked r).isTracked = false)
    (hanswered : ∀ answer, (Entry.answered r answer).isTracked = false)
    (hF : ∀ e, L r (.error e) → F e) : (link.ask r).Within (World.Shows Entry.isTracked T) F :=
  fun w => ((hlink.hears.ask_within hasked hanswered hF w).and (hlink.dwells.ask r trivial w)).mono
    (fun _ _ h => World.shows_of_silent h.1 h.2)
    fun _ _ he => ⟨he.1.1, World.shows_of_silent he.1.2 he.2.2⟩

theorem time_shows {T : List Instant → Prop} [Cumulative T] :
    link.time.Within (World.Shows Entry.isTracked T) F := fun w =>
  ((hlink.hears.time w).and (hlink.dwells.time w)).mono
    (fun _ _ h => World.shows_of_silent h.1 h.2) fun _ _ he => he.1.1.elim

/-- Requests for work. -/
theorem toils : link.Keeps World.Toils (fun e => e.interrupts = false)
    fun r => r.isWork = true ∨ r.isDrain = true where
  ask r hr := by
    have hwork : ∀ answer, OfWork ((r.noted answer).filter Entry.isTracked) := fun answer =>
      hr.elim (Request.ofWork_of_isWork · answer) (Request.ofWork_of_isDrain · answer)
    have hreport : ∀ report, r ≠ .keepReport report := by
      rintro report rfl
      rcases hr with hr | hr <;> cases hr
    intro w
    refine ((hlink.hears.ask r w).and (hlink.dwells.ask r trivial w)).mono ?_ ?_
    · rintro x w' ⟨⟨l, ⟨-, rfl⟩, hreads⟩, hdwells⟩
      exact ⟨⟨_, hwork (.ok x), hreads⟩, hdwells⟩
    · rintro e w' ⟨⟨l, ⟨hL, rfl⟩, hreads⟩, -, hdwells⟩
      exact ⟨hlink.ordinary r hreport e hL, ⟨_, hwork (.error e), hreads⟩, hdwells⟩
  newId w := ((hlink.hears.newId w).and (hlink.dwells.newId w)).mono
    (fun _ _ h => ⟨h.1.2.leaves, h.2⟩) fun _ _ he => he.1.elim
  time w := ((hlink.hears.time w).and (hlink.dwells.time w)).mono
    (fun _ _ h => ⟨h.1.leaves, h.2⟩) fun _ _ he => he.1.1.elim

/-! ### Reading a phase -/

theorem publish_tracked {e : Event} (he : e.phase?.isSome = true) :
    (Attempt.publish link e).Tracked fun _ l => l = [.asked (.publish e)] := by
  refine (hlink.hears.publish_yields (hlink.ordinary _ (by simp)) fun _ => rfl).mono ?_
    fun _ _ he => he
  rintro - l rfl
  have htracked : (Entry.asked (.publish e)).isTracked = true := he
  rw [List.filter_cons_of_pos htracked, List.filter_nil]

/-- A request about a span does not fail. -/
theorem ask_span {r : Request} (hr : r.isSpan = true) :
    (link.ask r).Tracked fun x l => l = (r.noted (.ok x)).filter Entry.isTracked :=
  (hlink.hears.ask r).mono (fun _ _ h => h.2) fun e _ he => hlink.spans r hr e he.1

theorem annotate_within (s : Span) (facts : List (String × Data)) :
    (Tracing.annotate link s facts).Within (World.Silent (fun b _ => b = true) Entry.isTracked)
      fun _ => False :=
  Tracing.annotate_within s (fun key value => hlink.hears.ask_within rfl (fun _ => rfl)
    (hlink.spans (.annotateSpan s key value) rfl)) facts

/-- An act inside a span is read between its beginning and its end. -/
theorem withSpan_tracked {P : Span → α → List Entry → Prop} (name : String)
    (facts : List (String × Data)) {body : Option Span → Act σ α}
    (hbody : ∀ s, (body (some s)).Tracked (P s)) :
    (Tracing.withSpan link true name facts body).Tracked fun x l => ∃ s inside, P s x inside ∧
      l = .answered (.openSpan name) (.ok s) :: (inside ++ [.asked (.closeSpan s)]) := by
  refine (hlink.ask_span (r := .openSpan name) rfl).bind ?_
  rintro (s : Span) l rfl
  have hinside : (do Tracing.annotate link s facts; body (some s)).Tracked (P s) :=
    (hlink.annotate_within s facts).bind_yields (fun _ he => he) fun _ => hbody s
  refine fun w => ends_ensuring.mpr ((hinside.ends w).mono ?_ fun _ _ he => he.elim)
  rintro x w₁ ⟨inside, hinside, h₁⟩
  refine ((hlink.ask_span (r := .closeSpan s) rfl).ends w₁).mono ?_ fun _ _ he => he.elim
  rintro closed w' ⟨l, rfl, h'⟩
  replace h' : w₁.Reads (fun b _ => b = true) Entry.isTracked [.asked (.closeSpan s)] w' := h'
  exact ⟨inside ++ [.asked (.closeSpan s)], ⟨s, inside, hinside, rfl⟩, h₁.trans h'⟩

/-- The action of a phase is read as the inside of its span. -/
theorem runAction_tracked {action : Act σ (Option α)}
    (haction : action.Within World.Toils fun e => e.interrupts = false) (s : Span) :
    (a.runAction link phase kind action (some s)).Tracked fun r l => ∃ p : PhaseSpan,
      p.phase = phase ∧ p.span = s ∧ p.failure = r.failure ∧ l = p.inside a.id := by
  have hguarded : action.guarded.Tracked fun _ => OfWork := by
    have hwork : action.Yields (fun b _ => b = true) Entry.isTracked (fun _ => OfWork)
        fun e l => e.interrupts = false ∧ OfWork l :=
      (haction.mono (fun _ _ h => h.1) fun _ he => he).yields_leaves
    refine Yields.guarded (hwork.mono (fun _ _ h => h) fun e l he => ?_)
    rw [if_neg (by simp [he.1])]
    exact he.2
  refine hguarded.bind ?_
  rintro (fault | value) l ⟨work, hwork, rfl⟩
  · have hfail : (a.failPhase link phase kind (some s) fault).Tracked fun _ l =>
        l = [.asked (.recordFault s fault),
          .asked (.publish (.phaseFailed a.id phase kind fault.describe))] := by
      refine (hlink.ask_span (r := .recordFault s fault) rfl).bind ?_
      rintro - l rfl
      refine (within_record (F := fun _ => False)).bind_yields (fun _ he => he) fun _ => ?_
      refine (hlink.publish_tracked rfl).mono ?_ fun _ _ he => he
      rintro - l rfl
      rfl
    refine hfail.bind ?_
    rintro - l rfl
    refine yields_pure ⟨⟨phase, s, work, hwork, some ⟨kind, fault⟩⟩, rfl, rfl, rfl, ?_⟩
    rw [List.append_nil]
    rfl
  · exact yields_pure ⟨⟨phase, s, work, hwork, none⟩, rfl, rfl, rfl, rfl⟩

/-- A phase is read in its span, between the events that it starts and ends with. -/
theorem runPhase_tracked (htracing : plan.tracing = true) {action : Act σ (Option α)}
    (haction : action.Within World.Toils fun e => e.interrupts = false) :
    (a.runPhase link plan phase kind action).Tracked fun _ l => ∃ p : PhaseSpan,
      p.phase = phase ∧ l = p.entries a.id := by
  refine Within.bind_yields (F := fun _ => False)
    (fun w => World.silent_of_journal (fun _ h => h) rfl rfl rfl) (fun _ he => he) fun _ => ?_
  refine (hlink.publish_tracked (e := .phaseStarted a.id phase) rfl).bind ?_
  rintro - l rfl
  rw [htracing]
  refine (hlink.withSpan_tracked _ _ fun s => hlink.runAction_tracked haction s).bind ?_
  rintro r l ⟨_, _, ⟨p, rfl, rfl, hfailure, rfl⟩, rfl⟩
  dsimp only
  cases hr : r.failure with
  | none =>
    have hok : r.ok = true := by simp [PhaseResult.ok, hr]
    rw [if_pos hok]
    refine (within_record (F := fun _ => False)).bind_yields (fun _ he => he) fun _ => ?_
    refine (hlink.publish_tracked (e := .phaseCompleted a.id p.phase) rfl).bind ?_
    rintro - l rfl
    refine yields_pure ⟨p, rfl, ?_⟩
    simp [PhaseSpan.entries, PhaseSpan.after, hfailure, hr]
  | some f =>
    have hok : ¬ r.ok = true := by simp [PhaseResult.ok, hr]
    rw [if_neg hok]
    refine yields_pure ⟨p, rfl, ?_⟩
    simp [PhaseSpan.entries, PhaseSpan.after, hfailure, hr]

/-! ### Attempts -/

/-- Whichever way a phase ends, it is shown in its span. -/
theorem runPhase_shows (htracing : plan.tracing = true) {action : Act σ (Option α)}
    (haction : action.Within World.Toils fun e => e.interrupts = false) :
    (a.runPhase link plan phase kind action).Within (World.Shows Entry.isTracked (InSpans a.id))
      F := by
  have hask : ∀ r, (link.ask r).Within World.Dwells fun _ => True := fun r =>
    hlink.dwells.ask r trivial
  have hunderway : a.Underway link World.Dwells (fun _ => True) phase :=
    ⟨fun _ _ => hask _, hask _, fun _ => hask _, fun _ _ _ => hask _, fun _ _ => hask _,
      fun _ => hask _⟩
  have hdwells : (do
      Attempt.publish link (.phaseStarted a.id phase)
      a.continuePhase link plan phase kind action).Within World.Dwells fun _ => True :=
    ((Attempt.publish_within _ (hask _)).weaken fun _ => And.left).bind fun _ =>
      hunderway.continuePhase_within absorbs_self (haction.mono (fun _ _ h => h.2) fun _ _ => trivial)
        kind
  intro w
  -- all that is done after the phase has begun is done in it
  have hphase : (a.runPhase link plan phase kind action).Ends w
      (fun _ w' => World.Dwells { w with desk := { w.desk with phase } } w')
      fun _ w' => World.Dwells { w with desk := { w.desk with phase } } w' := by
    rw [Attempt.runPhase_eq, ends_bind, ends_changeDesk]
    exact (hdwells _).mono (fun _ _ h => h) fun _ _ he => he.2
  refine (((hlink.runPhase_tracked htracing haction).ends w).and hphase).mono ?_
    fun _ _ he => he.1.elim
  rintro r w' ⟨⟨l, ⟨p, rfl, rfl⟩, hreads⟩, hdwells⟩
  have hshown : InSpans a.id ((p.entries a.id).map (Instant.mk p.phase)) :=
    ⟨[p], (List.append_nil _).symm⟩
  refine .of_reads hreads (fun hengaged => ?_) hshown
  obtain ⟨-, -, es, hadds⟩ := hdwells hengaged
  exact ⟨es, hadds.journal, hadds.phases⟩

theorem runStep_shows (htracing : plan.tracing = true) {action : Act σ Unit}
    (haction : action.Within World.Toils fun e => e.interrupts = false) :
    (a.runStep link plan phase kind action).Within (World.Shows Entry.isTracked (InSpans a.id)) F :=
  hlink.runPhase_shows htracing (haction.bind fun _ => within_pure _)

theorem drainPhase_shows (htracing : plan.tracing = true) :
    (a.drainPhase link plan).Within (World.Shows Entry.isTracked (InSpans a.id)) F := by
  have hdrain : (do return some (← drain link plan.drain true)).Within World.Toils
      fun e => e.interrupts = false :=
    (drain_within (hlink.toils.mono fun _ => .inr) plan.drain true).bind fun _ => within_pure _
  refine (hlink.runPhase_shows htracing hdrain).bind fun r => ?_
  dsimp only
  split
  · exact Within.bind (fun _ => World.shows_of_journal rfl rfl rfl) fun _ => within_pure _
  · exact within_pure _

theorem loadFlow_toils : (loadFlow link).Within World.Toils fun e => e.interrupts = false :=
  loadFlow_within (hlink.toils.ask _ (.inl rfl)) (hlink.toils.ask _ (.inl rfl)) fun _ he => he

theorem validateAndStart_toils (budget : Budget) (listens : Bool) :
    (validateAndStart link budget listens).Within World.Toils fun e => e.interrupts = false :=
  validateAndStart_within (fun _ he => he)
    (hlink.toils.mono fun _ hr => .inl (Request.isWork_of_isValidation hr)) budget listens
    (hlink.toils.ask _ (.inl rfl))

theorem rollBack_shows (htracing : plan.tracing = true) (failed : PhaseFailure) :
    (a.rollBack link plan failed).Within (World.Shows Entry.isTracked (InSpans a.id)) F :=
  Attempt.rollBack_within_of_steps absorbs_self a
    (hlink.runStep_shows htracing (Attempt.revertFiles_within link.handles_toils _ trivial))
    (hlink.runStep_shows htracing (Attempt.reloadReverted_within hlink.loadFlow_toils
      (hlink.validateAndStart_toils _ _) fun _ he => he)) failed

/-- The phases of a commit are shown one after the other, each in its span. -/
theorem commit_shows (htracing : plan.tracing = true) (raw rendered : Bytes) :
    (a.commit link plan raw rendered).Within (World.Shows Entry.isTracked (InSpans a.id)) F := by
  have hforward : ∀ act ∈ a.forward link plan raw rendered,
      act.Within (World.Shows Entry.isTracked (InSpans a.id)) F := by
    rw [Attempt.forward, List.forall_mem_cons, List.forall_mem_cons, List.forall_mem_cons,
      List.forall_mem_cons, List.forall_mem_singleton]
    exact ⟨hlink.runStep_shows htracing (FileSet.backup_within link.handles_toils _ trivial),
      hlink.runStep_shows htracing (FileSet.persist_within link.handles_toils _ _ _ trivial),
      hlink.drainPhase_shows htracing, hlink.runStep_shows htracing hlink.loadFlow_toils,
      hlink.runStep_shows htracing (hlink.validateAndStart_toils _ _)⟩
  refine (Attempt.firstFailure_within hforward).bind fun failed => ?_
  cases failed with
  | none => exact within_pure _
  | some failed => exact hlink.rollBack_shows htracing failed

/-- The end of an attempt is not tracked. -/
theorem finish_shows {T : List Instant → Prop} [Cumulative T] (o : Outcome)
    (drained : Option DrainReport) : (a.finish link plan o drained).Within
      (World.Shows Entry.isTracked T) fun _ => True :=
  a.finish_within plan o drained hlink.time_shows
    (fun _ _ _ _ => hlink.ask_shows rfl (fun _ => rfl) fun _ _ => trivial)
    fun _ _ => hlink.ask_shows rfl (fun _ => rfl) fun _ _ => trivial

theorem runPhases_shows (htracing : plan.tracing = true) (raw : Bytes) :
    (a.runPhases link plan raw).Within (World.Shows Entry.isTracked (InSpans a.id))
      fun _ => True := by
  have hhandles : link.Handles (World.Shows Entry.isTracked (InSpans a.id)) fun _ => True :=
    Link.handles_of_course (fun _ _ => World.shows_of_journal rfl rfl rfl)
      (fun _ _ => World.shows_of_journal rfl rfl rfl)
      (fun _ _ he => World.shows_enter (Entry.isTracked_of_ofFiles he))
      fun _ _ => World.shows_of_journal rfl rfl rfl
  have henrich : (Attempt.enrich link plan raw).Within World.Toils fun e => e.interrupts = false :=
    Attempt.enrich_within (hlink.toils.ask _ (.inl rfl)) fun _ he => he
  have hfinish : ∀ o drained, (a.finish link plan o drained).Within
      (World.Shows Entry.isTracked (InSpans a.id)) fun _ => True := hlink.finish_shows
  rw [Attempt.runPhases]
  refine (hlink.runPhase_shows htracing henrich).bind fun enriched => ?_
  cases enriched.failed? with
  | some failed =>
    exact within_record.bind fun _ => (within_look _).bind fun _ => hfinish _ _
  | none =>
    dsimp only
    cases enriched.value with
    | none => exact within_raise trivial
    | some rendered =>
      have hcommit : (FileSet.transaction link plan.files (a.commit link plan raw rendered)).Within
          (World.Shows Entry.isTracked (InSpans a.id)) fun _ => True :=
        absorbs_self.ensuring (hlink.commit_shows htracing raw rendered)
          (FileSet.cleanup_within hhandles _ trivial)
      exact hcommit.bind fun outcome => (within_look _).bind fun _ => hfinish _ _

/-! ### The span of an attempt -/

theorem annotate_shows {T : List Instant → Prop} [Cumulative T] (s : Span)
    (facts : List (String × Data)) :
    (Tracing.annotate link s facts).Within (World.Shows Entry.isTracked T) F :=
  Tracing.annotate_within s (fun key value => hlink.ask_shows rfl (fun _ => rfl) fun e he =>
    absurd he (hlink.spans (.annotateSpan s key value) rfl e)) facts

/-- What a request about a span shows. -/
theorem ends_ask_span {r : Request} (hr : r.isSpan = true) (w : World σ) :
    (link.ask r).Ends w (fun x w' => w.Shows Entry.isTracked (fun is => ∃ phase,
      is = ((r.noted (.ok x)).filter Entry.isTracked).map (Instant.mk phase)) w')
      fun _ _ => False := by
  refine (((hlink.ask_span hr).ends w).and (hlink.dwells.ask r trivial w)).mono ?_
    fun _ _ he => he.1.elim
  rintro x w' ⟨⟨l, rfl, hreads⟩, hdwells⟩
  exact .of_reads hreads (fun h => (hdwells h).2.2) ⟨_, rfl⟩

/-- However the phases inside it end, the span of the attempt encloses them. -/
theorem withUpdateSpan_shows (attemptId : String) (digest : Option String) {body : Act σ α}
    (hbody : body.Within (World.Shows Entry.isTracked (InSpans id)) F) :
    (Tracing.withUpdateSpan link true attemptId digest fun _ => body).Within
      (World.Shows Entry.isTracked (Enclosed id)) F := by
  intro w
  refine (hlink.ends_ask_span (r := .openSpan "update") rfl w).bind ?_ fun _ _ he => he.elim
  rintro (s : Span) w₁ h₁
  have hinside := ((hlink.annotate_shows s (("update.attempt_id", .text attemptId) ::
    digest.toList.map fun digest => ("update.candidate_sha256", .text digest))).bind
      fun _ => hbody) w₁
  have henclosed : ∀ {w₂ w' : World σ}, w₁.Shows Entry.isTracked (InSpans id) w₂ →
      w₂.Shows Entry.isTracked (fun is => ∃ phase, is = [⟨phase, .asked (.closeSpan s)⟩]) w' →
      w.Shows Entry.isTracked (Enclosed id) w' := by
    intro w₂ w' h₂ h₃
    have h₂₃ : w₁.Shows Entry.isTracked (fun is => ∃ inner phase', InSpans id inner ∧
        is = inner ++ [⟨phase', .asked (.closeSpan s)⟩]) w' := by
      refine h₂.trans h₃ ?_
      rintro inner _ hinner ⟨phase', rfl⟩
      exact ⟨inner, phase', hinner, rfl⟩
    refine h₁.trans h₂₃ ?_
    rintro _ _ ⟨phase, rfl⟩ ⟨inner, phase', hinner, rfl⟩
    exact ⟨phase, phase', s, inner, hinner, rfl⟩
  refine ends_ensuring.mpr (hinside.mono ?_ ?_)
  · exact fun _ w₂ h₂ => (hlink.ends_ask_span (r := .closeSpan s) rfl w₂).mono
      (fun _ _ h₃ => henclosed h₂ h₃) fun _ _ he => he.elim
  · exact fun _ w₂ he => (hlink.ends_ask_span (r := .closeSpan s) rfl w₂).mono
      (fun _ _ h₃ => ⟨he.1, henclosed he.2 h₃⟩) fun _ _ he => he.elim

theorem perform_shows (htracing : plan.tracing = true) (raw : Bytes) :
    (a.perform link plan raw).Within (World.Shows Entry.isTracked (Enclosed a.id))
      fun _ => True := by
  -- what comes before the span is not tracked
  have hbefore : ∀ {β γ : Type} {b : Act σ β} {f : β → Act σ γ},
      b.Within (World.Shows Entry.isTracked (· = [])) (fun _ => False) →
      (∀ x, (f x).Within (World.Shows Entry.isTracked (Enclosed a.id)) fun _ => True) →
      (b >>= f).Within (World.Shows Entry.isTracked (Enclosed a.id)) fun _ => True :=
    fun hb hf => hb.bind_shows hf (by rintro _ _ rfl h; exact h)
  have hpublish : (Attempt.publish link (.updateStarted a.id a.digest a.size)).Within
      (World.Shows Entry.isTracked (· = [])) fun _ => False := by
    refine (Attempt.publish_within (F := fun e => e.interrupts = false) _
      (hlink.ask_shows rfl (fun _ => rfl) (hlink.ordinary _ (by simp)))).weaken fun e he => ?_
    exact Fault.ordinary he.1 he.2
  rw [Attempt.perform, htracing]
  refine hbefore within_record fun _ => hbefore within_record fun _ => hbefore hpublish fun _ => ?_
  exact hlink.withUpdateSpan_shows _ _ (hlink.runPhases_shows htracing raw)

/-- What ends an attempt of which a fault has escaped comes after its span. -/
theorem attempt_shows (htracing : plan.tracing = true) (raw : Bytes) :
    (Updater.attempt link plan a raw).Within (World.Shows Entry.isTracked (Enclosed a.id))
      fun _ => True := by
  intro w
  rw [Updater.attempt, ends_bind, ends_guarded]
  refine (hlink.perform_shows htracing raw w).mono (fun _ _ h => h) fun e w₁ he => ?_
  split
  · exact he
  · have hafter : (Updater.finishUnexpected link plan a e).Within
        (World.Shows Entry.isTracked (· = [])) fun _ => True :=
      (within_look _).bind fun _ => within_record.bind fun _ => hlink.finish_shows _ _
    have hlast : ∀ {w'}, w₁.Shows Entry.isTracked (· = []) w' →
        w.Shows Entry.isTracked (Enclosed a.id) w' := fun h =>
      he.2.trans h (by rintro is _ h rfl; rwa [List.append_nil])
    exact (hafter w₁).mono (fun _ _ h => hlast h) fun _ _ h => ⟨trivial, hlast h.2⟩

end Link.Records

/-! ### Updates -/

/-- The name of a span that is asked for. -/
def Entry.opened? : Entry → Option String
  | .asked (.openSpan name) => some name
  | _ => none

namespace Sample

/-- The end of an attempt with a tracer that can neither persist its candidate nor restore the
files. -/
def unrestoredTraced : Except Fault UpdateReport × World Nat :=
  (Updater.apply (unrestoring.link (Updater.console traced) 0) traced [2]).run world

theorem unrestoredTraced_eq :
    (Updater.apply (unrestoring.link (Updater.console traced) 0) traced [2]).run world =
      unrestoredTraced := rfl

end Sample

namespace Updater

variable {h : Host σ} {E : Request → Fault → Prop} {plan : UpdatePlan}

/-- The spans of an update on a free desk mirror its phases, however it ends and however
deep the orders of its host are nested.  Spans are recorded without fail, and nothing
interrupts but the keeping of reports.  An update that is ordered meanwhile is refused, and
has no spans. -/
theorem ends_apply_mirrored (hraises : h.Raises E) (htracing : plan.tracing = true)
    (hspans : ∀ r : Request, r.isSpan = true → ∀ e, ¬ E r e)
    (hordinary : ∀ r e, (∀ report, r ≠ .keepReport report) → E r e → e.interrupts = false)
    (hfree : w.desk.engaged = false) (depth : Nat) (raw : Bytes) :
    (apply (h.link (console plan) depth) plan raw).Ends w
      (fun _ w' => Mirrored (h.freshId w.host).1 (w.instants w'))
      fun _ w' => Mirrored (h.freshId w.host).1 (w.instants w') := by
  have hlink : (h.link (console plan) depth).Records (Host.Raising E) :=
    { hears := (hraises.abides (· = true)).hears_console (fun _ _ hb => hb)
        (fun _ => Entry.isTracked_of_murmur) plan depth
      dwells := h.dwells_link plan depth
      ordinary := fun r hr e he => hordinary r e hr (he e rfl)
      spans := fun r hr e he => hspans r hr e (he e rfl) }
  have hid : (newAttempt (h.link (console plan) depth) raw w).id = (h.freshId w.host).1 := by
    rw [newAttempt, Host.freshId_link]
  rw [ends_apply_of_free hfree, ← hid]
  refine (hlink.attempt_shows htracing raw _).mono ?_ ?_
  · exact fun _ w' hshows => (hshows.instants rfl).mirrored
  · exact fun _ w' he => (he.2.instants rfl).mirrored

attribute [local irreducible] Act.Ends Sample.unrestoredTraced in
/-- An attempt that can neither persist its candidate nor restore the files: two of its
phases fail. -/
theorem ends_apply_mirrored_unrestoring :
    (Sample.unrestoredTraced.2.journal.filterMap Entry.opened?) =
        ["update", "phase:enriching", "phase:backing_up", "phase:persisting",
          "phase:reverting_files"] ∧
      Mirrored "0" (Sample.world.instants Sample.unrestoredTraced.2) := by
  have hraises : Sample.unrestoring.Raises fun _ _ => False :=
    Host.plain_raises fun _ _ he => by cases he
  have htracing : Sample.traced.tracing = true := rfl
  have hrun := (ends_apply_mirrored (w := Sample.world) hraises htracing (fun _ _ _ he => he)
    (fun _ _ _ he => he.elim) rfl 0 [2]).world
  rw [Sample.unrestoredTraced_eq] at hrun
  exact ⟨by decide +kernel, hrun⟩

end Updater

end HotSwap
