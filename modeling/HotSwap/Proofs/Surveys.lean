/-
What the journal shows of a validation.

The components of the flow are listed; they are asked for their status, round after round,
with a pause before each round but the first; and then they are asked for their errors.
Any of these questions may be answered with a fault, and nothing of the same part is asked
then, but that a component may ask for another round.  The journal shows how far each part
has come.

* `Request.examines`, `Entry.examines` — the steps of a validation, and the start after it;
* `Listing`, `Sweep`, `Settling`, `Findings` — the parts;
* `Link.Hears.settle_examines`, `Link.Hears.issues_examines` and their like — the journal
  shows the parts, whatever is answered.

Design notes: the identifiers of components can be read here, so that only listing, asking
and pausing can be cut short.  Pauses count among the entries, for one that raises ends the
rounds, and no component shows it.
-/
import HotSwap.Proofs.Clearances

namespace HotSwap

open Act

variable {σ β : Type} {q : Bool → σ → Prop} {A : String → Prop}
  {L : (r : Request) → Except Fault r.Answer → Prop} {link : Link σ} {cs : List Component}

/-! ### Steps -/

/-- Whether a request is a step of a validation, or the start of the flow. -/
def Request.examines : Request → Bool
  | .startProcessing => true
  | r => r.isValidation

/-- Whether an entry is such a step, or the answer to one. -/
def Entry.examines : Entry → Bool
  | .asked r | .answered r _ => r.examines
  | _ => false

theorem Entry.examines_of_murmur {e : Entry} (he : e.Murmur A) : e.examines = false := by
  have hr : ∀ r : Request, r.Concludes A → r.examines = false := fun r hr => by
    cases r <;> first | rfl | exact hr.elim
  cases e with
  | asked r => exact hr r he
  | answered r answer => exact hr r he
  | _ => rfl

theorem Request.filter_examines {r : Request} (hr : r.examines = true)
    (answer : Except Fault r.Answer) : (r.noted answer).filter Entry.examines = r.noted answer := by
  simp [noted, Entry.examines, hr]

/-! ### The components -/

/-- How the components of the flow are listed: whole, or cut short by a fault. -/
inductive Listing where
  | noServices (fault : Fault)
  | noTasks (services : List Component) (fault : Fault)
  | noProcessors (services tasks : List Component) (fault : Fault)
  /-- With what the journal shows of the identifiers of the processors, and those of the
  processors that count. -/
  | whole (services tasks processors : List Component) (identifiers : List Entry)
      (distinct : List Component)

namespace Listing

/-- The fault that has cut it short. -/
def fault : Listing → Option Fault
  | noServices e | noTasks _ e | noProcessors _ _ e => some e
  | whole .. => none

/-- The components that have to be valid, if they could be listed. -/
def components : Listing → List Component
  | whole services tasks _ _ distinct => services ++ tasks ++ distinct
  | _ => []

/-- What the journal shows of it. -/
def entries : Listing → List Entry
  | noServices e => Request.controllerServices.noted (.error e)
  | noTasks services e =>
    Request.controllerServices.noted (.ok services) ++ Request.reportingTasks.noted (.error e)
  | noProcessors services tasks e =>
    Request.controllerServices.noted (.ok services) ++
    (Request.reportingTasks.noted (.ok tasks) ++ Request.processors.noted (.error e))
  | whole services tasks processors identifiers _ =>
    Request.controllerServices.noted (.ok services) ++
    (Request.reportingTasks.noted (.ok tasks) ++
    (Request.processors.noted (.ok processors) ++ identifiers))

/-- Of the processors with one identifier only the first counts. -/
def Sound : Listing → Prop
  | whole _ _ processors identifiers distinct => Flattened [] processors identifiers distinct
  | _ => True

end Listing

/-! ### Rounds -/

namespace Sweep

/-- What the journal shows of rounds with pauses in between, and of the fault of the pause
after the last one, if that raises. -/
def shown (seconds : Float) (rounds : List Sweep) (restless : Option Fault) : List Entry :=
  ((Request.pause seconds).noted (.ok ())).intercalate (rounds.map entries) ++
    restless.elim [] fun e => (Request.pause seconds).noted (.error e)

end Sweep

/-- The faults that end rounds of validation: that of the pause after the last one, or else
that of the last one itself. -/
def Sweep.ending (rounds : List Sweep) (restless : Option Fault) : List Fault :=
  restless.elim (rounds.getLast?.elim [] Survey.faults) fun e => [e]

/-- Rounds of validation, with so many after the first one, and how they end: with what is
pending after the last one, or with the fault of a component or of a pause.  Where there may
be another round there is one, unless the loop listens to the token. -/
inductive Settling (listens : Bool) (cs : List Component) :
    Nat → List Sweep → Option Fault → Except Fault (List Component) → Prop
  | last {left : Nat} {s : Sweep} {outcome : Except Fault (List Component)}
      (h : s.Gives cs outcome) (hends : s.Open cs → left = 0 ∨ listens = true) :
      Settling listens cs left [s] none outcome
  | restless {left : Nat} {s : Sweep} (h : s.Open cs) (e : Fault) :
      Settling listens cs (left + 1) [s] (some e) (.error e)
  | again {left : Nat} {s : Sweep} {rounds : List Sweep} {restless : Option Fault}
      {outcome : Except Fault (List Component)} (h : s.Open cs)
      (rest : Settling listens cs left rounds restless outcome) :
      Settling listens cs (left + 1) (s :: rounds) restless outcome

namespace Settling

variable {listens : Bool} {left : Nat} {rounds : List Sweep} {restless : Option Fault}
  {outcome : Except Fault (List Component)}

theorem ne_nil (h : Settling listens cs left rounds restless outcome) : rounds ≠ [] := by
  cases h <;> simp

theorem length_le (h : Settling listens cs left rounds restless outcome) :
    rounds.length ≤ left + 1 := by
  induction h with
  | again _ _ ih => exact Nat.succ_le_succ ih
  | _ => exact Nat.succ_le_succ (Nat.zero_le _)

/-- In each round the components are asked in order. -/
theorem covers (h : Settling listens cs left rounds restless outcome) :
    ∀ s ∈ rounds, ∃ fault, s.Covers cs fault := by
  induction h with
  | last h => exact List.forall_mem_singleton.mpr h.covers
  | restless h => exact List.forall_mem_singleton.mpr h.covers
  | again h _ ih => exact List.forall_mem_cons.mpr ⟨h.covers, ih⟩

/-- After every round but the last there might have been another one. -/
theorem open_before (h : Settling listens cs left rounds restless outcome) :
    ∀ s ∈ rounds.dropLast, s.Open cs := by
  induction h with
  | again h rest ih =>
    rw [List.dropLast_cons_of_ne_nil rest.ne_nil]
    exact List.forall_mem_cons.mpr ⟨h, ih⟩
  | _ => simp

/-- If a pause has failed, there might have been another round after the last one, too. -/
theorem open_of_restless (h : Settling listens cs left rounds restless outcome)
    (hrestless : restless ≠ none) : ∀ s ∈ rounds, s.Open cs := by
  induction h with
  | last => exact absurd rfl hrestless
  | restless h => exact List.forall_mem_singleton.mpr h
  | again h _ ih => exact List.forall_mem_cons.mpr ⟨h, ih hrestless⟩

theorem ending_cons (h : Settling listens cs left rounds restless outcome) (s : Sweep) :
    Sweep.ending (s :: rounds) restless = Sweep.ending rounds restless := by
  rw [Sweep.ending, Sweep.ending, List.getLast?_cons_of_ne_nil h.ne_nil]

/-- Rounds that end with what is pending end by no fault. -/
theorem ending_of_ok {pending : List Component}
    (h : Settling listens cs left rounds restless (.ok pending)) :
    Sweep.ending rounds restless = [] := by
  generalize ho : Except.ok pending = outcome at h
  induction h with
  | last h =>
    cases h with
    | whole h => exact h.faults_eq
    | cut => cases ho
  | restless => cases ho
  | again _ rest ih => rw [rest.ending_cons, ih ho]

/-- Otherwise they end by the fault that they raise. -/
theorem ending_of_error {e : Fault} (h : Settling listens cs left rounds restless (.error e)) :
    Sweep.ending rounds restless = [e] := by
  generalize ho : Except.error e = outcome at h
  induction h with
  | last h =>
    cases h with
    | whole => cases ho
    | cut h =>
      obtain rfl := Except.error.inj ho
      exact h.faults_eq
  | restless =>
    obtain rfl := Except.error.inj ho
    rfl
  | again _ rest ih => rw [rest.ending_cons, ih ho]

/-- Whatever fault a component has raised ends them, or asks for another round. -/
theorem heard (h : Settling listens cs left rounds restless outcome) : ∀ s ∈ rounds, ∀ e ∈ s.faults,
    e ∈ Sweep.ending rounds restless ∨ e.asksAgain = true := by
  induction h with
  | last => exact List.forall_mem_singleton.mpr fun _ he => .inl he
  | restless h => exact List.forall_mem_singleton.mpr fun _ he => .inr (h.asksAgain he)
  | again h rest ih =>
    rw [rest.ending_cons]
    exact List.forall_mem_cons.mpr ⟨fun _ he => .inr (h.asksAgain he), ih⟩

/-- Rounds after each of which there might have been another one are as many as there can be,
if the loop does not listen. -/
theorem length_eq (h : Settling listens cs left rounds restless outcome)
    (hdeaf : listens = false) (hrestless : restless = none)
    (hopen : ∀ s ∈ rounds, s.Open cs) : rounds.length = left + 1 := by
  induction h with
  | last _ hends =>
    rcases hends (List.forall_mem_singleton.mp hopen) with rfl | hlistens
    · rfl
    · exact absurd (hlistens.symm.trans hdeaf) (by decide)
  | restless => cases hrestless
  | again _ _ ih =>
    exact congrArg Nat.succ (ih hrestless (List.forall_mem_cons.mp hopen).2)

theorem restless_eq_none {pending : List Component}
    (h : Settling listens cs left rounds restless (.ok pending)) : restless = none := by
  generalize ho : Except.ok pending = outcome at h
  induction h with
  | last => rfl
  | restless => cases ho
  | again _ _ ih => exact ih ho

/-- What is pending in the end is so after the last round. -/
theorem pending_last {pending : List Component}
    (h : Settling listens cs left rounds restless (.ok pending)) :
    ∃ before last, rounds = before ++ [last] ∧ pending = last.pending := by
  generalize ho : Except.ok pending = outcome at h
  induction h with
  | @last _ s _ hs =>
    cases hs with
    | whole => exact ⟨[], s, rfl, Except.ok.inj ho⟩
    | cut => cases ho
  | restless => cases ho
  | @again _ s _ _ _ _ _ ih =>
    obtain ⟨before, last, rfl, hlast⟩ := ih ho
    exact ⟨s :: before, last, rfl, hlast⟩

/-- The rounds end with nothing pending if and only if nothing is so after one of them. -/
theorem settled_iff (h : Settling listens cs left rounds restless outcome) :
    outcome = .ok [] ↔ ∃ s ∈ rounds, s.Covers cs none ∧ s.pending = [] := by
  induction h with
  | last h =>
    cases h with
    | whole h => simp [h]
    | cut h =>
      have hcut : ∀ s : Sweep, s.Covers cs none → s.faults = [] := fun s hs => hs.faults_eq
      simp only [List.mem_singleton, exists_eq_left, reduceCtorEq, false_iff]
      rintro ⟨hnone, -⟩
      simpa [h.faults_eq] using hcut _ hnone
  | restless h =>
    simp only [List.mem_singleton, exists_eq_left, reduceCtorEq, false_iff]
    exact fun hs => h.pending_ne_nil hs.1 hs.2
  | again h _ ih =>
    rw [ih, List.exists_mem_cons_iff]
    exact ⟨.inr, fun hor => hor.resolve_left fun hs => h.pending_ne_nil hs.1 hs.2⟩

/-- If the rounds end with something pending, there might have been another round after each
of them. -/
theorem open_of_pending {pending : List Component}
    (h : Settling listens cs left rounds restless (.ok pending)) (hpending : pending ≠ []) :
    ∀ s ∈ rounds, s.Open cs := by
  generalize ho : Except.ok pending = outcome at h
  induction h with
  | last h =>
    cases h with
    | whole h =>
      obtain rfl := Except.ok.inj ho
      exact List.forall_mem_singleton.mpr (.pending h hpending)
    | cut => cases ho
  | restless => cases ho
  | again h _ ih => exact List.forall_mem_cons.mpr ⟨h, ih ho⟩

theorem shown_cons (h : Settling listens cs left rounds restless outcome) (s : Sweep)
    (seconds : Float) : Sweep.shown seconds (s :: rounds) restless =
      s.entries ++ ((Request.pause seconds).noted (.ok ()) ++
        Sweep.shown seconds rounds restless) := by
  obtain ⟨s', rest, rfl⟩ := List.exists_cons_of_ne_nil h.ne_nil
  simp [Sweep.shown, List.intercalate_cons_cons]

/-- The rounds of a loop, with the pauses in between. -/
theorem exists_of_polled {F : Fault → Prop} {seconds : Float}
    {result : Except Fault (Option (Residual (List Component)))} {l : List Entry}
    (h : Polled listens List.isEmpty
      (fun a l => FailsWith F a ∧ ∃ s : Sweep, s.Gives cs a ∧ l = s.entries)
      (fun a l => FailsWith F a ∧ l = (Request.pause seconds).noted a) left result l) :
    FailsWith F result ∧ (∀ r, result = .ok (some r) → r.value ≠ []) ∧
      ∃ rounds restless, Settling listens cs left rounds restless
          (result.map fun residual => residual.elim [] Residual.value) ∧
        l = Sweep.shown seconds rounds restless := by
  have hshown : ∀ s : Sweep, s.entries = Sweep.shown seconds [s] none := fun s => by
    simp [Sweep.shown]
  induction h with
  | met hpoll hx =>
    obtain ⟨-, s, hs, rfl⟩ := hpoll
    obtain rfl := List.isEmpty_iff.mp hx
    exact ⟨trivial, nofun, [s], none, .last hs fun hopen => absurd rfl (hs.ne_nil hopen), hshown s⟩
  | unmet hpoll hr hends =>
    obtain ⟨-, s, hs, rfl⟩ := hpoll
    refine ⟨trivial, ?_, [s], none, .last hs fun _ => hends, hshown s⟩
    rintro r ⟨⟩
    exact fun hnone => by simp [hnone] at hr
  | raised hpoll hends =>
    obtain ⟨he, s, hs, rfl⟩ := hpoll
    exact ⟨he, nofun, [s], none, .last hs fun hopen => hends (hs.asksAgain hopen), hshown s⟩
  | @restless _ _ e _ _ hpoll hopen hpause =>
    obtain ⟨-, s, hs, rfl⟩ := hpoll
    obtain ⟨he, rfl⟩ := hpause
    refine ⟨he, nofun, [s], some e, .restless (hs.open hopen) e, ?_⟩
    rw [Sweep.shown, List.map_singleton, List.intercalate_singleton]
    rfl
  | next hpoll hopen hpause _ ih =>
    obtain ⟨-, s, hs, rfl⟩ := hpoll
    obtain ⟨-, rfl⟩ := hpause
    obtain ⟨hresult, hvalue, rounds, restless, hrounds, rfl⟩ := ih
    exact ⟨hresult, hvalue, s :: rounds, restless, .again (hs.open hopen) hrounds,
      (hrounds.shown_cons s _).symm⟩

end Settling

/-! ### Errors -/

/-- The components, each with the errors that it has, or with the fault that it has raised. -/
abbrev Findings := Survey (List Issue)

namespace Findings

/-- All errors, in order. -/
def issues (s : Findings) : List Issue :=
  s.flatMap fun
    | (_, .ok own) => own
    | _ => []

/-- What the journal shows: the identifier of a component is asked for with each error. -/
def entries (s : Findings) : List Entry :=
  s.flatMap fun
    | (c, .ok own) => (Request.validationErrors c).noted (.ok (own.map Issue.message)) ++
        own.flatMap fun i => (Request.componentIdentifier c).noted (.ok i.componentId)
    | (c, .error e) => (Request.validationErrors c).noted (.error e)

end Findings

/-! ### What the journal shows -/

namespace Link.Hears

open Reload

variable (hlink : link.Hears q A Entry.examines L)
  (hL : ∀ r e, L r (.error e) → e.interrupts = false)
  (hnames : ∀ c e, ¬ L (.componentIdentifier c) (.error e))

include hlink

theorem identifier_examines (hnames : ∀ c e, ¬ L (.componentIdentifier c) (.error e))
    (c : Component) : (link.ask (.componentIdentifier c)).Yields q Entry.examines
      (fun id l => l = (Request.componentIdentifier c).noted (.ok id)) fun _ _ => False :=
  (hlink.ask _).mono (fun _ _ h => h.2.trans (Request.filter_examines rfl _))
    fun e _ h => hnames c e h.1

theorem ask_examines (hL : ∀ r e, L r (.error e) → e.interrupts = false) {r : Request}
    (hr : r.examines = true) : (link.ask r).Yields q Entry.examines
      (fun x l => l = r.noted (.ok x))
      fun e l => e.interrupts = false ∧ l = r.noted (.error e) :=
  (hlink.ask r).mono (fun _ _ h => h.2.trans (Request.filter_examines hr _))
    fun e _ h => ⟨hL r e h.1, h.2.trans (Request.filter_examines hr _)⟩

include hnames in
theorem distinct_examines (seen : List String) (cs : List Component) :
    (distinct link seen cs).Yields q Entry.examines (fun found l => Flattened seen cs l found)
      fun _ _ => False := by
  induction cs generalizing seen with
  | nil => exact yields_pure (.nil seen)
  | cons c cs ih =>
    rw [distinct]
    refine (hlink.identifier_examines hnames c).bind ?_
    rintro (id : String) l rfl
    split
    · next hid => exact (ih seen).mono (fun _ _ h => .again (by simpa using hid) h) fun _ _ he => he
    · next hid =>
      refine (hlink.identifier_examines hnames c).bind ?_
      rintro (id' : String) l rfl
      refine (ih (id' :: seen)).bind fun found l h => yields_pure ?_
      rw [List.append_nil]
      exact .first (by simpa using hid) h

include hL hnames in
theorem components_examines : (components link).Yields q Entry.examines
    (fun cs l => ∃ i : Listing, i.Sound ∧ i.fault = none ∧ i.components = cs ∧ l = i.entries)
    fun e l => e.interrupts = false ∧ ∃ i : Listing, i.Sound ∧ i.fault = some e ∧
      l = i.entries := by
  refine Yields.bind ((hlink.ask_examines hL (r := .controllerServices) rfl).mono
    (fun _ _ h => h) ?_) ?_
  · rintro e l ⟨he, rfl⟩
    exact ⟨he, .noServices e, trivial, rfl, rfl⟩
  rintro (services : List Component) l rfl
  refine Yields.bind ((hlink.ask_examines hL (r := .reportingTasks) rfl).mono
    (fun _ _ h => h) ?_) ?_
  · rintro e l ⟨he, rfl⟩
    exact ⟨he, .noTasks services e, trivial, rfl, rfl⟩
  rintro (tasks : List Component) l rfl
  refine Yields.bind ((hlink.ask_examines hL (r := .processors) rfl).mono (fun _ _ h => h) ?_) ?_
  · rintro e l ⟨he, rfl⟩
    exact ⟨he, .noProcessors services tasks e, trivial, rfl, rfl⟩
  rintro (processors : List Component) l rfl
  refine (hlink.distinct_examines hnames [] processors).of_safe.bind fun found l h => yields_pure ?_
  rw [List.append_nil]
  exact ⟨.whole services tasks processors l found, h, rfl, rfl, rfl⟩

include hL in
/-- However the rounds end, the journal shows them, with the pauses in between. -/
theorem pollUntil_examines (cs : List Component) (budget : Budget) (listens : Bool) :
    (pollUntil link budget listens (unsettled link cs) fun pending =>
      return pending.isEmpty).Yields q Entry.examines
      (fun residual l => ∃ rounds, (∀ r ∈ residual, r.value ≠ []) ∧
        Settling listens cs budget.maxRetries rounds none (.ok (residual.elim [] Residual.value)) ∧
        l = Sweep.shown budget.pause.seconds rounds none)
      fun e l => e.interrupts = false ∧ ∃ rounds restless,
        Settling listens cs budget.maxRetries rounds restless (.error e) ∧
        l = Sweep.shown budget.pause.seconds rounds restless := by
  refine (Yields.pollFrom
    (K := fun a l => FailsWith (fun e => e.interrupts = false) a ∧
      ∃ s : Sweep, s.Gives cs a ∧ l = s.entries)
    (Z := fun a l => FailsWith (fun e => e.interrupts = false) a ∧
      l = (Request.pause budget.pause.seconds).noted a)
    ?_ ?_ listens budget.maxRetries 1).mono ?_ ?_
  · exact unsettled_yields hlink hL
      (fun c => Request.filter_examines (r := .performValidation c) rfl) cs
  · exact (hlink.ask_examines hL (r := .pause budget.pause.seconds) rfl).mono
      (fun _ _ hl => ⟨trivial, hl⟩) fun _ _ he => he
  · intro residual l h
    obtain ⟨-, hvalue, rounds, restless, hrounds, rfl⟩ := Settling.exists_of_polled h
    obtain rfl := hrounds.restless_eq_none
    exact ⟨rounds, fun r hr => hvalue r (congrArg _ hr), hrounds, rfl⟩
  · intro e l h
    obtain ⟨he, -, rounds, restless, hrounds, rfl⟩ := Settling.exists_of_polled h
    exact ⟨he, rounds, restless, hrounds, rfl⟩

include hL hnames in
/-- The components are listed, and then there are rounds until none of them is pending. -/
theorem settle_examines (budget : Budget) (listens : Bool) :
    (settle link budget listens).Yields q Entry.examines
      (fun found l => ∃ i : Listing, ∃ rounds, i.Sound ∧ i.fault = none ∧
        i.components = found.1 ∧ (∀ r ∈ found.2, r.value ≠ []) ∧
        Settling listens i.components budget.maxRetries rounds none
          (.ok (found.2.elim [] Residual.value)) ∧
        l = i.entries ++ Sweep.shown budget.pause.seconds rounds none)
      fun e l => e.interrupts = false ∧ ∃ i : Listing, i.Sound ∧
        (i.fault = some e ∧ l = i.entries ∨ ∃ rounds restless, i.fault = none ∧
          Settling listens i.components budget.maxRetries rounds restless (.error e) ∧
          l = i.entries ++ Sweep.shown budget.pause.seconds rounds restless) := by
  refine Yields.bind ((hlink.components_examines hL hnames).mono (fun _ _ h => h) ?_) ?_
  · rintro e l ⟨he, i, hi, hfault, rfl⟩
    exact ⟨he, i, hi, .inl ⟨hfault, rfl⟩⟩
  rintro _ _ ⟨i, hi, hwhole, rfl, rfl⟩
  refine Yields.bind ((hlink.pollUntil_examines hL i.components budget listens).mono
    (fun _ _ h => h) ?_) ?_
  · rintro e l ⟨he, rounds, restless, hrounds, rfl⟩
    exact ⟨he, i, hi, .inr ⟨rounds, restless, hwhole, hrounds, rfl⟩⟩
  rintro pending l ⟨rounds, hvalue, hrounds, rfl⟩
  exact yields_pure ⟨i, rounds, hi, hwhole, rfl, hvalue, hrounds, by rw [List.append_nil]⟩

include hL hnames in
theorem issues_examines (cs : List Component) : (issues link cs).Yields q Entry.examines
    (fun found l => ∃ s : Findings, s.Covers cs none ∧ found = s.issues ∧ l = s.entries)
    fun e l => e.interrupts = false ∧ ∃ s : Findings, s.Covers cs (some e) ∧ l = s.entries := by
  have hname : ∀ c messages, (issues.name link c messages).Yields q Entry.examines
      (fun own l => own.map Issue.message = messages ∧
        l = own.flatMap fun i => (Request.componentIdentifier c).noted (.ok i.componentId))
      fun _ _ => False := by
    intro c messages
    induction messages with
    | nil => exact yields_pure ⟨rfl, rfl⟩
    | cons message rest ih =>
      rw [issues.name]
      refine (hlink.identifier_examines hnames c).bind ?_
      rintro (id : String) l rfl
      refine ih.bind ?_
      rintro own l ⟨rfl, rfl⟩
      exact yields_pure ⟨rfl, by simp⟩
  induction cs with
  | nil => exact yields_pure ⟨[], .nil, rfl, rfl⟩
  | cons c cs ih =>
    rw [issues]
    refine Yields.bind ((hlink.ask_examines hL (r := .validationErrors c) rfl).mono
      (fun _ _ h => h) ?_) ?_
    · rintro e l ⟨he, rfl⟩
      exact ⟨he, [(c, .error e)], .raised c cs e, (List.append_nil _).symm⟩
    rintro (messages : List String) l rfl
    refine (hname c messages).of_safe.bind ?_
    rintro own l ⟨rfl, rfl⟩
    refine Yields.bind (ih.mono (fun _ _ h => h) ?_) ?_
    · rintro e l ⟨he, s, hs, rfl⟩
      exact ⟨he, (c, .ok own) :: s, .answered c own hs, by simp [Findings.entries]⟩
    rintro others l ⟨s, hs, rfl, rfl⟩
    exact yields_pure ⟨(c, .ok own) :: s, .answered c own hs, rfl, by simp [Findings.entries]⟩

include hnames in
theorem identifiers_examines (cs : List Component) : (identifiers link cs).Yields q Entry.examines
    (fun ids l => ∃ named : List (Component × String), named.map Prod.fst = cs ∧
      named.map Prod.snd = ids ∧
      l = named.flatMap fun n => (Request.componentIdentifier n.1).noted (.ok n.2))
    fun _ _ => False := by
  induction cs with
  | nil => exact yields_pure ⟨[], rfl, rfl, rfl⟩
  | cons c cs ih =>
    rw [identifiers]
    refine (hlink.identifier_examines hnames c).bind ?_
    rintro (id : String) l rfl
    refine ih.bind ?_
    rintro ids l ⟨named, rfl, rfl, rfl⟩
    exact yields_pure ⟨(c, id) :: named, rfl, rfl, by simp⟩

end Link.Hears

end HotSwap
