/-
What clears a configuration to start.

Before a flow is started its components are listed and validated, round after round,
until a round in which none of them is still validating; then each is asked for its
errors.  The journal shows all of that, and no flow is started without it.

* `Heeds` — entries of interest among which all calls of the flow are;
* `Flattened` — how the processors are listed, the first of each identifier;
* `Survey`, `Sweep` — components asked one after the other, until one raises;
* `Sweep.Open` — a round after which there may be another one;
* `ValidationRound` — a round with the status that each component has reported;
* `Clearance`, `Cleared` — the whole of it, with no error reported in the end;
* `Link.Hears.validateAndStart_yields` — a start is asked for after a clearance, and only
  then;
* `Gated` — every start comes right after a clearance;
* `Updater.ends_gated` — the result.

Design notes: the status of a component and its errors are reported apart.  A clearance
speaks of both as they are asked for: no status is `validating`, no error is reported.
-/
import HotSwap.Proofs.Tellings

namespace HotSwap

open Act

variable {σ α : Type} {w w' : World σ} {q : Bool → σ → Prop} {A : String → Prop}
  {L : (r : Request) → Except Fault r.Answer → Prop} {F : Fault → Prop} {link : Link σ}
  {plan : UpdatePlan} {es es' : List Entry}

/-! ### Calls -/

/-- Whether a request is a call of the running flow. -/
def Request.isCall : Request → Bool
  | .enrich _ | .pause _ | .publish _ | .openSpan _ | .annotateSpan .. | .recordFault ..
  | .closeSpan _ | .keepReport _ => false
  | _ => true

/-- Whether an entry is a call of the running flow, or its answer. -/
def Entry.isCall : Entry → Bool
  | .asked r | .answered r _ => r.isCall
  | _ => false

theorem Entry.isCall_of_murmur {e : Entry} (he : e.Murmur A) : e.isCall = false := by
  have hr : ∀ r : Request, r.Concludes A → r.isCall = false := fun r hr => by
    cases r <;> first | rfl | exact hr.elim
  cases e with
  | asked r => exact hr r he
  | answered r answer => exact hr r he
  | _ => rfl

theorem Entry.isCall_of_ofFiles {e : Entry} (he : e.OfFiles) : e.isCall = false := by
  cases e <;> first | rfl | exact he.elim

/-- Whether the entry is a start that has succeeded. -/
def Entry.isStarted : Entry → Bool
  | .answered .startProcessing (.ok _) => true
  | _ => false

theorem Entry.isStarted_iff {e : Entry} :
    e.isStarted = true ↔ e = .answered .startProcessing (.ok ()) := by
  refine ⟨fun h => ?_, by rintro rfl; rfl⟩
  cases e with
  | answered r answer =>
    cases r with
    | startProcessing =>
      cases answer with
      | ok _ => rfl
      | error _ => cases h
    | _ => cases h
  | _ => cases h

/-- The status that a component has reported. -/
def Entry.status? : Entry → Option (Component × Status)
  | .answered (.performValidation c) (.ok status) => some (c, status)
  | _ => none

/-- An entry about requests of a kind. -/
def Entry.Of (S : Request → Prop) : Entry → Prop
  | .asked r | .answered r _ => S r
  | _ => False

/-- Nothing but calls of a kind. -/
abbrev OfCalls (S : Request → Bool) (es : List Entry) : Prop :=
  ∀ e ∈ es, e.Of fun r => r.isCall = true ∧ S r = true

namespace OfCalls

variable {S : Request → Bool}

theorem noted {r : Request} (hcall : r.isCall = true) (hr : S r = true)
    (answer : Except Fault r.Answer) : OfCalls S (r.noted answer) := by
  simp [OfCalls, Request.noted, Entry.Of, hcall, hr]

theorem isCall (h : OfCalls S es) : ∀ e ∈ es, e.isCall = true := fun e he => by
  have hof := h e he
  cases e <;> first | exact hof.1 | exact hof.elim

theorem asked_not_mem {r : Request} (h : OfCalls S es) (hr : S r = false) :
    Entry.asked r ∉ es := fun hmem => Bool.false_ne_true (hr.symm.trans (h _ hmem).2)

theorem answered_not_mem {r : Request} {answer : Except Fault r.Answer} (h : OfCalls S es)
    (hr : S r = false) : Entry.answered r answer ∉ es := fun hmem =>
  Bool.false_ne_true (hr.symm.trans (h _ hmem).2)

end OfCalls

/-- Nothing but calls that find out about the validity of components. -/
abbrev OfValidation : List Entry → Prop := OfCalls Request.isValidation

/-- All calls of the flow are of interest, but no pause. -/
structure Heeds (keep : Entry → Bool) : Prop where
  asked : ∀ r : Request, r.isCall = true → keep (.asked r) = true
  answered : ∀ r : Request, r.isCall = true → ∀ answer, keep (.answered r answer) = true
  pause : ∀ seconds, keep (.asked (.pause seconds)) = false
  paused : ∀ seconds answer, keep (.answered (.pause seconds) answer) = false

theorem heeds_isCall : Heeds Entry.isCall where
  asked _ hr := hr
  answered _ hr _ := hr
  pause _ := rfl
  paused _ _ := rfl

theorem Heeds.filter_noted {keep : Entry → Bool} (h : Heeds keep) {r : Request}
    (hr : r.isCall = true) (answer : Except Fault r.Answer) :
    (r.noted answer).filter keep = r.noted answer := by
  simp [Request.noted, h.asked r hr, h.answered r hr answer]

/-! ### Rounds -/

/-- Components that have been asked, each with its answer. -/
abbrev Survey (β : Type) := List (Component × Except Fault β)

namespace Survey

/-- The components are asked in order, each once, until one of them raises a fault. -/
inductive Covers : List Component → Survey β → Option Fault → Prop
  | nil : Covers [] [] none
  | answered {cs : List Component} {s : Survey β} {fault : Option Fault} (c : Component) (x : β)
      (rest : Covers cs s fault) : Covers (c :: cs) ((c, .ok x) :: s) fault
  | raised (c : Component) (cs : List Component) (e : Fault) :
      Covers (c :: cs) [(c, .error e)] (some e)

/-- The faults that the components have raised. -/
def faults (s : Survey β) : List Fault :=
  s.filterMap fun
    | (_, .error e) => some e
    | _ => none

/-- There is one at most, and it is known whether there is one. -/
theorem Covers.faults_eq {cs : List Component} {s : Survey β} {fault : Option Fault}
    (h : s.Covers cs fault) : s.faults = fault.toList := by
  induction h with
  | nil => rfl
  | answered c x _ ih => exact ih
  | raised c cs e => rfl

end Survey

/-- One round: the components, each with its status or with the fault that it has raised. -/
abbrev Sweep := Survey Status

namespace Sweep

/-- What the journal shows of it. -/
def entries (s : Sweep) : List Entry :=
  s.flatMap fun r => (Request.performValidation r.1).noted r.2

/-- The components that are still validating. -/
def pending (s : Sweep) : List Component :=
  s.filterMap fun
    | (c, .ok .validating) => some c
    | _ => none

/-- What a round gives: the components that are pending, if all have answered, and otherwise
the fault that one has raised. -/
inductive Gives (cs : List Component) : Sweep → Except Fault (List Component) → Prop
  | whole {s : Sweep} (h : s.Covers cs none) : Gives cs s (.ok s.pending)
  | cut {s : Sweep} {e : Fault} (h : s.Covers cs (some e)) : Gives cs s (.error e)

/-- After the round there may be another one: components are pending, or one has asked for
another round. -/
inductive Open (cs : List Component) (s : Sweep) : Prop
  | pending (h : s.Covers cs none) (hs : s.pending ≠ [])
  | asked {e : Fault} (h : s.Covers cs (some e)) (he : e.asksAgain = true)

variable {cs : List Component} {s : Sweep} {outcome : Except Fault (List Component)}

theorem Gives.open (h : s.Gives cs outcome) (ho : leavesOpen List.isEmpty outcome = true) :
    s.Open cs := by
  cases h with
  | whole h => exact .pending h fun hnone => by simp [leavesOpen, hnone] at ho
  | cut h => exact .asked h ho

/-- A round after which there may be another one has not settled. -/
theorem Open.pending_ne_nil (h : s.Open cs) (hall : s.Covers cs none) : s.pending ≠ [] := by
  cases h with
  | pending _ hs => exact hs
  | asked h => exact absurd (h.faults_eq.symm.trans hall.faults_eq) (by simp)

/-- Whoever has raised a fault in such a round has asked for another one. -/
theorem Open.asksAgain (h : s.Open cs) {e : Fault} (he : e ∈ s.faults) : e.asksAgain = true := by
  cases h with
  | pending h =>
    rw [h.faults_eq] at he
    cases he
  | asked h hagain =>
    rw [h.faults_eq] at he
    rwa [List.mem_singleton.mp he]

theorem Open.covers (h : s.Open cs) : ∃ fault, s.Covers cs fault := by
  cases h with
  | pending h => exact ⟨_, h⟩
  | asked h => exact ⟨_, h⟩

/-- If the round leaves nothing pending, there is no other one. -/
theorem Gives.ne_nil {pending : List Component} (h : s.Gives cs (.ok pending)) (hs : s.Open cs) :
    pending ≠ [] := by
  cases h with
  | whole h => exact hs.pending_ne_nil h

theorem Gives.asksAgain {e : Fault} (h : s.Gives cs (.error e)) (hs : s.Open cs) :
    e.asksAgain = true := by
  cases h with
  | cut h => exact hs.asksAgain (by simp [h.faults_eq])

theorem Gives.covers (h : s.Gives cs outcome) : ∃ fault, s.Covers cs fault := by
  cases h with
  | whole h => exact ⟨_, h⟩
  | cut h => exact ⟨_, h⟩

theorem ofValidation_entries (s : Sweep) : OfValidation s.entries := by
  intro e he
  obtain ⟨r, -, he⟩ := List.mem_flatMap.mp he
  exact OfCalls.noted (r := .performValidation r.1) rfl rfl r.2 e he

end Sweep

/-! ### Clearances -/

/-- How processors are listed: of those with one identifier only the first counts.
The identifier of a component is asked for twice if it counts, and once if not. -/
inductive Flattened : List String → List Component → List Entry → List Component → Prop
  | nil (seen : List String) : Flattened seen [] [] []
  | again {seen : List String} {c : Component} {cs distinct : List Component} {id : String}
      {es : List Entry} (hid : id ∈ seen) (rest : Flattened seen cs es distinct) :
      Flattened seen (c :: cs) ((Request.componentIdentifier c).noted (.ok id) ++ es) distinct
  | first {seen : List String} {c : Component} {cs distinct : List Component} {id id' : String}
      {es : List Entry} (hid : id ∉ seen) (rest : Flattened (id' :: seen) cs es distinct) :
      Flattened seen (c :: cs) ((Request.componentIdentifier c).noted (.ok id) ++
        ((Request.componentIdentifier c).noted (.ok id') ++ es)) (c :: distinct)

/-- A round of validation: the components, and the status that each has reported. -/
abbrev ValidationRound := List (Component × Status)

namespace ValidationRound

/-- What the journal shows of a round. -/
def entries (round : ValidationRound) : List Entry :=
  round.flatMap fun r => (Request.performValidation r.1).noted (.ok r.2)

/-- No component is still validating. -/
def Settled (round : ValidationRound) : Prop := ∀ r ∈ round, r.2 ≠ .validating

/-- A round in which all components have answered, with their statuses. -/
theorem exists_of_covers {s : Sweep} {cs : List Component} (h : s.Covers cs none) :
    ∃ round : ValidationRound, round.map Prod.fst = cs ∧ s.entries = round.entries ∧
      (s.pending = [] → round.Settled) := by
  generalize hfault : (none : Option Fault) = fault at h
  induction h with
  | nil => exact ⟨[], rfl, rfl, by simp [Settled]⟩
  | raised => cases hfault
  | @answered _ _ _ c status _ ih =>
    obtain ⟨round, rfl, hentries, hsettled⟩ := ih hfault
    refine ⟨(c, status) :: round, rfl, congrArg (_ ++ ·) hentries, fun hnone => ?_⟩
    rw [Settled, List.forall_mem_cons]
    cases status with
    | validating => cases hnone
    | valid | invalid => exact ⟨by simp, hsettled hnone⟩

end ValidationRound

/-- The components have been validated, round after round, until all had settled. -/
structure SettledIn (cs : List Component) (rounds : List Sweep)
    (last : ValidationRound) : Prop where
  before : ∀ round ∈ rounds, round.Open cs
  asked : last.map Prod.fst = cs
  settled : last.Settled

/-- What has been heard of the components of a flow. -/
structure Clearance where
  services : List Component
  tasks : List Component
  processors : List Component
  /-- What the journal shows of the identifiers of the processors. -/
  identifiers : List Entry
  /-- The processors that count. -/
  distinct : List Component
  /-- The rounds of validation but for the last one. -/
  rounds : List Sweep
  last : ValidationRound

namespace Clearance

/-- The components that have to be valid. -/
def components (c : Clearance) : List Component := c.services ++ c.tasks ++ c.distinct

/-- What the journal shows up to the last round. -/
def settling (c : Clearance) : List Entry :=
  Request.controllerServices.noted (.ok c.services) ++
  (Request.reportingTasks.noted (.ok c.tasks) ++
  (Request.processors.noted (.ok c.processors) ++
  (c.identifiers ++ (c.rounds.flatMap Sweep.entries ++ c.last.entries))))

/-- What the journal shows: in the end no component has an error. -/
def entries (c : Clearance) : List Entry :=
  c.settling ++ c.components.flatMap fun x => (Request.validationErrors x).noted (.ok [])

/-- The components are those that the flow has, and they have settled. -/
structure Sound (c : Clearance) : Prop where
  flattened : Flattened [] c.processors c.identifiers c.distinct
  settled : SettledIn c.components c.rounds c.last

end Clearance

/-- The entries are those of a clearance. -/
def Cleared (es : List Entry) : Prop := ∃ c : Clearance, c.Sound ∧ es = c.entries

/-! ### Finding out about the components -/

namespace Reload

variable {keep : Entry → Bool} (hkeep : Heeds keep) (hlink : link.Hears q A keep L)
  (hF : ∀ r e, L r (.error e) → F e)

include hkeep hlink hF

theorem ask_traces {r : Request} (hcall : r.isCall = true) (hr : r.isValidation = true) :
    (link.ask r).Traces q keep OfValidation F fun x l => l = r.noted (.ok x) := by
  refine Yields.mono (hlink.ask r) ?_ ?_
  · rintro x l ⟨-, rfl⟩
    rw [hkeep.filter_noted hcall]
    exact ⟨rfl, .noted hcall hr _⟩
  · rintro e l ⟨hL, rfl⟩
    rw [hkeep.filter_noted hcall]
    exact ⟨hF r e hL, .noted hcall hr _⟩

theorem distinct_traces (seen : List String) (cs : List Component) :
    (distinct link seen cs).Traces q keep OfValidation F
      fun found l => Flattened seen cs l found := by
  induction cs generalizing seen with
  | nil => exact traces_pure (.nil seen)
  | cons c cs ih =>
    rw [distinct]
    refine (ask_traces hkeep hlink hF (r := .componentIdentifier c) rfl rfl).bind ?_
    rintro (id : String) l rfl
    split
    · next hid => exact (ih seen).mono fun _ _ h _ => .again (by simpa using hid) h
    · next hid =>
      refine (ask_traces hkeep hlink hF (r := .componentIdentifier c) rfl rfl).bind ?_
      rintro (id' : String) l rfl
      refine (ih (id' :: seen)).bind fun found l h => traces_pure ?_
      rw [List.append_nil]
      exact .first (by simpa using hid) h

omit hkeep in
/-- The components are asked one after the other, until one of them raises. -/
theorem unsettled_yields (hnoted : ∀ (c : Component) (answer : Except Fault Status),
      ((Request.performValidation c).noted answer).filter keep =
        (Request.performValidation c).noted answer) (cs : List Component) :
    (unsettled link cs).Yields q keep
      (fun pending l => FailsWith F (.ok pending) ∧
        ∃ s : Sweep, s.Gives cs (.ok pending) ∧ l = s.entries)
      fun e l => FailsWith F (.error e : Except Fault (List Component)) ∧
        ∃ s : Sweep, s.Gives cs (.error e) ∧ l = s.entries := by
  induction cs with
  | nil => exact yields_pure ⟨trivial, [], .whole .nil, rfl⟩
  | cons c cs ih =>
    rw [unsettled]
    refine Yields.bind ((hlink.ask (.performValidation c)).mono
      (fun x l h => h.2.trans (hnoted c (.ok x))) ?_) ?_
    · rintro e l ⟨he, rfl⟩
      exact ⟨hF _ e he, [(c, .error e)], .cut (.raised c cs e),
        (hnoted c (.error e)).trans (List.append_nil _).symm⟩
    rintro (status : Status) l rfl
    refine Yields.bind (ih.mono (fun _ _ h => h) ?_) ?_
    · rintro e l ⟨he, s, hs, rfl⟩
      cases hs with
      | cut hs => exact ⟨he, (c, .ok status) :: s, .cut (.answered c status hs), rfl⟩
    rintro others l ⟨-, s, hs, rfl⟩
    cases hs with
    | whole hs =>
      have hpending : (if (status == .validating) = true then c :: s.pending else s.pending) =
          Sweep.pending ((c, .ok status) :: s) := by
        cases status <;> rfl
      refine yields_pure ⟨trivial, (c, .ok status) :: s, ?_, ?_⟩
      · rw [hpending]
        exact .whole (.answered c status hs)
      · rw [List.append_nil]
        rfl

omit hkeep hlink hF in
/-- The rounds of a loop in which the pauses are of no interest; if it ends with nothing
pending, the last one has settled. -/
theorem settledIn_of_polled {cs : List Component} {listens : Bool} {left : Nat}
    {result : Except Fault (Option (Residual (List Component)))} {l : List Entry}
    (h : Polled listens List.isEmpty
      (fun a l => FailsWith F a ∧ ∃ s : Sweep, s.Gives cs a ∧ l = s.entries)
      (fun a l => FailsWith F a ∧ l = []) left result l) :
    FailsWith F result ∧ OfValidation l ∧ (result = .ok none →
      ∃ rounds last, SettledIn cs rounds last ∧
        l = rounds.flatMap Sweep.entries ++ last.entries) := by
  induction h with
  | @met _ _ l hpoll hx =>
    obtain ⟨-, s, hs, rfl⟩ := hpoll
    cases hs with
    | whole hs =>
      obtain ⟨last, hasked, hentries, hsettled⟩ := ValidationRound.exists_of_covers hs
      refine ⟨trivial, s.ofValidation_entries, fun _ => ⟨[], last, ⟨by simp, hasked, ?_⟩, hentries⟩⟩
      exact hsettled (List.isEmpty_iff.mp hx)
  | unmet hpoll _ =>
    obtain ⟨-, s, hs, rfl⟩ := hpoll
    exact ⟨trivial, s.ofValidation_entries, fun h => by cases h⟩
  | raised hpoll =>
    obtain ⟨he, s, hs, rfl⟩ := hpoll
    exact ⟨he, s.ofValidation_entries, fun h => by cases h⟩
  | restless hpoll _ hpause =>
    obtain ⟨-, s, hs, rfl⟩ := hpoll
    obtain ⟨he, rfl⟩ := hpause
    exact ⟨he, by rw [List.append_nil]; exact s.ofValidation_entries, fun h => by cases h⟩
  | next hpoll hopen hpause _ ih =>
    obtain ⟨-, s, hs, rfl⟩ := hpoll
    obtain ⟨-, rfl⟩ := hpause
    obtain ⟨hresult, hl, hnone⟩ := ih
    refine ⟨hresult, Cumulative.append s.ofValidation_entries hl, fun h => ?_⟩
    obtain ⟨rounds, last, hsettled, rfl⟩ := hnone h
    refine ⟨s :: rounds, last, ⟨?_, hsettled.asked, hsettled.settled⟩, by simp⟩
    exact List.forall_mem_cons.mpr ⟨hs.open hopen, hsettled.before⟩

theorem pollUntil_traces (cs : List Component) (budget : Budget) (listens : Bool) :
    (pollUntil link budget listens (unsettled link cs) fun pending =>
      return pending.isEmpty).Traces q keep OfValidation F fun residual l =>
        residual = none → ∃ rounds last, SettledIn cs rounds last ∧
          l = rounds.flatMap Sweep.entries ++ last.entries := by
  refine Yields.mono (Yields.pollFrom
    (K := fun a l => FailsWith F a ∧ ∃ s : Sweep, s.Gives cs a ∧ l = s.entries)
    (Z := fun a l => FailsWith F a ∧ l = []) ?_ ?_ listens budget.maxRetries 1) ?_ ?_
  · exact unsettled_yields hlink hF (fun c => hkeep.filter_noted (r := .performValidation c) rfl) cs
  · exact (hlink.ask_within (hkeep.pause _) (hkeep.paused _) (hF _)).yields.mono
      (fun _ _ hl => ⟨trivial, hl⟩) fun _ _ he => he
  · intro residual l h
    obtain ⟨-, hl, hnone⟩ := settledIn_of_polled h
    exact ⟨fun hres => hnone (congrArg _ hres), hl⟩
  · intro e l h
    obtain ⟨he, hl, -⟩ := settledIn_of_polled h
    exact ⟨he, hl⟩

theorem components_traces :
    (components link).Traces q keep OfValidation F fun cs l =>
      ∃ services tasks processors identifiers distinct, cs = services ++ tasks ++ distinct ∧
        Flattened [] processors identifiers distinct ∧
        l = Request.controllerServices.noted (.ok services) ++
          (Request.reportingTasks.noted (.ok tasks) ++
          (Request.processors.noted (.ok processors) ++ identifiers)) := by
  refine (ask_traces hkeep hlink hF (r := .controllerServices) rfl rfl).bind ?_
  rintro (services : List Component) l rfl
  refine (ask_traces hkeep hlink hF (r := .reportingTasks) rfl rfl).bind ?_
  rintro (tasks : List Component) l rfl
  refine (ask_traces hkeep hlink hF (r := .processors) rfl rfl).bind ?_
  rintro (processors : List Component) l rfl
  refine (distinct_traces hkeep hlink hF [] processors).bind fun found l h => traces_pure ?_
  exact ⟨services, tasks, processors, l, found, rfl, h, by rw [List.append_nil]⟩

theorem issues_traces (cs : List Component) :
    (issues link cs).Traces q keep OfValidation F fun found l => found = [] →
      l = cs.flatMap fun c => (Request.validationErrors c).noted (.ok []) := by
  have hname : ∀ c messages, (issues.name link c messages).Traces q keep OfValidation F
      fun found l => found = [] → messages = [] ∧ l = [] := by
    intro c messages
    induction messages with
    | nil => exact traces_pure fun _ => ⟨rfl, rfl⟩
    | cons message rest ih =>
      rw [issues.name]
      refine (ask_traces hkeep hlink hF (r := .componentIdentifier c) rfl rfl).bind ?_
      rintro (id : String) l rfl
      exact ih.bind fun _ _ _ => traces_pure fun h => by cases h
  induction cs with
  | nil => exact traces_pure fun _ => rfl
  | cons c cs ih =>
    rw [issues]
    refine (ask_traces hkeep hlink hF (r := .validationErrors c) rfl rfl).bind ?_
    rintro (messages : List String) l rfl
    refine (hname c messages).bind fun own l hown => ih.bind fun others l' hothers =>
      traces_pure fun hnone => ?_
    obtain ⟨hown', hothers'⟩ := List.append_eq_nil_iff.mp hnone
    obtain ⟨rfl, rfl⟩ := hown hown'
    rw [hothers hothers', List.append_nil, List.nil_append]
    rfl

theorem settle_traces (budget : Budget) (listens : Bool) :
    (settle link budget listens).Traces q keep OfValidation F fun found l =>
      found.2.isNone = true → ∃ c : Clearance, c.Sound ∧ found.1 = c.components ∧
        l = c.settling := by
  refine (components_traces hkeep hlink hF).bind ?_
  rintro cs l ⟨services, tasks, processors, identifiers, distinct, rfl, hflattened, rfl⟩
  refine (pollUntil_traces hkeep hlink hF _ budget listens).bind
    fun pending l hpending => traces_pure fun hnone => ?_
  obtain ⟨rounds, last, hsettled, rfl⟩ := hpending (Option.isNone_iff_eq_none.mp hnone)
  refine ⟨{ services, tasks, processors, identifiers, distinct, rounds, last },
    ⟨hflattened, hsettled⟩, rfl, ?_⟩
  simp [Clearance.settling]

theorem identifiers_traces (cs : List Component) :
    (identifiers link cs).Traces q keep OfValidation F fun _ _ => True := by
  induction cs with
  | nil => exact traces_pure trivial
  | cons c cs ih =>
    rw [identifiers]
    exact (ask_traces hkeep hlink hF (r := .componentIdentifier c) rfl rfl).bind fun (_ : String) _ _ =>
      ih.bind fun _ _ _ => traces_pure trivial

omit hkeep hlink hF in
/-- A step is read as its act is. -/
theorem step_yields {s : ReloadStep} {a : Act σ α} {P : α → List Entry → Prop}
    {E : Fault → List Entry → Prop} (h : a.Yields q keep P E)
    (hE : ∀ fault l, E fault l → E (.reloadFailed s fault) l) : (step s a).Yields q keep P E :=
  fun w => ends_step (h w) fun fault _ ⟨l, hl, hw⟩ => ⟨l, hE fault l hl, hw⟩

variable (hordinary : ∀ e, e.interrupts = false → F e)

include hordinary

omit hkeep hlink hF in
theorem step_traces {s : ReloadStep} {a : Act σ α} {P : α → List Entry → Prop}
    (h : a.Traces q keep OfValidation F P) :
    (step s a).Traces q keep OfValidation F P :=
  step_yields h fun _ _ he => ⟨hordinary _ rfl, he.2⟩

theorem start_yields : (step .start (link.ask .startProcessing)).Yields q keep
    (fun _ l => l = Request.startProcessing.noted (.ok ()))
    fun e l => F e ∧ ∃ fault, l = Request.startProcessing.noted (.error fault) :=
  step_yields ((hlink.ask .startProcessing).mono
    (fun _ _ h => h.2.trans (hkeep.filter_noted rfl _))
    fun e _ he => ⟨hF _ e he.1, e, he.2.trans (hkeep.filter_noted rfl _)⟩) fun _ _ he => ⟨hordinary _ rfl, he.2⟩

end Reload

namespace Link.Hears

variable {keep : Entry → Bool} (hkeep : Heeds keep) (hlink : link.Hears q A keep L)
  (hF : ∀ r e, L r (.error e) → F e)
  (hordinary : ∀ e, e.interrupts = false → F e)

include hkeep hlink hF hordinary

/-- A start is asked for after a clearance, and is the last call; where it is not asked
for, there are only calls that find out about the components. -/
theorem validateAndStart_yields (budget : Budget) (listens : Bool) :
    (validateAndStart link budget listens).Yields q keep
      (fun _ l => ∃ before, Cleared before ∧ OfValidation before ∧
        l = before ++ Request.startProcessing.noted (.ok ()))
      (fun e l => F e ∧ (OfValidation l ∨ ∃ before fault, Cleared before ∧ OfValidation before ∧
        l = before ++ Request.startProcessing.noted (.error fault))) := by
  have hsettle : Yields _ _ _ _ _ := Reload.step_traces hordinary (s := .validate)
    (Reload.settle_traces hkeep hlink hF budget listens)
  refine (hsettle.mono (fun _ _ h => h) fun _ _ he => ⟨he.1, .inl he.2⟩).bind ?_
  rintro ⟨cs, _ | pending⟩ l ⟨hcleared, hl⟩
  · obtain ⟨c, hsound, rfl, rfl⟩ := hcleared rfl
    have hissues : Yields _ _ _ _ _ := Reload.step_traces hordinary (s := .collect)
      (Reload.issues_traces hkeep hlink hF c.components)
    refine (hissues.mono (fun _ _ h => h) fun _ _ he =>
      ⟨he.1, .inl (Cumulative.append hl he.2)⟩).bind ?_
    rintro found l₁ ⟨hnone, hl₁⟩
    have hall : OfValidation (c.settling ++ l₁) := Cumulative.append hl hl₁
    dsimp only
    split
    · -- an error was reported: no start
      refine say_bind_yields (yields_raise ⟨hordinary _ rfl, .inl ?_⟩)
      rwa [List.append_nil]
    · next hfound =>
      have hcleared' : Cleared (c.settling ++ l₁) :=
        ⟨c, hsound, by rw [hnone (by simpa using hfound)]; rfl⟩
      refine ((Reload.start_yields hkeep hlink hF hordinary).mono (fun _ _ h => h) ?_).bind ?_
      · rintro e l₂ ⟨he, fault, rfl⟩
        exact ⟨he, .inr ⟨_, fault, hcleared', hall, by rw [List.append_assoc]⟩⟩
      · rintro - l₂ rfl
        exact yields_say ⟨_, hcleared', hall, by simp⟩
  · -- some components are still validating: no start
    have hids : Yields _ _ _ _ _ := Reload.identifiers_traces hkeep hlink hF pending.value
    refine (hids.mono (fun _ _ h => h.2) fun _ _ he =>
      ⟨he.1, .inl (Cumulative.append hl he.2)⟩).bind fun ids l₁ hl₁ => ?_
    refine say_bind_yields (yields_raise ⟨hordinary _ rfl, .inl ?_⟩)
    rw [List.append_nil]
    exact Cumulative.append hl hl₁

end Link.Hears

/-! ### Every start comes after a clearance -/

/-- The calls of the running flow, with their answers. -/
def callsOf (es : List Entry) : List Entry := es.filter Entry.isCall

/-- Wherever a start is asked for, the entries just before are such that `P` holds. -/
def Preceded (P : List Entry → Prop) (es : List Entry) : Prop :=
  ∀ before after, es = before ++ Entry.asked .startProcessing :: after →
    ∃ earlier last, before = earlier ++ last ∧ P last

namespace Preceded

variable {P : List Entry → Prop}

/-- Where no start is asked for. -/
theorem of_not_mem (h : Entry.asked .startProcessing ∉ es) : Preceded P es := by
  rintro before after rfl
  simp at h

/-- One start, after entries for which `P` holds. -/
theorem of_noted (h : P es) (hes : Entry.asked .startProcessing ∉ es)
    (answer : Except Fault Unit) : Preceded P (es ++ Request.startProcessing.noted answer) := by
  intro before after heq
  obtain ⟨rfl, -⟩ := (List.append_cons_inj_of_notMem hes (by simp)).mp heq
  exact ⟨[], es, rfl, h⟩

instance : Cumulative (Preceded P) where
  nil := of_not_mem (by simp)
  append := by
    intro l l' h h' before after heq
    rcases List.append_eq_append_iff.mp heq with ⟨more, rfl, hl'⟩ | ⟨more, rfl, hmore⟩
    · -- the start is in the second part
      obtain ⟨earlier, last, rfl, hlast⟩ := h' more after hl'
      exact ⟨l ++ earlier, last, (List.append_assoc ..).symm, hlast⟩
    · cases more with
      | nil =>
        obtain ⟨earlier, last, hnil, hlast⟩ := h' [] after hmore.symm
        obtain ⟨rfl, rfl⟩ := List.append_eq_nil_iff.mp hnil.symm
        exact ⟨before, [], (List.append_nil _).symm, hlast⟩
      | cons e more =>
        obtain ⟨rfl, -⟩ := List.cons.inj hmore
        exact h before more rfl

end Preceded

/-- Wherever a start is asked for, a clearance has just been heard. -/
def Gated (es : List Entry) : Prop :=
  ∀ before after, es = before ++ Entry.asked .startProcessing :: after →
    ∃ earlier clearance, before = earlier ++ clearance ∧ Cleared clearance

namespace Gated

theorem of_not_mem (h : Entry.asked .startProcessing ∉ es) : Gated es := Preceded.of_not_mem h

/-- One start, after a clearance. -/
theorem of_cleared (h : Cleared es) (hes : OfValidation es) (answer : Except Fault Unit) :
    Gated (es ++ Request.startProcessing.noted answer) :=
  Preceded.of_noted h (hes.asked_not_mem rfl) answer

instance : Cumulative Gated := inferInstanceAs (Cumulative (Preceded Cleared))

end Gated

namespace Updater

/-- No flow is started but right after a clearance: by itself, with an answer to the
start, or in an update, however that ends. -/
theorem ends_gated (h : Host σ) (plan : UpdatePlan) (depth : Nat) :
    (∀ budget listens w, (validateAndStart (h.link tokenConsole depth) budget listens).Ends w
      (fun _ w' => ∃ before, Cleared before ∧
        callsOf (w.since w') = before ++ Request.startProcessing.noted (.ok ()))
      fun _ w' => Gated (callsOf (w.since w'))) ∧
    ∀ raw w, (apply (h.link (console plan) depth) plan raw).Ends w
      (fun _ w' => Gated (callsOf (w.since w'))) fun _ w' => Gated (callsOf (w.since w')) := by
  have hany : ∀ (r : Request) (e : Fault), Host.Raising (fun _ _ => True) r (.error e) → True :=
    fun _ _ _ => trivial
  refine ⟨fun budget listens w => ?_, fun raw w => ?_⟩
  · have hlink : (h.link tokenConsole depth).Hears (fun _ _ => True) (fun _ => True) Entry.isCall _ :=
      (h.raises_any.abides fun _ => True).hears_token depth
    refine (hlink.validateAndStart_yields heeds_isCall hany (fun _ _ => trivial) budget listens w).mono ?_ ?_
    · rintro - w' ⟨l, ⟨before, hcleared, -, rfl⟩, hw⟩
      exact ⟨before, hcleared, (hw trivial).2.2.2.2⟩
    · rintro e w' ⟨l, ⟨-, hl⟩, hw⟩
      rw [callsOf, (hw trivial).2.2.2.2]
      rcases hl with hl | ⟨before, fault, hcleared, hbefore, rfl⟩
      · exact .of_not_mem (hl.asked_not_mem rfl)
      · exact .of_cleared hcleared hbefore _
  · have hlink : (h.link (console plan) depth).Hears (fun b _ => b = true) (fun _ => True)
        Entry.isCall _ :=
      (h.raises_any.abides (· = true)).hears_console (fun _ _ hb => hb)
        (fun _ => Entry.isCall_of_murmur) plan depth
    refine ends_apply_tells hlink (fun _ => Entry.isCall_of_ofFiles) (fun r hr answer => ?_)
      fun listens => ?_
    · refine .of_not_mem fun hmem => hr ?_
      have hasked := (List.mem_filter.mp hmem).1
      simpa [Request.noted, eq_comm] using hasked
    · refine (hlink.validateAndStart_yields heeds_isCall hany (fun _ _ => trivial) _ listens).tells ?_ ?_
      · rintro - l ⟨before, hcleared, hbefore, rfl⟩
        exact .of_cleared hcleared hbefore _
      · rintro e l ⟨-, hl | ⟨before, fault, hcleared, hbefore, rfl⟩⟩
        · exact ⟨trivial, .of_not_mem (hl.asked_not_mem rfl)⟩
        · exact ⟨trivial, .of_cleared hcleared hbefore _⟩

end Updater

namespace Sample

/-- The answers of a flow with one processor, which is invalid but has no error. -/
def faintAnswer : (r : Request) → r.Answer
  | .processors => ([{ index := 0 }] : List Component)
  | .performValidation _ => Status.invalid
  | r => r.plainAnswer

/-- A host with such a flow. -/
def faint : Host Nat :=
  { Host.plain (fun _ => none) fun _ _ => none with
    reply := fun r s => .done (.ok (faintAnswer r)) s }

/-- A start of its flow, and an update. -/
def started : Except Fault Unit × World Nat :=
  (validateAndStart (faint.link tokenConsole 0) Sample.plan.validation true).run world

def updated : Except Fault UpdateReport × World Nat :=
  (Updater.apply (faint.link (Updater.console Sample.plan) 0) Sample.plan [2]).run world

end Sample

namespace Updater

attribute [local irreducible] Sample.started Sample.updated in
/-- A component of which the last and only status is `invalid` does not keep the flow
from being started, if it reports no error. -/
theorem invalid_is_started :
    ((Sample.world.since Sample.started.2).filterMap Entry.status? = [({ index := 0 }, .invalid)] ∧
      Entry.answered .startProcessing (.ok ()) ∈ Sample.world.since Sample.started.2) ∧
    (Sample.world.since Sample.updated.2).filterMap Entry.status? = [({ index := 0 }, .invalid)] ∧
      Entry.answered .startProcessing (.ok ()) ∈ Sample.world.since Sample.updated.2 ∧
      Sample.updated.1.toOption.map (·.state) = some .running := by
  have hstarted : ∀ {es : List Entry}, es.any Entry.isStarted = true →
      Entry.answered .startProcessing (.ok ()) ∈ es := fun h => by
    obtain ⟨e, he, hs⟩ := List.any_eq_true.mp h
    exact Entry.isStarted_iff.mp hs ▸ he
  exact ⟨⟨by decide +kernel, hstarted (by decide +kernel)⟩, by decide +kernel,
    hstarted (by decide +kernel), by decide +kernel⟩

end Updater

end HotSwap
