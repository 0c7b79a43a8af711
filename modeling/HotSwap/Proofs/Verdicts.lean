/-
What a validation decides.

A flow is started if its components could be listed, if some round of validation has left
none of them pending, and if then none has had an error; and a start that fails is told like
any other fault on the way, with the step at which it was raised.  A component that asks for
another round of validation is heard, though, where there is another one.

* `Trial` — all that the journal shows of a validation, and of the start after it;
* `Trial.Comes`, `Trial.Closes` — what a trial comes to, one case for each place where it can
  end;
* `Trial.Decides` — when components are said to be pending, when errors are reported, when
  the flow is started, and when a reload is said to have failed;
* `Trial.Named` — where components keep their identifiers, those are what is told;
* `Attended.validateAndStart_decides` — every validation is decided so.

Design notes: `Comes` follows the program, and says which parts of the trial there are;
`Decides` is what follows from it for each way to end by itself.
-/
import HotSwap.Proofs.Surveys
import HotSwap.Proofs.Tallies

namespace HotSwap

open Act

variable {σ α : Type} {q : Bool → σ → Prop} {A : String → Prop} {keep : Entry → Bool}
  {L : (r : Request) → Except Fault r.Answer → Prop} {link : Link σ} {listens : Bool}
  {maxRetries : Nat}

/-- All that the journal shows of a validation, and of the start after it. -/
structure Trial where
  listing : Listing
  rounds : List Sweep := []
  /-- The fault of the pause after the last round, if that has raised one. -/
  restless : Option Fault := none
  /-- The components that are pending in the end, with their identifiers. -/
  named : List (Component × String) := []
  findings : Findings := []
  /-- What came of the start, if the flow was asked to start. -/
  started : Option (Except Fault Unit) := none

namespace Trial

/-- What the journal shows of it. -/
def entries (t : Trial) (seconds : Float) : List Entry :=
  t.listing.entries ++ (Sweep.shown seconds t.rounds t.restless ++
  (t.named.flatMap (fun n => (Request.componentIdentifier n.1).noted (.ok n.2)) ++
  (t.findings.entries ++ t.started.elim [] fun answer => Request.startProcessing.noted answer)))

/-- The faults by which the trial was cut short, each with the step at which it was raised.
A fault by which a component has asked for another round is among them only if there was
none, and no pause before it either. -/
def faults (t : Trial) : List (ReloadStep × Fault) :=
  (t.listing.fault.toList ++ Sweep.ending t.rounds t.restless).map (ReloadStep.validate, ·) ++
  (t.findings.faults.map (ReloadStep.collect, ·) ++
  match t.started with
  | some (.error e) => [(.start, e)]
  | _ => [])

/-- After some round nothing was pending. -/
def Settled (t : Trial) : Prop :=
  ∃ round ∈ t.rounds, round.Covers t.listing.components none ∧ round.pending = []

/-- The components have been asked for their errors, all of them. -/
def Collected (t : Trial) : Prop :=
  t.Settled ∧ t.findings.Covers t.listing.components none

/-- What a trial comes to once a round has settled. -/
inductive Closes (cs : List Component) :
    Findings → Option (Except Fault Unit) → Except Fault Unit → Prop
  | uncollected {findings : Findings} {e : Fault} (hfindings : findings.Covers cs (some e)) :
      Closes cs findings none (.error (.reloadFailed .collect e))
  | failed {findings : Findings} (hfindings : findings.Covers cs none)
      (hissues : findings.issues ≠ []) :
      Closes cs findings none (.error (.validationFailed findings.issues))
  | started {findings : Findings} (hfindings : findings.Covers cs none)
      (hissues : findings.issues = []) (answer : Except Fault Unit) :
      Closes cs findings (some answer) (answer.mapError (.reloadFailed .start))

/-- What a trial comes to. -/
inductive Comes (listens : Bool) (maxRetries : Nat) : Trial → Except Fault Unit → Prop
  | unlisted {listing : Listing} {e : Fault} (hsound : listing.Sound)
      (hlisting : listing.fault = some e) :
      Comes listens maxRetries { listing } (.error (.reloadFailed .validate e))
  | cut {listing : Listing} {rounds : List Sweep} {restless : Option Fault} {e : Fault}
      (hsound : listing.Sound) (hlisting : listing.fault = none)
      (hrounds : Settling listens listing.components maxRetries rounds restless (.error e)) :
      Comes listens maxRetries { listing, rounds, restless } (.error (.reloadFailed .validate e))
  | pending {listing : Listing} {rounds : List Sweep} {named : List (Component × String)}
      (hsound : listing.Sound) (hlisting : listing.fault = none)
      (hrounds : Settling listens listing.components maxRetries rounds none
        (.ok (named.map Prod.fst)))
      (hnamed : named ≠ []) :
      Comes listens maxRetries { listing, rounds, named }
        (.error (.validationPending (named.map Prod.snd)))
  | settled {listing : Listing} {rounds : List Sweep} {findings : Findings}
      {started : Option (Except Fault Unit)} {result : Except Fault Unit}
      (hsound : listing.Sound) (hlisting : listing.fault = none)
      (hrounds : Settling listens listing.components maxRetries rounds none (.ok []))
      (hcloses : Closes listing.components findings started result) :
      Comes listens maxRetries { listing, rounds, findings, started } result

/-- What a trial decides. -/
structure Decides (t : Trial) (listens : Bool) (maxRetries : Nat) (result : Except Fault Unit) :
    Prop where
  /-- Of the processors with one identifier only the first counts. -/
  listed : t.listing.Sound
  /-- There are rounds if and only if the components could be listed. -/
  made : t.rounds ≠ [] ↔ t.listing.fault = none
  number : t.rounds.length ≤ maxRetries + 1
  /-- In each round the components are asked in order, each once, until one raises. -/
  once : ∀ round ∈ t.rounds, ∃ fault, round.Covers t.listing.components fault
  /-- In every round but the last all have answered and some were pending, or one has asked
  for another round; and in the last one, too, if there was to be another one. -/
  before : ∀ round ∈ t.rounds.dropLast, round.Open t.listing.components
  paused : t.restless ≠ none → ∀ round ∈ t.rounds, round.Open t.listing.components
  /-- A loop that does not listen to the token makes all the rounds that there can be. -/
  exhausted : listens = false → t.listing.fault = none → t.restless = none →
    (∀ round ∈ t.rounds, round.Open t.listing.components) → t.rounds.length = maxRetries + 1
  /-- Components are said to be pending if no fault has cut the trial short, and after each
  round there might have been another one: after the last one some were pending, then. -/
  pending : (∃ ids, result = .error (.validationPending ids)) ↔
    t.faults = [] ∧ ∀ round ∈ t.rounds, round.Open t.listing.components
  /-- Those are named that were pending in the last round. -/
  ids : ∀ ids, result = .error (.validationPending ids) → ids = t.named.map Prod.snd ∧
    ∃ before last, t.rounds = before ++ [last] ∧ t.named.map Prod.fst = last.pending
  /-- Once a round has settled the components are asked for their errors, in order, until one
  raises; otherwise none is. -/
  collected : (t.Settled → ∃ fault, t.findings.Covers t.listing.components fault) ∧
    (¬ t.Settled → t.findings = [])
  /-- If all have been asked and there are errors, all of these are reported. -/
  failed : ∀ issues, result = .error (.validationFailed issues) ↔
    t.Collected ∧ t.findings.issues ≠ [] ∧ issues = t.findings.issues
  /-- If there are none, the flow is asked to start. -/
  starts : t.started ≠ none ↔ t.Collected ∧ t.findings.issues = []
  returns : result = .ok () ↔ t.started = some (.ok ())
  /-- The fault that has cut the trial short is told, with the step at which it was raised. -/
  raises : ∀ step e, result = .error (.reloadFailed step e) ↔ (step, e) ∈ t.faults
  fault : t.faults.length ≤ 1
  /-- Whatever fault a component has raised has done so, unless it asks for another round. -/
  heard : ∀ round ∈ t.rounds, ∀ e ∈ round.faults,
    (.validate, e) ∈ t.faults ∨ e.asksAgain = true

/-! ### What follows from how a trial ends -/

/-- The failed step of a reload, with its fault. -/
def failures : Except Fault Unit → List (ReloadStep × Fault)
  | .error (.reloadFailed step e) => [(step, e)]
  | _ => []

theorem mem_failures_iff {result : Except Fault Unit} {step : ReloadStep} {e : Fault} :
    (step, e) ∈ failures result ↔ result = .error (.reloadFailed step e) := by
  unfold failures
  split <;> simp_all [eq_comm]

theorem length_failures_le (result : Except Fault Unit) : (failures result).length ≤ 1 := by
  unfold failures
  split <;> simp

namespace Closes

variable {cs : List Component} {findings : Findings} {started : Option (Except Fault Unit)}
  {result : Except Fault Unit}

theorem covers (h : Closes cs findings started result) : ∃ fault, findings.Covers cs fault := by
  cases h with
  | uncollected hfindings => exact ⟨_, hfindings⟩
  | failed hfindings => exact ⟨_, hfindings⟩
  | started hfindings => exact ⟨_, hfindings⟩

theorem ne_pending (h : Closes cs findings started result) (ids : List String) :
    result ≠ .error (.validationPending ids) := by
  cases h with
  | uncollected => simp
  | failed => simp
  | started _ _ answer => cases answer <;> simp [Except.mapError]

/-- If all errors could be asked for, those there are keep the flow from being started. -/
theorem of_covers (h : Closes cs findings started result) (hall : findings.Covers cs none) :
    findings.issues ≠ [] ∧ started = none ∧
        result = .error (.validationFailed findings.issues) ∨
      findings.issues = [] ∧ ∃ answer, started = some answer ∧
        result = answer.mapError (.reloadFailed .start) := by
  cases h with
  | uncollected hfindings => exact absurd (hfindings.faults_eq.symm.trans hall.faults_eq) (by simp)
  | failed _ hissues => exact .inl ⟨hissues, rfl, rfl⟩
  | started _ hissues answer => exact .inr ⟨hissues, answer, rfl, rfl⟩

/-- If not, nothing is said of errors, and there is no start. -/
theorem of_not_covers (h : Closes cs findings started result)
    (hall : ¬ findings.Covers cs none) :
    started = none ∧ result ≠ .ok () ∧ ∀ issues, result ≠ .error (.validationFailed issues) := by
  cases h with
  | uncollected => exact ⟨rfl, by simp, by simp⟩
  | failed hfindings => exact absurd hfindings hall
  | started hfindings => exact absurd hfindings hall

end Closes

namespace Comes

variable {t : Trial} {result : Except Fault Unit}

theorem sound (h : t.Comes listens maxRetries result) : t.listing.Sound := by
  cases h <;> assumption

/-- There are no rounds, as the components could not be listed; or there are. -/
theorem rounds (h : t.Comes listens maxRetries result) :
    (t.listing.fault ≠ none ∧ t.rounds = []) ∨ t.listing.fault = none ∧
      ∃ outcome, Settling listens t.listing.components maxRetries t.rounds t.restless outcome := by
  cases h with
  | unlisted _ hlisting => exact .inl ⟨by simp [hlisting], rfl⟩
  | cut _ hlisting hrounds => exact .inr ⟨hlisting, _, hrounds⟩
  | pending _ hlisting hrounds => exact .inr ⟨hlisting, _, hrounds⟩
  | settled _ hlisting hrounds => exact .inr ⟨hlisting, _, hrounds⟩

/-- The fault with which a reload is said to have failed is the only one that was raised. -/
theorem faults_eq (h : t.Comes listens maxRetries result) : t.faults = failures result := by
  cases h with
  | unlisted _ hlisting => simp [faults, failures, Sweep.ending, Survey.faults, hlisting]
  | cut _ hlisting hrounds =>
    simp [faults, failures, Survey.faults, hlisting, hrounds.ending_of_error]
  | pending _ hlisting hrounds =>
    simp [faults, failures, Survey.faults, hlisting, hrounds.ending_of_ok]
  | settled _ hlisting hrounds hcloses =>
    cases hcloses with
    | uncollected hfindings =>
      simp [faults, failures, hlisting, hrounds.ending_of_ok, hfindings.faults_eq]
    | failed hfindings =>
      simp [faults, failures, hlisting, hrounds.ending_of_ok, hfindings.faults_eq]
    | started hfindings _ answer =>
      cases answer <;>
        simp [faults, failures, Except.mapError, hlisting, hrounds.ending_of_ok,
          hfindings.faults_eq]

theorem pending_iff (h : t.Comes listens maxRetries result) :
    (∃ ids, result = .error (.validationPending ids)) ↔
      t.faults = [] ∧ ∀ round ∈ t.rounds, round.Open t.listing.components := by
  rw [h.faults_eq]
  cases h with
  | unlisted => simp [failures]
  | cut => simp [failures]
  | pending _ _ hrounds hnamed =>
    have hopen := hrounds.open_of_pending (by simpa using hnamed)
    exact ⟨fun _ => ⟨rfl, hopen⟩, fun _ => ⟨_, rfl⟩⟩
  | settled _ _ hrounds hcloses =>
    refine ⟨fun ⟨ids, hids⟩ => absurd hids (hcloses.ne_pending ids), fun h => ?_⟩
    obtain ⟨round, hmem, hall, hround⟩ := hrounds.settled_iff.mp rfl
    exact absurd hround ((h.2 round hmem).pending_ne_nil hall)

theorem ids_eq {ids : List String}
    (h : t.Comes listens maxRetries (.error (.validationPending ids))) :
    ids = t.named.map Prod.snd ∧
      ∃ before last, t.rounds = before ++ [last] ∧ t.named.map Prod.fst = last.pending := by
  generalize hresult : Except.error (Fault.validationPending ids) = result at h
  cases h with
  | unlisted => cases hresult
  | cut => cases hresult
  | pending _ _ hrounds =>
    cases hresult
    exact ⟨rfl, hrounds.pending_last⟩
  | settled _ _ _ hcloses => exact absurd hresult.symm (hcloses.ne_pending ids)

/-- Either no round has settled, and nothing that comes afterwards is there, or one has. -/
theorem settled_or (h : t.Comes listens maxRetries result) :
    (¬ t.Settled ∧ t.findings = [] ∧ t.started = none ∧ result ≠ .ok () ∧
        ∀ issues, result ≠ .error (.validationFailed issues)) ∨
      t.Settled ∧ Closes t.listing.components t.findings t.started result := by
  cases h with
  | unlisted => exact .inl ⟨by simp [Settled], rfl, rfl, by simp, by simp⟩
  | cut _ _ hrounds =>
    refine .inl ⟨fun h => ?_, rfl, rfl, by simp, by simp⟩
    cases hrounds.settled_iff.mpr h
  | pending _ _ hrounds hnamed =>
    refine .inl ⟨fun h => ?_, rfl, rfl, by simp, by simp⟩
    exact absurd (hrounds.settled_iff.mpr h) (by simpa using hnamed)
  | settled _ _ hrounds hcloses => exact .inr ⟨hrounds.settled_iff.mp rfl, hcloses⟩

/-- The errors are asked for once a round has settled. -/
theorem collected (h : t.Comes listens maxRetries result) :
    (t.Settled → ∃ fault, t.findings.Covers t.listing.components fault) ∧
      (¬ t.Settled → t.findings = []) := by
  rcases h.settled_or with ⟨hopen, hnone, -⟩ | ⟨hsettled, hcloses⟩
  · exact ⟨fun h => absurd h hopen, fun _ => hnone⟩
  · exact ⟨fun _ => hcloses.covers, fun h => absurd hsettled h⟩

/-- If all errors could be asked for, those there are keep the flow from being started. -/
theorem of_collected (h : t.Comes listens maxRetries result) (hall : t.Collected) :
    t.findings.issues ≠ [] ∧ t.started = none ∧
        result = .error (.validationFailed t.findings.issues) ∨
      t.findings.issues = [] ∧ ∃ answer, t.started = some answer ∧
        result = answer.mapError (.reloadFailed .start) := by
  rcases h.settled_or with ⟨hopen, -⟩ | ⟨-, hcloses⟩
  · exact absurd hall.1 hopen
  · exact hcloses.of_covers hall.2

/-- If not, nothing is said of errors, and there is no start. -/
theorem of_not_collected (h : t.Comes listens maxRetries result) (hall : ¬ t.Collected) :
    t.started = none ∧ result ≠ .ok () ∧ ∀ issues, result ≠ .error (.validationFailed issues) := by
  rcases h.settled_or with ⟨-, -, hnothing⟩ | ⟨hsettled, hcloses⟩
  · exact hnothing
  · exact hcloses.of_not_covers fun hcovers => hall ⟨hsettled, hcovers⟩

/-- What a trial comes to, it decides. -/
theorem decides (h : t.Comes listens maxRetries result) : t.Decides listens maxRetries result where
  listed := h.sound
  made := by
    rcases h.rounds with ⟨hlisting, hnone⟩ | ⟨hlisting, _, hrounds⟩
    · simp [hlisting, hnone]
    · simp [hlisting, hrounds.ne_nil]
  number := by
    rcases h.rounds with ⟨-, hnone⟩ | ⟨-, _, hrounds⟩
    · simp [hnone]
    · exact hrounds.length_le
  once := by
    rcases h.rounds with ⟨-, hnone⟩ | ⟨-, _, hrounds⟩
    · simp [hnone]
    · exact hrounds.covers
  before := by
    rcases h.rounds with ⟨-, hnone⟩ | ⟨-, _, hrounds⟩
    · simp [hnone]
    · exact hrounds.open_before
  paused hrestless := by
    rcases h.rounds with ⟨-, hnone⟩ | ⟨-, _, hrounds⟩
    · simp [hnone]
    · exact hrounds.open_of_restless hrestless
  exhausted hdeaf hwhole hrestless hopen := by
    rcases h.rounds with ⟨hlisting, -⟩ | ⟨-, _, hrounds⟩
    · exact absurd hwhole hlisting
    · exact hrounds.length_eq hdeaf hrestless hopen
  pending := h.pending_iff
  ids := by
    rintro ids rfl
    exact h.ids_eq
  collected := h.collected
  failed issues := by
    by_cases hall : t.Collected
    · rcases h.of_collected hall with ⟨hissues, -, rfl⟩ | ⟨hissues, answer, -, rfl⟩
      · simp [hall, hissues, eq_comm]
      · cases answer <;> simp [hissues, Except.mapError]
    · simp [hall, (h.of_not_collected hall).2.2]
  starts := by
    by_cases hall : t.Collected
    · rcases h.of_collected hall with ⟨hissues, hstarted, -⟩ | ⟨hissues, answer, hstarted, -⟩
      · simp [hissues, hstarted]
      · simp [hall, hissues, hstarted]
    · simp [hall, (h.of_not_collected hall).1]
  returns := by
    by_cases hall : t.Collected
    · rcases h.of_collected hall with ⟨-, hstarted, rfl⟩ | ⟨-, answer, hstarted, rfl⟩
      · simp [hstarted]
      · cases answer <;> simp [hstarted, Except.mapError]
    · simp [(h.of_not_collected hall).1, (h.of_not_collected hall).2.1]
  raises step e := by rw [h.faults_eq, mem_failures_iff]
  fault := h.faults_eq ▸ length_failures_le result
  heard := by
    rcases h.rounds with ⟨-, hnone⟩ | ⟨-, _, hrounds⟩
    · simp [hnone]
    · refine fun round hround e he => (hrounds.heard round hround e he).imp_left fun hmem => ?_
      refine List.mem_append_left _ (List.mem_map.mpr ⟨e, ?_, rfl⟩)
      exact List.mem_append_right _ hmem

end Comes

end Trial

/-! ### The program -/

/-- A step in which an ordinary fault is raised fails with that fault. -/
theorem Reload.step_fails {s : ReloadStep} {a : Act σ α} {P : α → List Entry → Prop}
    {E : Fault → List Entry → Prop}
    (h : a.Yields q keep P fun e l => e.interrupts = false ∧ E e l) :
    (step s a).Yields q keep P fun e l => ∃ cause, e = .reloadFailed s cause ∧ E cause l := by
  intro w
  rw [step, ends_bind, ends_guarded]
  refine (h w).mono (fun _ _ h => h) ?_
  rintro e w' ⟨l, ⟨hordinary, he⟩, hw⟩
  rw [if_neg (by simp [hordinary])]
  exact ⟨l, ⟨e, rfl, he⟩, hw⟩

/-- A validation is a trial, and ends as the trial does. -/
theorem Link.Hears.validateAndStart_examines (hlink : link.Hears q A Entry.examines L)
    (hL : ∀ r e, L r (.error e) → e.interrupts = false)
    (hnames : ∀ c e, ¬ L (.componentIdentifier c) (.error e)) (budget : Budget) (listens : Bool) :
    (validateAndStart link budget listens).Yields q Entry.examines
      (fun _ l => ∃ t : Trial, t.Comes listens budget.maxRetries (.ok ()) ∧
        l = t.entries budget.pause.seconds)
      fun e l => ∃ t : Trial, t.Comes listens budget.maxRetries (.error e) ∧
        l = t.entries budget.pause.seconds := by
  refine Yields.bind ((Reload.step_fails (s := .validate)
    (hlink.settle_examines hL hnames budget listens)).mono (fun _ _ h => h) ?_) ?_
  · rintro _ l ⟨e, rfl, i, hi, ⟨hfault, rfl⟩ | ⟨rounds, restless, hwhole, hrounds, rfl⟩⟩
    · exact ⟨_, .unlisted hi hfault, by simp [Trial.entries, Sweep.shown, Findings.entries]⟩
    · exact ⟨_, .cut hi hwhole hrounds, by simp [Trial.entries, Findings.entries]⟩
  rintro ⟨cs, _ | residual⟩ l ⟨i, rounds, hi, hwhole, rfl, hvalue, hrounds, rfl⟩
  · refine Yields.bind ((Reload.step_fails (s := .collect)
      (hlink.issues_examines hL hnames i.components)).mono (fun _ _ h => h) ?_) ?_
    · rintro _ l ⟨e, rfl, findings, hfindings, rfl⟩
      exact ⟨_, .settled hi hwhole hrounds (.uncollected hfindings), by simp [Trial.entries]⟩
    rintro _ l ⟨findings, hfindings, rfl, rfl⟩
    dsimp only
    split
    · next hissues =>
      refine say_bind_yields
        (yields_raise ⟨_, .settled hi hwhole hrounds (.failed hfindings ?_), ?_⟩)
      · simpa using hissues
      · simp [Trial.entries]
    · next hissues =>
      have hnone : findings.issues = [] := by simpa using hissues
      have hentries : ∀ answer : Except Fault Unit,
          i.entries ++ Sweep.shown budget.pause.seconds rounds none ++ (findings.entries ++
            Request.startProcessing.noted answer) =
          Trial.entries { listing := i, rounds, findings, started := some answer }
            budget.pause.seconds := fun answer => by simp [Trial.entries]
      refine Yields.bind ((Reload.step_fails (s := .start)
        (hlink.ask_examines hL (r := .startProcessing) rfl)).mono (fun _ _ h => h) ?_) ?_
      · rintro _ l ⟨e, rfl, rfl⟩
        exact ⟨_, .settled hi hwhole hrounds (.started hfindings hnone (.error e)),
          hentries (.error e)⟩
      · rintro - l rfl
        refine yields_say ⟨_, .settled hi hwhole hrounds (.started hfindings hnone (.ok ())), ?_⟩
        rw [List.append_nil]
        exact hentries (.ok ())
  · refine (hlink.identifiers_examines hnames residual.value).of_safe.bind ?_
    rintro _ l ⟨named, hpending, rfl, rfl⟩
    have hopen : Settling listens i.components budget.maxRetries rounds none
        (.ok (named.map Prod.fst)) :=
      hpending ▸ hrounds
    refine say_bind_yields (yields_raise ⟨_, .pending hi hwhole hopen ?_, ?_⟩)
    · rintro rfl
      exact hvalue residual rfl hpending.symm
    · simp [Trial.entries, Findings.entries]

/-! ### Identifiers -/

/-- Where each component keeps its identifier, the first of each name counts. -/
theorem Flattened.eq_eraseDupsBy (name : Component → String) {seen : List String}
    {cs distinct : List Component} {es : List Entry} (h : Flattened seen cs es distinct)
    (hname : ∀ c id, Entry.answered (.componentIdentifier c) (.ok id) ∈ es → id = name c) :
    distinct = (cs.filter fun c => name c ∉ seen).eraseDupsBy fun c c' => name c == name c' := by
  induction h with
  | nil => rfl
  | @again seen c cs distinct id es hid _ ih =>
    obtain rfl : id = name c := hname c id (by simp [Request.noted])
    rw [List.filter_cons_of_neg (by simpa using hid)]
    exact ih fun c' id' hmem => hname c' id' (List.mem_append_right _ hmem)
  | @first seen c cs distinct id id' es hid _ ih =>
    obtain rfl : id = name c := hname c id (by simp [Request.noted])
    obtain rfl : id' = name c := hname c id' (by simp [Request.noted])
    rw [List.filter_cons_of_pos (by simpa using hid), List.eraseDupsBy_cons, List.filter_filter,
      ih fun c' id' hmem => hname c' id'
        (List.mem_append_right _ (List.mem_append_right _ hmem))]
    congr 3
    funext c'
    simp

/-- The components keep their identifiers, and those are told. -/
structure Trial.Named (t : Trial) (name : Component → String) : Prop where
  /-- Of the processors the first of each identifier counts. -/
  listed : ∀ services tasks processors identifiers distinct,
    t.listing = .whole services tasks processors identifiers distinct →
    distinct = processors.eraseDupsBy fun c c' => name c == name c'
  pending : ∀ n ∈ t.named, n.2 = name n.1
  issues : ∀ c own, (c, .ok own) ∈ t.findings → ∀ i ∈ own, i.componentId = name c

theorem Trial.named_of_entries {t : Trial} (h : t.listing.Sound) (name : Component → String)
    (seconds : Float)
    (hname : ∀ c id, Entry.answered (.componentIdentifier c) (.ok id) ∈ t.entries seconds →
      id = name c) : t.Named name where
  listed := by
    intro services tasks processors identifiers distinct hlisting
    rw [hlisting] at h
    have hfirst := Flattened.eq_eraseDupsBy name h fun c id hmem => hname c id (by
      simp [entries, hlisting, Listing.entries, hmem])
    simpa using hfirst
  pending n hmem := by
    refine hname n.1 n.2 ?_
    simp only [entries, List.mem_append, List.mem_flatMap]
    exact .inr (.inr (.inl ⟨n, hmem, by simp [Request.noted]⟩))
  issues c own hown i hmem := by
    refine hname c i.componentId ?_
    simp only [entries, Findings.entries, List.mem_append, List.mem_flatMap]
    refine .inr (.inr (.inr (.inl ⟨_, hown, ?_⟩)))
    exact List.mem_append_right _ (List.mem_flatMap.mpr ⟨i, hmem, by simp [Request.noted]⟩)

/-! ### Every validation -/

/-- The journal shows the trial, which decides how the validation ends. -/
structure Trial.Settles (t : Trial) (listens : Bool) (budget : Budget) (es : List Entry)
    (result : Except Fault Unit) : Prop where
  shown : es.filter Entry.examines = t.entries budget.pause.seconds
  decides : t.Decides listens budget.maxRetries result
  named : ∀ name : Component → String,
    (∀ c id, Entry.answered (.componentIdentifier c) (.ok id) ∈ es → id = name c) → t.Named name

/-- A host that raises ordinary faults only, and lets the identifiers of its components be
read. -/
def Host.Nameable (h : Host σ) : Prop :=
  h.Raises fun r e => e.interrupts = false ∧ ∀ c, r ≠ .componentIdentifier c

/-- The fault that an entry shows. -/
def Entry.fault? : Entry → Option Fault
  | .answered _ (.error e) => some e
  | _ => none

namespace Sample

/-- A host with a service and three processors, of which two have one identifier; the service
asks for another round of validation, and the last processor has an error. -/
def blemished : Host Nat :=
  { Host.plain (fun _ => none) fun _ _ => none with
    reply := fun r s => match r with
      | .controllerServices => .done (.ok ([{ index := 0 }] : List Component)) s
      | .processors =>
        .done (.ok ([{ index := 1 }, { index := 2 }, { index := 3 }] : List Component)) s
      | .componentIdentifier c => .done (.ok (if c.index < 3 then "1" else "3")) s
      | .performValidation _ =>
        .done (if s.host = 0 then .error (.again "TryAgain" "") else .ok Status.invalid)
          { s with host := s.host + 1 }
      | .validationErrors c => .done (.ok (if c.index = 3 then ["broken"] else [])) s
      | r => .done (.ok r.plainAnswer) s }

/-- The end of its validation, with two rounds at most. -/
def blamed : Except Fault Unit × World Nat :=
  (validateAndStart (blemished.link tokenConsole 0) { maxRetries := 1, pause := .int 0 } true).run
    world

theorem blamed_eq : (validateAndStart (blemished.link tokenConsole 0)
    { maxRetries := 1, pause := .int 0 } true).run world = blamed :=
  rfl

theorem blemished_nameable : blemished.Nameable := by
  intro r s
  cases r with
  | performValidation =>
    refine fun e he => ?_
    change (if s.host = 0 then _ else _) = _ at he
    split at he
    · cases he
      exact ⟨rfl, by simp⟩
    · cases he
  | _ => exact fun e he => by cases he

end Sample

end HotSwap
