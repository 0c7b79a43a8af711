/-
The series of calls of an attempt.

An attempt calls the flow to drain it, to bring the candidate to run, and to bring the
restored configuration to run; each of these leaves its own calls, and in between there
are none.

* `Entry.isTraced` — the calls of the flow, and how far the attempt has come;
* `Loads`, `Starts`, `Brings` — the calls that load a configuration, that start the flow,
  and that do both, and whether they succeed;
* `Leg.Orderly` — the calls of a leg are those that its phase is for;
* `Attempt.observed_orderly` — the legs of every attempt are orderly;
* `Series` — the calls of an attempt, by how it has ended;
* `Journey.Sound.series` — orderly legs make up a series;
* `Journey.Sound.callsIn_cases` — the phases that come before its first call.
-/
import HotSwap.Proofs.Clearances
import HotSwap.Proofs.Journeys

namespace HotSwap

open Act

variable {σ : Type} {q : Bool → σ → Prop} {keep : Entry → Bool} {A : String → Prop}
  {L : (r : Request) → Except Fault r.Answer → Prop} {link : Link σ} {plan : UpdatePlan}
  {es es' : List Entry} {ok : Bool}

/-! ### What is traced -/

/-- Whether an entry is a call of the flow or its answer, or tells how far an attempt
has come. -/
def Entry.isTraced : Entry → Bool
  | .asked (.publish e) => e.progresses
  | e => e.isCall

theorem heeds_isTraced : Heeds Entry.isTraced where
  asked r hr := by cases r <;> first | exact hr | cases hr
  answered _ hr _ := hr
  pause _ := rfl
  paused _ _ := rfl

theorem watches_isTraced (id : String) : Watches Entry.isTraced id where
  progress _ hprogresses _ := hprogresses
  told r hr _ := by cases r <;> first | rfl | cases hr
  span r hr := by cases r <;> first | rfl | cases hr
  spanned r hr _ := by cases r <;> first | rfl | cases hr
  files e he := by cases e <;> first | rfl | exact he.elim

theorem Entry.isTraced_of_murmur {e : Entry} (he : e.Murmur A) : e.isTraced = false := by
  cases e with
  | asked r =>
    cases r with
    | publish e => cases e <;> first | rfl | exact he.elim
    | _ => first | rfl | exact he.elim
  | answered r answer => cases r <;> first | rfl | exact he.elim
  | _ => rfl

/-- Calls are traced, so that nothing is lost of them. -/
theorem callsOf_filter : callsOf (es.filter Entry.isTraced) = callsOf es := by
  rw [callsOf, List.filter_filter]
  refine List.filter_congr fun e _ => ?_
  cases e with
  | asked r => cases r <;> rfl
  | answered r answer => exact Bool.and_self _
  | _ => rfl

theorem callsOf_append : callsOf (es ++ es') = callsOf es ++ callsOf es' := List.filter_append ..

/-! ### Loading and starting -/

/-- Whether a request is one that loads a configuration. -/
def Request.isLoading : Request → Bool
  | .loadConfiguration | .rebuild => true
  | _ => false

/-- What the journal shows of a configuration that has been loaded. -/
def flowLoaded : List Entry :=
  Request.loadConfiguration.noted (.ok ()) ++ Request.rebuild.noted (.ok ())

/-- The calls that load a configuration, and whether they succeed. -/
inductive Loads : Bool → List Entry → Prop
  | done : Loads true flowLoaded
  | fails {es : List Entry} (hof : OfCalls Request.isLoading es) : Loads false es

theorem Loads.eq_of_true (h : Loads true es) : es = flowLoaded := by
  cases h
  rfl

/-- The calls that start the flow, and whether they succeed. -/
inductive Starts : Bool → List Entry → Prop
  | done {clearance : List Entry} (hcleared : Cleared clearance) (hof : OfValidation clearance) :
      Starts true (clearance ++ Request.startProcessing.noted (.ok ()))
  | refused {clearance : List Entry} (fault : Fault) (hcleared : Cleared clearance)
      (hof : OfValidation clearance) :
      Starts false (clearance ++ Request.startProcessing.noted (.error fault))
  | stays {es : List Entry} (hof : OfValidation es) : Starts false es

/-- The calls that bring a configuration to run, and whether they succeed. -/
inductive Brings : Bool → List Entry → Prop
  | loaded {ok : Bool} {es : List Entry} (hstarts : Starts ok es) : Brings ok (flowLoaded ++ es)
  | fails {es : List Entry} (hloads : Loads false es) : Brings false es

theorem Loads.isCall (h : Loads ok es) : ∀ e ∈ es, e.isCall = true := by
  cases h with
  | done => simp [flowLoaded, Request.noted, Entry.isCall, Request.isCall]
  | fails hof => exact hof.isCall

theorem Starts.isCall (h : Starts ok es) : ∀ e ∈ es, e.isCall = true := by
  have hstart : ∀ answer, ∀ e ∈ Request.startProcessing.noted answer, e.isCall = true := by
    simp [Request.noted, Entry.isCall, Request.isCall]
  cases h with
  | done _ hof => exact List.forall_mem_append.mpr ⟨hof.isCall, hstart _⟩
  | refused _ _ hof => exact List.forall_mem_append.mpr ⟨hof.isCall, hstart _⟩
  | stays hof => exact hof.isCall

theorem Brings.isCall (h : Brings ok es) : ∀ e ∈ es, e.isCall = true := by
  cases h with
  | loaded hstarts => exact List.forall_mem_append.mpr ⟨Loads.done.isCall, hstarts.isCall⟩
  | fails hloads => exact hloads.isCall

section

variable (hkeep : Heeds keep) (hlink : link.Hears q A keep L)
  (hordinary : ∀ r e, L r (.error e) → e.interrupts = false)

include hkeep hlink hordinary

/-- A call is read as itself. -/
theorem call_yields {r : Request} (hr : r.isCall = true) : (link.ask r).Yields q keep
    (fun x l => l = r.noted (.ok x))
    fun e l => e.interrupts = false ∧ ∃ fault, l = r.noted (.error fault) :=
  (hlink.ask r).mono (fun _ _ h => h.2.trans (hkeep.filter_noted hr _))
    fun e _ he => ⟨hordinary r e he.1, e, he.2.trans (hkeep.filter_noted hr _)⟩

theorem loadFlow_yields : (loadFlow link).Yields q keep (fun _ => Loads true)
    fun e l => e.interrupts = false ∧ Loads false l := by
  have hbody : (do link.ask .loadConfiguration; link.ask .rebuild : Act σ Unit).Yields q keep
      (fun _ => Loads true) fun e l => e.interrupts = false ∧ Loads false l := by
    refine ((call_yields hkeep hlink hordinary (r := .loadConfiguration) rfl).mono
      (fun _ _ h => h) ?_).bind ?_
    · rintro e l ⟨he, fault, rfl⟩
      exact ⟨he, .fails (.noted rfl rfl _)⟩
    · rintro x l rfl
      refine (call_yields hkeep hlink hordinary (r := .rebuild) rfl).mono ?_ ?_
      · rintro y l' rfl
        exact .done
      · rintro e l' ⟨he, fault, rfl⟩
        exact ⟨he, .fails (List.forall_mem_append.mpr ⟨OfCalls.noted rfl rfl _, OfCalls.noted rfl rfl _⟩)⟩
  exact say_bind_yields (Reload.step_yields hbody fun _ _ he => ⟨rfl, he.2⟩)

theorem starts_yields (budget : Budget) (listens : Bool) :
    (validateAndStart link budget listens).Yields q keep (fun _ => Starts true)
      fun e l => e.interrupts = false ∧ Starts false l := by
  refine (hlink.validateAndStart_yields hkeep hordinary (fun _ he => he) budget listens).mono ?_ ?_
  · rintro - l ⟨before, hcleared, hof, rfl⟩
    exact .done hcleared hof
  · rintro e l ⟨he, hof | ⟨before, fault, hcleared, hof, rfl⟩⟩
    · exact ⟨he, .stays hof⟩
    · exact ⟨he, .refused fault hcleared hof⟩

theorem reloadReverted_yields (validation : Budget) :
    (Attempt.reloadReverted link validation).Yields q keep (fun _ => Brings true)
      fun e l => e.interrupts = false ∧ Brings false l := by
  have hreload : (reloadFlow link validation false).Yields q keep (fun _ => Brings true)
      fun e l => e.interrupts = false ∧ Brings false l := by
    refine ((loadFlow_yields hkeep hlink hordinary).mono (fun _ _ h => h)
      fun _ _ he => ⟨he.1, .fails he.2⟩).bind ?_
    rintro - l ⟨⟩
    exact (starts_yields hkeep hlink hordinary validation false).mono (fun _ _ h => .loaded h)
      fun _ _ he => ⟨he.1, .loaded he.2⟩
  have hguarded : (reloadFlow link validation false).guarded.Yields q keep
      (fun r l => (∀ e, r = .error e → e.interrupts = false) ∧ Brings r.toBool l) fun _ _ => False := by
    refine Yields.guarded (hreload.mono (fun _ _ h => ⟨by simp, h⟩) fun e l he => ?_)
    rw [if_neg (by simp [he.1])]
    exact ⟨fun _ heq => Except.error.inj heq ▸ he.1, he.2⟩
  refine hguarded.of_safe.bind ?_
  rintro (fault | _) l ⟨hfault, hl⟩
  · dsimp only
    split
    · exact yields_raise ⟨rfl, by rw [List.append_nil]; exact hl⟩
    · exact yields_raise ⟨hfault fault rfl, by rw [List.append_nil]; exact hl⟩
  · exact yields_pure (by rw [List.append_nil]; exact hl)

end

theorem ofCalls_isDrain_noted {r : Request} (hr : r.isDrain = true) (answer : Except Fault r.Answer) :
    OfCalls Request.isDrain ((r.noted answer).filter Entry.isTraced) := by
  intro e he
  obtain ⟨he, htraced⟩ := List.mem_filter.mp he
  rcases List.mem_pair.mp he with rfl | rfl
  · refine ⟨?_, hr⟩
    cases r with
    | publish e =>
      cases e with
      | drainForced | transmissionStopTimedOut => cases htraced
      | _ => cases hr
    | _ => exact htraced
  · exact ⟨htraced, hr⟩

section

variable (hlink : link.Hears q A Entry.isTraced L)
  (hordinary : ∀ r e, L r (.error e) → e.interrupts = false)

include hlink hordinary

theorem drain_yields (plan : DrainPlan) (listens : Bool) :
    (drain link plan listens).Yields q Entry.isTraced (fun _ => OfCalls Request.isDrain)
      fun e l => e.interrupts = false ∧ OfCalls Request.isDrain l := by
  have hkeeps : link.Keeps (World.Leaves q Entry.isTraced (OfCalls Request.isDrain))
      (fun e => e.interrupts = false) fun r => r.isDrain = true := by
    refine ⟨fun r hr w => ?_, ?_, ?_⟩
    · refine (hlink.ask r w).mono ?_ ?_
      · rintro x w' ⟨l, ⟨-, rfl⟩, hw⟩
        exact ⟨_, ofCalls_isDrain_noted hr _, hw⟩
      · rintro e w' ⟨l, ⟨hL, rfl⟩, hw⟩
        exact ⟨hordinary r e hL, _, ofCalls_isDrain_noted hr _, hw⟩
    · exact hlink.newId_within.mono (fun _ _ h => h.leaves) fun _ he => he
    · exact hlink.time_within.mono (fun _ _ h => h.leaves) fun _ he => he
  exact (drain_within hkeeps plan listens).yields_leaves

end

/-! ### Orderly legs -/

/-- The calls of a leg are those that its phase is for, and they succeed if it does. -/
def Leg.Orderly (s : Leg) : Prop :=
  match s.passage.phase with
  | .draining => OfCalls Request.isDrain s.calls
  | .reloading => Loads s.passage.failure.isNone s.calls
  | .validating => Starts s.passage.failure.isNone s.calls
  | .reloadingReverted => Brings s.passage.failure.isNone s.calls
  | _ => s.calls = []

theorem Leg.Orderly.isCall {s : Leg} (h : s.Orderly) : ∀ e ∈ s.calls, e.isCall = true := by
  rw [Leg.Orderly] at h
  split at h
  · exact OfCalls.isCall h
  · exact h.isCall
  · exact h.isCall
  · exact h.isCall
  · simp [h]

/-- Calls that say whether they succeed make up the leg of a phase. -/
theorem Act.Yields.legs {α : Type} {action : Act σ α} {T : Bool → List Entry → Prop}
    {S : Leg → Prop} {phase : Phase} {kind : FailureKind}
    (h : action.Yields q keep (fun _ => T true) fun e l => e.interrupts = false ∧ T false l)
    (hS : ∀ (r : Except Fault α) l, T (failureOf kind r).isNone l → S (legOf phase kind r l)) :
    action.Legs q keep S phase kind := by
  refine Yields.guarded (h.mono (fun x l hl => hS (.ok x) l hl) ?_)
  rintro e l ⟨he, hl⟩
  rw [if_neg (by simp [he])]
  exact hS (.error e) l hl

/-- The legs of every attempt are orderly. -/
theorem Attempt.observed_orderly {a : Attempt} (hlink : link.Hears q A Entry.isTraced L)
    (hordinary : ∀ r e, L r (.error e) → e.interrupts = false)
    (hspans : ∀ r : Request, r.isSpan = true → ∀ e, ¬ L r (.error e))
    (henriches : plan.enriches = true) :
    a.Observed link plan q A Entry.isTraced L Leg.Orderly := by
  refine observed_of_apart hlink (watches_isTraced a.id) hordinary hspans henriches
    (fun raw => hlink.ask_within rfl (fun _ => rfl) (hordinary _)) ?_ ?_ ?_ ?_ ?_
  · rintro ⟨⟨phase, failure⟩, calls⟩ hphase rfl
    cases phase <;> first | rfl | cases hphase
  · exact (drain_yields hlink hordinary _ _).legs (T := fun _ => OfCalls Request.isDrain)
      fun _ _ h => h
  · exact (loadFlow_yields heeds_isTraced hlink hordinary).legs fun _ _ h => h
  · exact (starts_yields heeds_isTraced hlink hordinary _ _).legs fun _ _ h => h
  · exact (reloadReverted_yields heeds_isTraced hlink hordinary _).legs fun _ _ h => h

/-! ### Series -/

/-- The phases that may have touched the flow. -/
theorem Phase.touchesRuntime_iff {phase : Phase} :
    phase.touchesRuntime = true ↔ phase ∈ [Phase.draining, .reloading, .validating] := by
  cases phase <;> decide

/-- The calls of an attempt, by the phase that has failed and that of the way back. -/
inductive Series : Option PhaseFailure → Option PhaseFailure → List Entry → Prop
  | apart {failed : PhaseFailure} (back : Option PhaseFailure)
      (hapart : failed.phase.touchesRuntime = false) : Series (some failed) back []
  | running {drained brought : List Entry} (hdrained : OfCalls Request.isDrain drained)
      (hbrought : Brings true brought) : Series none none (drained ++ brought)
  | back {failed : PhaseFailure} {back : Option PhaseFailure} {drained tried restored : List Entry}
      (htouches : failed.phase.touchesRuntime = true) (hdrained : OfCalls Request.isDrain drained)
      (htried : tried = [] ∨ Brings false tried)
      (hrestored : back ≠ none ∧ restored = [] ∨ Brings back.isNone restored) :
      Series (some failed) back (drained ++ (tried ++ restored))

/-- Without a phase that may have touched the flow there are no calls. -/
theorem Series.eq_nil {f : PhaseFailure} {back : Option PhaseFailure}
    (h : Series (some f) back es) (hapart : f.phase.touchesRuntime = false) : es = [] := by
  cases h with
  | apart => rfl
  | back htouches =>
    rw [hapart] at htouches
    cases htouches

/-- The calls of legs, one after the other. -/
def callsIn (legs : List Leg) : List Entry := legs.flatMap (·.calls)

section

variable {legs legs' : List Leg} {failed : Option PhaseFailure} {f : PhaseFailure}

theorem callsIn_append : callsIn (legs ++ legs') = callsIn legs ++ callsIn legs' :=
  List.flatMap_append ..

/-- The calls of orderly legs are all that the journal shows of calls. -/
theorem callsOf_legs (id : String) (horderly : ∀ s ∈ legs, s.Orderly) :
    callsOf (legs.flatMap (Leg.entries id)) = callsIn legs := by
  induction legs with
  | nil => rfl
  | cons s legs ih =>
    obtain ⟨hs, horderly⟩ := List.forall_mem_cons.mp horderly
    have hcalls : callsOf (s.entries id) = s.calls := by
      have hown : callsOf s.calls = s.calls := List.filter_eq_self.mpr hs.isCall
      rw [callsOf] at hown
      simp [callsOf, Leg.entries, Entry.isCall, Request.isCall, hown]
    rw [List.flatMap_cons, callsOf_append, hcalls, ih horderly, callsIn, callsIn, List.flatMap_cons]

theorem Leg.calls_of_isApart {s : Leg} (h : s.Orderly) (hapart : s.passage.phase.isApart = true) :
    s.calls = [] := by
  obtain ⟨⟨phase, failure⟩, calls⟩ := s
  cases phase <;> first | exact h | cases hapart

/-- Phases that leave the flow alone make no calls. -/
theorem callsIn_of_isApart (horderly : ∀ s ∈ legs, s.Orderly) {phases : List Phase}
    (hpasses : Passes phases (legs.map (·.passage)) failed)
    (hapart : ∀ phase ∈ phases, phase.isApart = true) : callsIn legs = [] := by
  refine List.flatMap_eq_nil_iff.mpr fun s hs => ?_
  exact Leg.calls_of_isApart (horderly s hs)
    (hapart _ (hpasses.mem_of_mem (List.mem_map_of_mem hs)))

/-- The way back brings the restored configuration to run, if the flow may have been
touched. -/
theorem callsIn_wayBack (horderly : ∀ s ∈ legs, s.Orderly)
    (htouches : f.phase.touchesRuntime = true)
    (hback : Passes f.phase.wayBack (legs.map (·.passage)) failed) :
    failed ≠ none ∧ callsIn legs = [] ∨ Brings failed.isNone (callsIn legs) := by
  have hway : f.phase.wayBack = [.revertingFiles, .reloadingReverted] := by
    rw [Phase.wayBack]
    · rw [if_pos htouches]
    · rintro hphase
      rw [hphase] at htouches
      cases htouches
  rw [hway] at hback
  obtain ⟨s, rest, rfl, hphase, hs⟩ := hback.uncons
  obtain ⟨hs', hrest⟩ := List.forall_mem_cons.mp horderly
  have hcalls : s.calls = [] := s.calls_of_isApart hs' (by rw [hphase]; rfl)
  rcases hs with ⟨failure, -, rfl, rfl⟩ | ⟨-, hpasses⟩
  · exact .inl ⟨by simp, by simp [callsIn, hcalls]⟩
  · right
    obtain ⟨t, rfl, hphase, hfailed⟩ := hpasses.of_singleton
    have hbrings : t.Orderly := hrest t (List.mem_singleton_self t)
    simp only [Leg.Orderly, hphase] at hbrings
    rw [hfailed]
    simpa [callsIn, hcalls] using hbrings

/-- A way forward that has left the flow alone has made no calls; otherwise the candidate
has been enriched and persisted before the first of them. -/
theorem callsIn_forward_cases (horderly : ∀ s ∈ legs, s.Orderly)
    (hpasses : Passes Phase.forward (legs.map (·.passage)) failed) :
    (∃ f, failed = some f ∧ f.phase.touchesRuntime = false ∧ callsIn legs = []) ∨
    ∃ opening more, legs = opening ++ more ∧ callsIn opening = [] ∧
      opening.map (·.passage) =
        [{ phase := .enriching }, { phase := .backingUp }, { phase := .persisting }] ∧
      Passes [.draining, .reloading, .validating] (more.map (·.passage)) failed := by
  have hapart : ∀ phase ∈ [Phase.enriching, .backingUp, .persisting], phase.isApart = true := by
    decide
  have hforward : Phase.forward = [.enriching, .backingUp, .persisting] ++
      [.draining, .reloading, .validating] := rfl
  rw [hforward] at hpasses
  rcases hpasses.of_append with ⟨hfailed, h⟩ | ⟨before, after, hlegs, h, h'⟩
  · left
    cases failed with
    | none => exact absurd rfl hfailed
    | some f =>
      have hmem : ∀ phase ∈ [Phase.enriching, .backingUp, .persisting],
          phase.touchesRuntime = false := by
        decide
      exact ⟨f, rfl, hmem _ (h.mem_of_failed rfl), callsIn_of_isApart horderly h hapart⟩
  · right
    obtain ⟨opening, more, rfl, rfl, rfl⟩ := List.map_eq_append_iff.mp hlegs
    have hopening := (List.forall_mem_append.mp horderly).1
    exact ⟨opening, more, rfl, callsIn_of_isApart hopening h hapart, h.eq_of_none, h'⟩

/-- The way forward drains the flow and brings the candidate to run, as far as the phase
that fails. -/
theorem callsIn_forward (horderly : ∀ s ∈ legs, s.Orderly)
    (hpasses : Passes [.draining, .reloading, .validating] (legs.map (·.passage)) failed) :
    ∃ drained tried, callsIn legs = drained ++ tried ∧ OfCalls Request.isDrain drained ∧
      (failed ≠ none ∧ tried = [] ∨ Brings failed.isNone tried) := by
  obtain ⟨s, legs, rfl, hphase, hs⟩ := hpasses.uncons
  obtain ⟨hdrained, horderly⟩ := List.forall_mem_cons.mp horderly
  simp only [Leg.Orderly, hphase] at hdrained
  refine ⟨s.calls, callsIn legs, rfl, hdrained, ?_⟩
  rcases hs with ⟨failure, -, rfl, rfl⟩ | ⟨-, hpasses⟩
  · exact .inl ⟨by simp, rfl⟩
  · right
    obtain ⟨t, legs, rfl, hphase, ht⟩ := hpasses.uncons
    obtain ⟨hloads, horderly⟩ := List.forall_mem_cons.mp horderly
    simp only [Leg.Orderly, hphase] at hloads
    rcases ht with ⟨failure, hfailure, rfl, rfl⟩ | ⟨hfailure, hpasses⟩
    · rw [hfailure] at hloads
      simpa [callsIn] using Brings.fails hloads
    · obtain ⟨u, rfl, hphase, hfailed⟩ := hpasses.of_singleton
      have hstarts : u.Orderly := horderly u (List.mem_singleton_self u)
      simp only [Leg.Orderly, hphase] at hstarts
      rw [hfailure] at hloads
      rw [hfailed]
      simpa [callsIn, hloads.eq_of_true] using Brings.loaded hstarts

/-- Orderly legs make up a series. -/
theorem Journey.Sound.series {j : Journey} (hsound : j.Sound)
    (hlegs : legs.map (·.passage) = j.passages) (horderly : ∀ s ∈ legs, s.Orderly) :
    Series j.failed j.rollbackFailed (callsIn legs) := by
  obtain ⟨there, back, rfl, hthere, hback⟩ := List.map_eq_append_iff.mp hlegs
  obtain ⟨hthere', hback'⟩ := List.forall_mem_append.mp horderly
  have hgo := hsound.there
  have hreturn := hsound.back
  rw [← hthere] at hgo
  rw [← hback] at hreturn
  rw [callsIn_append]
  rcases callsIn_forward_cases hthere' hgo with
    ⟨f, hfailed, hapart, hcalls⟩ | ⟨opening, more, rfl, hopening, -, hpasses⟩
  · rw [hfailed] at hreturn ⊢
    have hway : ∀ phase ∈ f.phase.wayBack, phase.isApart = true := by
      revert hapart
      cases f.phase <;> decide
    rw [hcalls, callsIn_of_isApart hback' hreturn hway, List.append_nil]
    exact .apart _ hapart
  · obtain ⟨drained, tried, hcalls, hdrained, htried⟩ :=
      callsIn_forward (List.forall_mem_append.mp hthere').2 hpasses
    rw [callsIn_append, hopening, hcalls, List.nil_append, List.append_assoc]
    cases hfailed : j.failed with
    | none =>
      rw [hfailed] at hreturn htried
      have hnone : callsIn back = [] := callsIn_of_isApart hback' hreturn (by simp)
      have hrollback : j.rollbackFailed = none := Option.eq_none_iff_forall_ne_some.mpr
        fun g hg => by
          obtain ⟨f, hf, -⟩ := hsound.failed_of_rollbackFailed hg
          rw [hfailed] at hf
          cases hf
      rw [hnone, hrollback, List.append_nil]
      exact .running hdrained (by simpa using htried)
    | some f =>
      rw [hfailed] at hreturn htried hpasses
      have htouches := Phase.touchesRuntime_iff.mpr (hpasses.mem_of_failed rfl)
      refine .back htouches hdrained (htried.imp And.right fun h => h) ?_
      exact callsIn_wayBack hback' htouches hreturn

/-- Before the first call the candidate has been enriched, and the files have been backed up
and persisted. -/
theorem Journey.Sound.callsIn_cases {j : Journey} (hsound : j.Sound)
    (hlegs : legs.map (·.passage) = j.passages) (horderly : ∀ s ∈ legs, s.Orderly) :
    callsIn legs = [] ∨ ∃ opening more, legs = opening ++ more ∧ callsIn opening = [] ∧
      opening.map (·.passage) =
        [{ phase := .enriching }, { phase := .backingUp }, { phase := .persisting }] := by
  have hseries := hsound.series hlegs horderly
  obtain ⟨there, back, rfl, hthere, -⟩ := List.map_eq_append_iff.mp hlegs
  have hgo := hsound.there
  rw [← hthere] at hgo
  rcases callsIn_forward_cases (List.forall_mem_append.mp horderly).1 hgo with
    ⟨f, hfailed, hapart, -⟩ | ⟨opening, more, rfl, hopening, hpassages, -⟩
  · rw [hfailed] at hseries
    exact .inl (hseries.eq_nil hapart)
  · exact .inr ⟨opening, more ++ back, List.append_assoc .., hopening, hpassages⟩

end

/-! ### The start of a series -/

/-- A configuration has been loaded, and then cleared to start. -/
def Prepared (es : List Entry) : Prop :=
  ∃ clearance, Cleared clearance ∧ es = flowLoaded ++ clearance

/-- Where a start that has succeeded cannot be. -/
theorem started_not_mem_flowLoaded : Entry.answered .startProcessing (.ok ()) ∉ flowLoaded := by
  simp [flowLoaded, Request.noted]

namespace Brings

/-- What has been brought to run was loaded and cleared before. -/
theorem preceded (h : Brings ok es) : Preceded Prepared es := by
  cases h with
  | @loaded _ es hstarts =>
    have hloaded : Entry.asked .startProcessing ∉ flowLoaded := by
      simp [flowLoaded, Request.noted]
    have hone : ∀ {clearance : List Entry}, Cleared clearance → OfValidation clearance →
        ∀ answer, Preceded Prepared
          (flowLoaded ++ (clearance ++ Request.startProcessing.noted answer)) := by
      intro clearance hcleared hof answer
      rw [← List.append_assoc]
      refine .of_noted ⟨clearance, hcleared, rfl⟩ ?_ answer
      exact fun hmem => (List.mem_append.mp hmem).elim hloaded (hof.asked_not_mem rfl)
    cases hstarts with
    | done hcleared hof => exact hone hcleared hof _
    | refused fault hcleared hof => exact hone hcleared hof _
    | stays hof =>
      exact .of_not_mem fun hmem => (List.mem_append.mp hmem).elim hloaded (hof.asked_not_mem rfl)
  | fails hloads =>
    cases hloads with
    | fails hof => exact .of_not_mem (hof.asked_not_mem rfl)

/-- What has not been brought to run is not started. -/
theorem not_started (h : Brings false es) : Entry.answered .startProcessing (.ok ()) ∉ es := by
  cases h with
  | @loaded _ es hstarts =>
    have hnot : Entry.answered .startProcessing (.ok ()) ∉ es := by
      cases hstarts with
      | refused fault hcleared hof =>
        refine fun hmem => (List.mem_append.mp hmem).elim (hof.answered_not_mem rfl) ?_
        simp [Request.noted]
      | stays hof => exact hof.answered_not_mem rfl
    exact fun hmem => (List.mem_append.mp hmem).elim started_not_mem_flowLoaded hnot
  | fails hloads =>
    cases hloads with
    | fails hof => exact hof.answered_not_mem rfl

/-- What has been brought to run is started by its last call. -/
theorem started (h : Brings true es) : ∃ clearance, Cleared clearance ∧
    es = flowLoaded ++ (clearance ++ Request.startProcessing.noted (.ok ())) ∧
    Entry.answered .startProcessing (.ok ()) ∉ flowLoaded ++ (clearance ++
      [Entry.asked .startProcessing]) := by
  cases h with
  | loaded hstarts =>
    cases hstarts with
    | @done clearance hcleared hof =>
      refine ⟨clearance, hcleared, rfl, fun hmem => ?_⟩
      rcases List.mem_append.mp hmem with hmem | hmem
      · exact started_not_mem_flowLoaded hmem
      · refine (List.mem_append.mp hmem).elim (hof.answered_not_mem rfl) ?_
        simp

end Brings

namespace Series

variable {failed back : Option PhaseFailure}

/-- Whether an attempt has started the flow: with the candidate, or with what was there
before, if the flow may have been touched. -/
def Runs (failed back : Option PhaseFailure) : Prop :=
  failed = none ∨ (∃ f, failed = some f ∧ f.phase.touchesRuntime = true) ∧ back = none

/-- Wherever a start is asked for, a configuration has been loaded and then cleared. -/
theorem preceded (h : Series failed back es) : Preceded Prepared es := by
  have hdrained : ∀ {l : List Entry}, OfCalls Request.isDrain l → Preceded Prepared l :=
    fun hof => .of_not_mem (hof.asked_not_mem rfl)
  cases h with
  | apart => exact Cumulative.nil
  | running hof hbrought => exact Cumulative.append (hdrained hof) hbrought.preceded
  | back _ hof htried hrestored =>
    refine Cumulative.append (hdrained hof) (Cumulative.append ?_ ?_)
    · rcases htried with rfl | htried
      · exact Cumulative.nil
      · exact htried.preceded
    · rcases hrestored with ⟨-, rfl⟩ | hrestored
      · exact Cumulative.nil
      · exact hrestored.preceded

theorem not_started (h : Series failed back es) (hruns : ¬ Runs failed back) :
    Entry.answered .startProcessing (.ok ()) ∉ es := by
  cases h with
  | apart => simp
  | running => exact absurd (.inl rfl) hruns
  | @back f back _ _ _ htouches hof htried hrestored =>
    have hback : back ≠ none := fun hback => hruns (.inr ⟨⟨f, rfl, htouches⟩, hback⟩)
    simp only [List.mem_append, not_or]
    refine ⟨hof.answered_not_mem rfl, ?_, ?_⟩
    · rcases htried with rfl | htried
      · simp
      · exact htried.not_started
    · rcases hrestored with ⟨-, rfl⟩ | hrestored
      · simp
      · cases back with
        | none => exact absurd rfl hback
        | some _ => exact hrestored.not_started

/-- The flow is started once, by the last call, with what was loaded and cleared just
before. -/
theorem started (h : Series failed back es) (hruns : Runs failed back) :
    ∃ earlier clearance, Cleared clearance ∧
      es = earlier ++ (flowLoaded ++ (clearance ++ Request.startProcessing.noted (.ok ()))) ∧
      Entry.answered .startProcessing (.ok ()) ∉ earlier ++ (flowLoaded ++ (clearance ++
        [Entry.asked .startProcessing])) := by
  have hlast : ∀ {earlier last : List Entry}, Brings true last →
      Entry.answered .startProcessing (.ok ()) ∉ earlier →
      ∃ clearance, Cleared clearance ∧ earlier ++ last =
        earlier ++ (flowLoaded ++ (clearance ++ Request.startProcessing.noted (.ok ()))) ∧
        Entry.answered .startProcessing (.ok ()) ∉ earlier ++ (flowLoaded ++ (clearance ++
          [Entry.asked .startProcessing])) := by
    intro earlier last hbrought hnot
    obtain ⟨clearance, hcleared, rfl, hstarted⟩ := hbrought.started
    exact ⟨clearance, hcleared, rfl, fun hmem => (List.mem_append.mp hmem).elim hnot hstarted⟩
  cases h with
  | apart back hapart =>
    rcases hruns with hnone | ⟨⟨f, hf, htouches⟩, -⟩
    · cases hnone
    · obtain rfl := Option.some.inj hf
      rw [hapart] at htouches
      cases htouches
  | @running drained brought hof hbrought => exact ⟨drained, hlast hbrought (hof.answered_not_mem rfl)⟩
  | @back f back drained tried restored _ hof htried hrestored =>
    obtain rfl : back = none := by
      rcases hruns with hnone | ⟨-, hback⟩
      · cases hnone
      · exact hback
    have hbrought : Brings true restored := by simpa using hrestored
    refine ⟨drained ++ tried, ?_⟩
    rw [← List.append_assoc]
    refine hlast hbrought fun hmem => ?_
    rcases List.mem_append.mp hmem with hmem | hmem
    · exact hof.answered_not_mem rfl hmem
    · rcases htried with rfl | htried
      · cases hmem
      · exact htried.not_started hmem

/-- Whether the flow has been started can be told from how the attempt has ended. -/
theorem started_mem_iff (h : Series failed back es) :
    Entry.answered .startProcessing (.ok ()) ∈ es ↔ Runs failed back := by
  refine ⟨fun hmem => by_contra fun hruns => h.not_started hruns hmem, fun hruns => ?_⟩
  obtain ⟨earlier, clearance, -, rfl, -⟩ := h.started hruns
  simp [Request.noted]

end Series

end HotSwap
