/-
How a drain takes leave of the remote endpoints.

Every endpoint is asked to stop, once and in order, before any of them is waited for.
Whoever takes the request is waited for once, whatever came of the others.  The report names
those that did not take it, and then those that were waited for in vain.

* `Drain.Farewell`, `Drain.Wait` — what came of asking an endpoint, and of waiting for it;
* `Drain.AccountsFor` — the journal and the report of a drain, by these;
* `Attended.drain_accountsFor` — so it is, if the identifiers of endpoints can be read;
* `Attended.drain_asksAll` — and what there is to say if they cannot.

Design notes: an endpoint may give another identifier each time it is asked for one.  A
farewell has the identifier with which the endpoint was waited for or reported, which is one
that it has given.
-/
import HotSwap.Proofs.Drainage

namespace HotSwap

open Act

variable {σ : Type} {w : World σ}

/-! ### Requests and answers -/

namespace Request

/-- Whether a request asks an endpoint to stop. -/
def stopsEndpoint : Request → Bool
  | .stopTransmitting _ => true
  | _ => false

/-- Whether a request asks an endpoint to stop, or waits for one. -/
def ofTransmission : Request → Bool
  | .stopTransmitting _ | .awaitStop .. => true
  | _ => false

/-- Whether a request tells that an endpoint has not stopped in time. -/
def tellsTimeout : Request → Bool
  | .publish (.transmissionStopTimedOut ..) => true
  | _ => false

/-- The endpoints that the host has listed. -/
def endpoints? : (r : Request) → Except Fault r.Answer → Option (List Endpoint)
  | .remoteEndpoints, .ok es => some es
  | _, _ => none

/-- What came of asking an endpoint to stop. -/
def parting? : (r : Request) → Except Fault r.Answer → Option (Endpoint × Except Fault Transmission)
  | .stopTransmitting e, answer => some (e, answer)
  | _, _ => none

/-- What came of waiting for an endpoint. -/
def wait? : (r : Request) → Except Fault r.Answer → Option (Transmission × Except Fault Unit)
  | .awaitStop t _, answer => some (t, answer)
  | _, _ => none

/-- An endpoint of which the identifier could not be read, and why. -/
def unread? : (r : Request) → Except Fault r.Answer → Option (Endpoint × Fault)
  | .endpointIdentifier e, .error fault => some (e, fault)
  | _, _ => none

end Request

namespace Drain

/-- What came of asking an endpoint to stop; its name is an identifier that it has given. -/
structure Farewell where
  endpoint : Endpoint
  name : String
  answer : Except Fault Transmission

/-- The endpoint as it is waited for, if it has taken the request. -/
def Farewell.stopping? (f : Farewell) : Option Stopping :=
  match f.answer with
  | .ok transmission => some { endpointId := f.name, transmission }
  | .error _ => none

/-- The journal and the report of a drain, by the farewells and the waits for those who have
taken the request. -/
structure AccountsFor (timeout : Float) (es : List Entry) (report : DrainReport)
    (farewells : List Farewell) (waits : List Wait) : Prop where
  /-- The farewells are those to the endpoints that the host has listed. -/
  listed : ∀ endpoints, Entry.answered .remoteEndpoints (.ok endpoints) ∈ es →
    farewells.map Farewell.endpoint = endpoints
  named : ∀ f ∈ farewells, Entry.answered (.endpointIdentifier f.endpoint) (.ok f.name) ∈ es
  /-- Each endpoint is asked once, and then each that is to be waited for is waited for once. -/
  requests : requestsOf Request.ofTransmission es =
    farewells.map (fun f => .stopTransmitting f.endpoint) ++
    waits.map fun w => .awaitStop w.stopping.transmission timeout
  answered : answersOf Request.parting? es = farewells.map fun f => (f.endpoint, f.answer)
  awaited : waits.map Wait.stopping = farewells.filterMap Farewell.stopping?
  waited : answersOf Request.wait? es = waits.map fun w => (w.stopping.transmission, w.answer)
  /-- Whoever did not take the request is reported, and whoever was waited for in vain. -/
  left : report.endpointsTimedOut =
    (farewells.filter fun f => !f.answer.isOk).map Farewell.name ++
    (waits.filter fun w => !w.answer.isOk).map fun w => w.stopping.endpointId
  /-- The observers are told of those, and of no others, for whom the time was over. -/
  told : requestsOf Request.tellsTimeout es = (waits.filter Wait.timedOut).map fun w =>
    .publish (.transmissionStopTimedOut w.stopping.endpointId timeout)

/-! ### Farewells -/

namespace Parting

/-- The farewell, if the endpoint was asked to stop. -/
def farewell? : Parting → Option Farewell
  | taken endpoint name t => some { endpoint, name, answer := .ok t }
  | refused endpoint _ _ name fault => some { endpoint, name, answer := .error fault }
  | unread .. => none

/-- The failure to read the identifier that kept the endpoint from being asked. -/
def unread? : Parting → Option (Endpoint × Fault)
  | unread e fault .. => some (e, fault)
  | _ => none

theorem farewell?_eq_none_iff {p : Parting} : p.farewell? = none ↔ p.unread?.isSome = true := by
  cases p <;> simp [farewell?, unread?]

/-- The farewells of partings. -/
abbrev farewells (ps : List Parting) : List Farewell := ps.filterMap farewell?

theorem stopping?_farewells (ps : List Parting) :
    (farewells ps).filterMap Farewell.stopping? = ps.filterMap stopping? := by
  rw [List.filterMap_filterMap]
  refine List.filterMap_congr fun p _ => ?_
  cases p <;> rfl

section

variable {ps : List Parting} (h : ∀ p ∈ ps, p.unread? = none)

include h

/-- Where every endpoint was asked, there is a farewell to each. -/
theorem endpoint_farewells : (farewells ps).map Farewell.endpoint = ps.map endpoint := by
  induction ps with
  | nil => rfl
  | cons p ps ih =>
    have hp := h p (List.mem_cons_self ..)
    have hps := ih fun p' hp' => h p' (List.mem_cons_of_mem _ hp')
    cases p with
    | taken e => exact congrArg (e :: ·) hps
    | refused e => exact congrArg (e :: ·) hps
    | unread => cases hp

theorem refusal?_farewells : ((farewells ps).filter fun f => !f.answer.isOk).map Farewell.name =
    ps.filterMap refusal? := by
  induction ps with
  | nil => rfl
  | cons p ps ih =>
    have hp := h p (List.mem_cons_self ..)
    have hps := ih fun p' hp' => h p' (List.mem_cons_of_mem _ hp')
    cases p with
    | taken => exact hps
    | refused _ _ _ name => exact congrArg (name :: ·) hps
    | unread => cases hp

end

/-- Not every endpoint was asked where there are fewer farewells. -/
theorem unread?_of_length {ps : List Parting} (h : (farewells ps).length = ps.length) :
    ∀ p ∈ ps, p.unread? = none := by
  intro p hp
  by_contra hne
  have hnone : p.farewell? = none := farewell?_eq_none_iff.mpr (Option.isSome_iff_ne_none.mpr hne)
  exact absurd h (Nat.ne_of_lt (List.length_filterMap_lt_length_iff_exists.mpr ⟨p, hp, hnone⟩))

end Parting

namespace Silencing

variable {β : Type} (s : Silencing) (timeout : Float)

section

variable {f : Entry → Option β} {F : Parting → Option β} {G : Wait → Option β}
  (hF : ∀ p, p.entries.filterMap f = (F p).toList)
  (hG : ∀ w, (w.entries timeout).filterMap f = (G w).toList)

include hF hG

/-- What is read off the listing, and off each parting and each wait for itself. -/
theorem filterMap_parts : (s.entries timeout).filterMap f =
    (Request.remoteEndpoints.noted s.listing).filterMap f ++
      (s.partings.filterMap F ++ s.waits.filterMap G) := by
  rw [entries, List.filterMap_append, List.filterMap_append, List.filterMap_flatMap,
    List.filterMap_flatMap, List.filterMap_eq_flatMap_toList (f := F),
    List.filterMap_eq_flatMap_toList (f := G), List.flatMap_congr fun p _ => hF p,
    List.flatMap_congr fun w _ => hG w]

theorem filterMap_entries (hlisting : (Request.remoteEndpoints.noted s.listing).filterMap f = []) :
    (s.entries timeout).filterMap f = s.partings.filterMap F ++ s.waits.filterMap G := by
  rw [s.filterMap_parts timeout hF hG, hlisting, List.nil_append]

end

/-- What is read off the farewells only. -/
theorem filterMap_farewells {f : Entry → Option β} {g : Farewell → β}
    (hlisting : (Request.remoteEndpoints.noted s.listing).filterMap f = [])
    (hg : ∀ p : Parting, p.entries.filterMap f = (p.farewell?.map g).toList)
    (hnone : ∀ w : Wait, (w.entries timeout).filterMap f = []) :
    (s.entries timeout).filterMap f = (Parting.farewells s.partings).map g := by
  rw [s.filterMap_entries timeout hg (G := fun _ => none) hnone hlisting, List.map_filterMap]
  simp

theorem requests_read : requestsOf Request.ofTransmission (s.entries timeout) =
    (Parting.farewells s.partings).map (fun f => .stopTransmitting f.endpoint) ++
    s.waits.map fun w => .awaitStop w.stopping.transmission timeout := by
  have hwait : ∀ w : Wait, requestsOf Request.ofTransmission (w.entries timeout) =
      [.awaitStop w.stopping.transmission timeout] := fun w => by
    rw [requestsOf, Wait.entries]
    split <;> rfl
  refine (s.filterMap_entries timeout
    (F := fun p => p.farewell?.map fun f => .stopTransmitting f.endpoint)
    (G := fun w => some (.awaitStop w.stopping.transmission timeout))
    (fun p => by cases p <;> rfl) hwait rfl).trans ?_
  rw [List.map_filterMap, ← List.filterMap_eq_map]
  rfl

theorem asked_read : requestsOf Request.stopsEndpoint (s.entries timeout) =
    (Parting.farewells s.partings).map fun f => .stopTransmitting f.endpoint :=
  s.filterMap_farewells timeout rfl (fun p => by cases p <;> rfl) fun w => by
    rw [Wait.entries]
    split <;> rfl

theorem answers_read : answersOf Request.parting? (s.entries timeout) =
    (Parting.farewells s.partings).map fun f => (f.endpoint, f.answer) :=
  s.filterMap_farewells timeout rfl (fun p => by cases p <;> rfl) fun w => by
    rw [Wait.entries]
    split <;> rfl

theorem waited_read : answersOf Request.wait? (s.entries timeout) =
    s.waits.map fun w => (w.stopping.transmission, w.answer) := by
  have hwait : ∀ w : Wait, answersOf Request.wait? (w.entries timeout) =
      [(w.stopping.transmission, w.answer)] := fun w => by
    rw [answersOf, Wait.entries]
    split <;> rfl
  refine (s.filterMap_entries timeout (F := fun _ => none)
    (G := fun w => some (w.stopping.transmission, w.answer))
    (fun p => by cases p <;> rfl) hwait rfl).trans ?_
  rw [← List.filterMap_eq_map]
  simp

theorem told_read : requestsOf Request.tellsTimeout (s.entries timeout) =
    (s.waits.filter Wait.timedOut).map fun w =>
      .publish (.transmissionStopTimedOut w.stopping.endpointId timeout) := by
  let event : Wait → Request := fun w =>
    .publish (.transmissionStopTimedOut w.stopping.endpointId timeout)
  have hwait : ∀ w : Wait, requestsOf Request.tellsTimeout (w.entries timeout) =
      (if w.timedOut then some (event w) else none).toList := fun w => by
    rw [requestsOf, Wait.entries]
    split <;> rfl
  refine (s.filterMap_entries timeout (F := fun _ => none) (fun p => by cases p <;> rfl) hwait
    rfl).trans ?_
  rw [← List.filterMap_eq_map, List.filterMap_filter]
  simp [event]

theorem unread_read : answersOf Request.unread? (s.entries timeout) =
    s.partings.filterMap Parting.unread? := by
  have hwait : ∀ w : Wait, answersOf Request.unread? (w.entries timeout) = [] := fun w => by
    rw [answersOf, Wait.entries]
    split <;> rfl
  refine (s.filterMap_entries timeout (F := Parting.unread?) (G := fun _ => none)
    (fun p => by cases p <;> rfl) hwait rfl).trans ?_
  simp

/-- The endpoints that the host has listed are those of the partings. -/
theorem endpoint_of_mem {endpoints : List Endpoint}
    (h : endpoints ∈ answersOf Request.endpoints? (s.entries timeout)) :
    s.partings.map Parting.endpoint = endpoints := by
  have hwait : ∀ w : Wait, answersOf Request.endpoints? (w.entries timeout) = [] := fun w => by
    rw [answersOf, Wait.entries]
    split <;> rfl
  rw [answersOf, s.filterMap_parts timeout (F := fun _ => none) (G := fun _ => none)
    (fun p => by cases p <;> rfl) hwait, List.filterMap_none, List.filterMap_none,
    List.append_nil, List.append_nil] at h
  cases s with
  | unlisted fault => cases h
  | listed partings waits => exact (List.mem_singleton.mp h).symm

/-- The name of a farewell is an identifier that the endpoint has given. -/
theorem named_mem {f : Farewell} (hf : f ∈ Parting.farewells s.partings) :
    Entry.answered (.endpointIdentifier f.endpoint) (.ok f.name) ∈ s.entries timeout := by
  obtain ⟨p, hp, hfarewell⟩ := List.mem_filterMap.mp hf
  refine List.mem_append_right _ (List.mem_append_left _ (List.mem_flatMap.mpr ⟨p, hp, ?_⟩))
  cases p with
  | taken | refused =>
    obtain rfl := Option.some.inj hfarewell
    simp [Parting.entries, Request.noted]
  | unread => cases hfarewell

end Silencing

/-! ### Drains -/

namespace Account

variable {U : Endpoint → Fault → Prop} {budget : Budget} {c : Account} {report : DrainReport}
  {es : List Entry} {polls : Nat} {timeout : Float}

namespace ShownIn

variable (h : c.ShownIn es polls timeout) (hintake : c.intake.Sound)

include h hintake

theorem requests_eq {kind : Request → Bool}
    (hkind : ∀ r, r.stage ≠ some .endpoints → kind r = false) :
    requestsOf kind es = requestsOf kind (c.silencing.entries timeout) :=
  h.filterMap_endpoints hintake (onlyAbout_requestIn hkind)

theorem answers_eq {β : Type} {f : (r : Request) → Except Fault r.Answer → Option β}
    (hf : ∀ r, r.stage ≠ some .endpoints → ∀ answer, f r answer = none) :
    answersOf f es = answersOf f (c.silencing.entries timeout) :=
  h.filterMap_endpoints hintake (onlyAbout_answerIn hf)

omit hintake in
theorem mem_of_mem {e : Entry} (he : e ∈ c.silencing.entries timeout) : e ∈ es := by
  have hmem : e ∈ es.filter Entry.drains := by
    rw [h]
    exact List.mem_append_right _ (List.mem_append_right _ (List.mem_append_right _ he))
  exact (List.mem_filter.mp hmem).1

theorem endpoint_eq {endpoints : List Endpoint}
    (hlisted : Entry.answered .remoteEndpoints (.ok endpoints) ∈ es) :
    c.silencing.partings.map Parting.endpoint = endpoints := by
  have hmem : endpoints ∈ answersOf Request.endpoints? es :=
    List.mem_filterMap.mpr ⟨_, hlisted, rfl⟩
  rw [h.answers_eq hintake fun r hr _ => by cases r <;> first | rfl | exact absurd rfl hr] at hmem
  exact c.silencing.endpoint_of_mem timeout hmem

theorem unread_iff : (∀ e fault, Entry.answered (.endpointIdentifier e) (.error fault) ∉ es) ↔
    ∀ p ∈ c.silencing.partings, p.unread? = none := by
  have hread : answersOf Request.unread? es = c.silencing.partings.filterMap Parting.unread? :=
    (h.answers_eq hintake fun r hr _ => by cases r <;> first | rfl | exact absurd rfl hr).trans
      (c.silencing.unread_read timeout)
  rw [← List.filterMap_eq_nil_iff, ← hread, List.filterMap_eq_nil_iff]
  constructor
  · intro hnone e he
    cases e with
    | answered r answer =>
      cases r with
      | endpointIdentifier endpoint =>
        cases answer with
        | ok _ => rfl
        | error fault => exact absurd he (hnone endpoint fault)
      | _ => rfl
    | _ => rfl
  · intro hnone e fault hmem
    cases hnone _ hmem

end ShownIn

/-- Where the identifiers of endpoints can be read, the report accounts for all of them. -/
theorem Makes.accountsFor (hc : c.Makes (fun _ _ => False) budget report)
    (h : c.ShownIn es polls timeout) :
    AccountsFor timeout es report (Parting.farewells c.silencing.partings) c.silencing.waits := by
  have hread : ∀ p ∈ c.silencing.partings, p.unread? = none := fun p hp => by
    have hsound := hc.silencing.partings p hp
    cases p <;> first | rfl | exact hsound.elim
  refine ⟨fun endpoints hlisted => ?_, fun f hf => ?_, ?_, ?_, ?_, ?_, ?_, ?_⟩
  · rw [Parting.endpoint_farewells hread]
    exact h.endpoint_eq hc.intake hlisted
  · refine h.mem_of_mem ?_
    exact c.silencing.named_mem timeout hf
  · exact (h.requests_eq hc.intake fun r hr => by
      cases r <;> first | rfl | exact absurd rfl hr).trans (c.silencing.requests_read timeout)
  · exact (h.answers_eq hc.intake fun r hr _ => by
      cases r <;> first | rfl | exact absurd rfl hr).trans (c.silencing.answers_read timeout)
  · rw [Parting.stopping?_farewells]
    exact hc.silencing.waits
  · exact (h.answers_eq hc.intake fun r hr _ => by
      cases r <;> first | rfl | exact absurd rfl hr).trans (c.silencing.waited_read timeout)
  · rw [Parting.refusal?_farewells hread]
    exact hc.endpointsTimedOut
  · refine (h.requests_eq hc.intake fun r hr => ?_).trans (c.silencing.told_read timeout)
    cases r with
    | publish event => cases event <;> first | rfl | exact absurd rfl hr
    | _ => rfl

/-- Every endpoint that was listed was asked to stop if and only if no reading of an identifier
has failed. -/
theorem Makes.asksAll (hc : c.Makes U budget report) (h : c.ShownIn es polls timeout)
    {endpoints : List Endpoint} (hlisted : Entry.answered .remoteEndpoints (.ok endpoints) ∈ es) :
    requestsOf Request.stopsEndpoint es = endpoints.map .stopTransmitting ↔
      ∀ e fault, Entry.answered (.endpointIdentifier e) (.error fault) ∉ es := by
  have hasked : requestsOf Request.stopsEndpoint es =
      (Parting.farewells c.silencing.partings).map fun f => .stopTransmitting f.endpoint :=
    (h.requests_eq hc.intake fun r hr => by cases r <;> first | rfl | exact absurd rfl hr).trans
      (c.silencing.asked_read timeout)
  have hendpoints := h.endpoint_eq hc.intake hlisted
  rw [h.unread_iff hc.intake, hasked, ← hendpoints]
  constructor
  · intro heq
    refine Parting.unread?_of_length ?_
    simpa using congrArg List.length heq
  · intro hread
    rw [← Parting.endpoint_farewells hread, List.map_map]
    rfl

end Account

end Drain

/-- Where the identifiers of endpoints can be read, a drain asks each of them to stop, waits for
each that takes the request, and reports exactly those that did not stop. -/
theorem Attended.drain_accountsFor {console : Link σ → Command → Act σ Reply}
    (hw : Attended console w) {h : Host σ} (hh : h.Legible) (depth : Nat) (plan : DrainPlan)
    (listens : Bool) :
    (drain (h.link console depth) plan listens).Ends w
      (fun report w' => ∃ farewells waits,
        Drain.AccountsFor plan.stopTimeout (w.since w') report farewells waits)
      fun _ _ => False := by
  refine (hw.ends_drain_legible hh depth plan listens).mono ?_ fun _ _ he => he
  rintro report w' ⟨-, c, hc, hshown⟩
  exact ⟨_, _, hc.accountsFor hshown⟩

namespace Sample

/-- A host with three endpoints, of which one refuses to stop and another one takes too long;
its observers do not want to hear of that. -/
def lingering : Host Nat :=
  { Host.plain (fun _ => none) fun _ _ => none with
    reply := fun r s => match r with
      | .remoteEndpoints =>
        .done (.ok ([{ index := 0 }, { index := 1 }, { index := 2 }] : List Endpoint)) s
      | .endpointIdentifier e => .done (.ok (toString e.index)) s
      | .stopTransmitting e =>
        .done (if e.index = 1 then .error (.raised "RuntimeError" "")
          else .ok ({ index := e.index } : Transmission)) s
      | .awaitStop t _ =>
        .done (if t.index = 0 then .error (.raised "TimeoutError" "") else .ok ()) s
      | .publish _ => .done (.error (.raised "RuntimeError" "")) s
      | r => .done (.ok r.plainAnswer) s }

/-- The end of its drain. -/
def waited : Except Fault DrainReport × World Nat :=
  (drain (lingering.link tokenConsole 0) plan.drain true).run world

theorem waited_eq : (drain (lingering.link tokenConsole 0) plan.drain true).run world = waited :=
  rfl

theorem legible_lingering : lingering.Legible := by
  intro r s
  cases r with
  | stopTransmitting e =>
    refine fun fault he => ?_
    by_cases hindex : e.index = 1
    · rw [if_pos hindex] at he
      cases he
      exact ⟨rfl, by simp⟩
    · rw [if_neg hindex] at he
      cases he
  | awaitStop t timeout =>
    refine fun fault he => ?_
    by_cases hindex : t.index = 0
    · rw [if_pos hindex] at he
      cases he
      exact ⟨rfl, by simp⟩
    · rw [if_neg hindex] at he
      cases he
  | publish event =>
    refine fun e he => ?_
    cases he
    exact ⟨rfl, by simp⟩
  | _ => exact fun e he => by cases he

end Sample

attribute [local irreducible] Act.Ends Sample.waited in
/-- The one that refused is reported first. -/
theorem Attended.drain_accountsFor_lingering :
    Attended tokenConsole Sample.world ∧ Sample.lingering.Legible ∧
    ∃ report, Sample.waited.1 = .ok report ∧ report.endpointsTimedOut = ["1", "0"] ∧
      ∃ farewells waits, Drain.AccountsFor Sample.plan.drain.stopTimeout
        (Sample.world.since Sample.waited.2) report farewells waits := by
  have hreport : Sample.waited.1 = .ok
      { graceful := true, polls := 1, endpointsTimedOut := ["1", "0"] } := by decide +kernel
  exact ⟨.token _, Sample.legible_lingering, _, hreport, rfl,
    (Attended.drain_accountsFor (.token _) Sample.legible_lingering 0 _ true).ok
      (Sample.waited_eq.trans (Prod.ext hreport rfl))⟩

/-- Whatever ordinary faults there are, a drain that ends with a report has asked every endpoint
to stop, unless some identifier could not be read; and only such a failure ends a drain
without a report. -/
theorem Attended.drain_asksAll {console : Link σ → Command → Act σ Reply}
    (hw : Attended console w) {h : Host σ} (hh : h.Raises fun _ e => e.interrupts = false)
    (depth : Nat) (plan : DrainPlan) (listens : Bool) :
    (drain (h.link console depth) plan listens).Ends w
      (fun _ w' => ∀ endpoints, Entry.answered .remoteEndpoints (.ok endpoints) ∈ w.since w' →
        (Drain.requestsOf Request.stopsEndpoint (w.since w') = endpoints.map .stopTransmitting ↔
          ∀ e fault, Entry.answered (.endpointIdentifier e) (.error fault) ∉ w.since w'))
      fun fault w' => ∃ e, Entry.answered (.endpointIdentifier e) (.error fault) ∈ w.since w' := by
  refine (hw.ends_drain hh (fun _ _ he => he) depth plan listens).mono ?_ ?_
  · rintro report w' ⟨-, c, hc, hshown⟩ endpoints hlisted
    exact hc.asksAll hshown hlisted
  · rintro fault w' ⟨e, -, hmem⟩
    exact ⟨e, hmem⟩

namespace Sample

/-- A host with two endpoints that refuse to stop, and which gives an identifier only once. -/
def evasive : Host Nat :=
  { Host.plain (fun _ => none) fun _ _ => none with
    reply := fun r s => match r with
      | .remoteEndpoints => .done (.ok ([{ index := 0 }, { index := 1 }] : List Endpoint)) s
      | .endpointIdentifier _ =>
        .done (if s.host = 0 then .ok "" else .error (.raised "RuntimeError" ""))
          { s with host := 1 }
      | .stopTransmitting _ => .done (.error (.raised "RuntimeError" "")) s
      | r => .done (.ok r.plainAnswer) s }

/-- The end of its drain. -/
def evaded : Except Fault DrainReport × World Nat :=
  (drain (evasive.link tokenConsole 0) plan.drain true).run world

theorem evaded_eq : (drain (evasive.link tokenConsole 0) plan.drain true).run world = evaded := rfl

theorem evasive_raises : evasive.Raises fun _ e => e.interrupts = false := by
  intro r s
  cases r with
  | endpointIdentifier e =>
    refine fun fault he => ?_
    by_cases hread : s.host = 0
    · rw [if_pos hread] at he
      cases he
    · rw [if_neg hread] at he
      cases he
      rfl
  | stopTransmitting e =>
    refine fun e he => ?_
    cases he
    rfl
  | _ => exact fun e he => by cases he

end Sample

attribute [local irreducible] Act.Ends Sample.evaded in
/-- The drain raises the fault, and the second endpoint is not asked to stop. -/
theorem Attended.drain_asksAll_evasive :
    Attended tokenConsole Sample.world ∧
    Sample.evasive.Raises (fun _ e => e.interrupts = false) ∧
    Sample.evaded.1 = .error (.raised "RuntimeError" "") ∧
    ((Drain.requestsOf Request.stopsEndpoint (Sample.world.since Sample.evaded.2)).length = 1) ∧
    ∃ e, Entry.answered (.endpointIdentifier e) (.error (.raised "RuntimeError" "")) ∈
      Sample.world.since Sample.evaded.2 := by
  have hfault : Sample.evaded.1 = .error (.raised "RuntimeError" "") := by decide +kernel
  exact ⟨.token _, Sample.evasive_raises, hfault, by decide +kernel,
    (Attended.drain_asksAll (.token _) Sample.evasive_raises 0 _ true).error
      (Sample.evaded_eq.trans (Prod.ext hfault rfl))⟩

end HotSwap
