/-
Candidates that were submitted.

A candidate that was submitted waits until the worker takes it, and the worker takes one at a
time.  Then its update is a call among others, and asks for the same desk as they do: it is
never refused because of another candidate that was submitted, but it does not wait for
calls from elsewhere.

* `Updater.work_turnedAway` — what the worker takes while an attempt is running is refused;
* `Reception` — all calls so far, with who has made them;
* `Reception.Step` — what can happen next;
* `Reception.Orderly` — the worker makes one call at a time, and if one of them was refused,
  then somebody else has called as well;
* `Reception.orderly` — this is so however calls take turns;
* `Updater.work_fetches` — the worker goes through such steps.

Design notes: a step of a reception is one of the calls without their callers, but that the
worker calls only if it has no other call under way.  So whatever is known of `Traffic` holds
here as well (`Reception.Reaches.traffic`).
-/
import HotSwap.Proofs.Traffic

namespace HotSwap

open Act

variable {σ : Type} {link : Link σ} {plan : UpdatePlan}

/-! ### At a desk that is taken -/

namespace Updater

/-- The world after the worker has taken a candidate; the others still wait. -/
def fetched (rest : List Bytes) (w : World σ) : World σ :=
  { w with desk := { w.desk with waiting := rest } }

/-- The update with a candidate was refused: its report says that another one was running, or
the host broke off when it was told that. -/
def TurnedAway (E : Request → Fault → Prop) (raw : Bytes) : Except Fault UpdateReport → Prop
  | .ok report => report.Busy ∧ report.candidateDigest = Text.hex (Codec.sha256 raw)
  | .error e => e.interrupts = true ∧ ∃ r : Request, r.concludes ∧ E r e

section

variable {w : World σ} {raw : Bytes} {rest : List Bytes}
  (hwaiting : w.desk.waiting = raw :: rest)

include hwaiting

/-- The worker takes the candidate that has waited longest, and has its update done. -/
theorem run_work : (work link plan).run w =
    (.ok (some ((apply link plan raw).run (fetched rest w)).1),
      ((apply link plan raw).run (fetched rest w)).2) := by
  have hends : ∀ {P : Option (Except Fault UpdateReport) → World σ → Prop}
      {E : Fault → World σ → Prop}, (work link plan).Ends w P E →
      (apply link plan raw).Ends (fetched rest w) (fun report => P (some (.ok report)))
        fun e => P (some (.error e)) := by
    intro P E h
    rw [work, ends_bind, ends_desk, hwaiting] at h
    dsimp only at h
    rw [ends_bind, ends_changeDesk, ends_bind, ends_outcome] at h
    exact h
  exact Ends.run (Q := fun outcome w' => (work link plan).run w = (.ok (some outcome), w'))
    (hends (ends_run _ w))

/-- While an attempt is running the worker does not wait: the candidate that it takes is refused,
and the attempt goes on. -/
theorem work_turnedAway {h : Host σ} {E : Request → Fault → Prop} (hraises : h.Raises E)
    (plan : UpdatePlan) (depth : Nat) (hbusy : w.desk.engaged = true) :
    ∃ outcome w', (work (h.link (console plan) depth) plan).run w = (.ok (some outcome), w') ∧
      TurnedAway E raw outcome ∧ w'.desk.engaged = true := by
  refine ⟨_, _, run_work hwaiting, Ends.run (Q := fun outcome w' => TurnedAway E raw outcome ∧
    w'.desk.engaged = true) ?_⟩
  have htaken : (fetched rest w).desk.engaged = true := hbusy
  refine (ends_apply_busy h.leaves_nothing hraises (h.orders_any _) plan depth raw htaken).mono
    ?_ fun e w' he => ⟨he.1, he.2.engaged⟩
  rintro report w' ⟨⟨completedAt, rfl⟩, hinterlude⟩
  exact ⟨⟨Attempt.busy_report _ none completedAt, rfl⟩, hinterlude.engaged⟩

end

end Updater

/-! ### What becomes of calls -/

/-- Whether a call was refused. -/
def Flight.isRefused : Flight → Bool
  | .refused _ | .sentAway _ => true
  | _ => false

/-- What becomes of a call in one step, with the desk taken or not. -/
inductive Flight.Goes (engaged : Bool) : Flight → Flight → Prop
  | stay (flight : Flight) : Goes engaged flight flight
  | take (a : Attempt) : Goes engaged (.arrived a) (.holding a)
  | refuse (a : Attempt) (h : engaged = true) : Goes engaged (.arrived a) (.refused a)
  | leave (a : Attempt) (result : Except Fault UpdateReport) :
      Goes engaged (.holding a) (.left result)
  | sendAway (a : Attempt) (result : Except Fault UpdateReport) :
      Goes engaged (.refused a) (.sentAway result)

/-- A call goes on, and the others stay as they are. -/
theorem Flight.Goes.among {engaged : Bool} {flight flight' : Flight}
    (h : flight.Goes engaged flight') (before after : List Flight) :
    List.Forall₂ (Flight.Goes engaged) (before ++ flight :: after) (before ++ flight' :: after) :=
  List.rel_append (List.forall₂_same.mpr fun _ _ => .stay _)
    (.cons h (List.forall₂_same.mpr fun _ _ => .stay _))

namespace Traffic

variable {t t' : Traffic σ}

/-- What becomes of the calls in a step in which none arrives. -/
theorem Step.goes (h : Step link t t') (hlength : t'.flights.length = t.flights.length) :
    List.Forall₂ (Flight.Goes t.world.desk.engaged) t.flights t'.flights := by
  cases h with
  | arrive w flights raw => simp at hlength
  | take before a after _ => exact (Flight.Goes.take a).among before after
  | refuse before a after hbusy => exact (Flight.Goes.refuse a hbusy).among before after
  | work before a after _ => exact (Flight.Goes.stay _).among before after
  | aside flights _ => exact List.forall₂_same.mpr fun _ _ => .stay _
  | leave w before a after result => exact (Flight.Goes.leave a result).among before after
  | sendAway w before a after _ => exact (Flight.Goes.sendAway a _).among before after

theorem Step.length_le (h : Step link t t') : t.flights.length ≤ t'.flights.length := by
  cases h <;> simp

theorem Reaches.length_le (h : Reaches link t t') : t.flights.length ≤ t'.flights.length := by
  induction h with
  | refl => exact Nat.le_refl _
  | tail _ hstep ih => exact Nat.le_trans ih hstep.length_le

end Traffic

/-! ### Receptions -/

/-- Who has made a call. -/
inductive Caller where
  /-- The worker, with a candidate that was submitted. -/
  | worker
  /-- Anybody else. -/
  | other
deriving DecidableEq

/-- All calls so far with who has made them, the oldest first, and the world that they share. -/
structure Reception (σ : Type) where
  world : World σ
  calls : List (Caller × Flight)

namespace Reception

/-- The calls, whoever has made them. -/
def traffic (t : Reception σ) : Traffic σ := ⟨t.world, t.calls.map Prod.snd⟩

/-- Whether a call keeps the worker from taking another candidate. -/
def occupies (call : Caller × Flight) : Bool := call.1 == .worker && call.2.result?.isNone

/-- What can happen next. -/
inductive Step (link : Link σ) : Reception σ → Reception σ → Prop
  /-- Somebody calls. -/
  | call (w : World σ) (calls : List (Caller × Flight)) (raw : Bytes) :
      Step link ⟨w, calls⟩ ⟨Updater.afterStart link w,
        calls ++ [(.other, .arrived (Updater.newAttempt link raw w))]⟩
  /-- The worker is idle, takes the candidate that has waited longest, and calls. -/
  | fetch {w : World σ} (calls : List (Caller × Flight)) {raw : Bytes} {rest : List Bytes}
      (hwaiting : w.desk.waiting = raw :: rest) (hidle : calls.countP occupies = 0) :
      Step link ⟨w, calls⟩ ⟨Updater.afterStart link (Updater.fetched rest w),
        calls ++ [(.worker, .arrived (Updater.newAttempt link raw (Updater.fetched rest w)))]⟩
  /-- The calls go on, and so does the host. -/
  | turn {t t' : Reception σ} (hcallers : t'.calls.map Prod.fst = t.calls.map Prod.fst)
      (h : Traffic.Step link t.traffic t'.traffic) : Step link t t'

/-- What can come about in any number of steps. -/
abbrev Reaches (link : Link σ) : Reception σ → Reception σ → Prop :=
  Relation.ReflTransGen (Step link)

variable {t t' : Reception σ}

/-- Without the callers it is the calls from all sides that take turns. -/
theorem Reaches.traffic (h : Reaches link t t') :
    Traffic.Reaches link t.traffic t'.traffic := by
  induction h with
  | refl => exact .refl
  | @tail t₁ t₂ _ hstep ih =>
    refine ih.trans ?_
    cases hstep with
    | call w calls raw =>
      rw [Reception.traffic, Reception.traffic, List.map_append]
      exact .single (.arrive w _ raw)
    | @fetch w calls raw rest hwaiting hidle =>
      have hsame : (Updater.fetched rest w).desk.engaged = w.desk.engaged := rfl
      rw [Reception.traffic, Reception.traffic, List.map_append]
      exact .tail (.single (.aside _ hsame)) (.arrive _ _ raw)
    | turn _ h => exact .single h

/-- What becomes of a call in a turn: it has the caller that it had, and goes on at most. -/
structure Went (engaged : Bool) (call call' : Caller × Flight) : Prop where
  caller : call.1 = call'.1
  goes : call.2.Goes engaged call'.2

theorem went (hcallers : t'.calls.map Prod.fst = t.calls.map Prod.fst)
    (h : Traffic.Step link t.traffic t'.traffic) :
    List.Forall₂ (Went t.world.desk.engaged) t.calls t'.calls := by
  have hlength : t'.traffic.flights.length = t.traffic.flights.length := by
    simpa only [traffic, List.length_map] using congrArg List.length hcallers
  have hflights : List.Forall₂ (Flight.Goes t.world.desk.engaged) (t.calls.map Prod.snd)
      (t'.calls.map Prod.snd) := h.goes hlength
  have hsame : List.Forall₂ Eq (t.calls.map Prod.fst) (t'.calls.map Prod.fst) := by
    rw [hcallers]
    exact List.forall₂_same.mpr fun _ _ => rfl
  rw [List.forall₂_map_left_iff, List.forall₂_map_right_iff] at hflights hsame
  exact List.Forall₂.mp (fun _ _ hcaller hgoes => ⟨hcaller, hgoes⟩) hsame hflights

section

variable {engaged : Bool} {calls calls' : List (Caller × Flight)}
  (h : List.Forall₂ (Went engaged) calls calls')

include h

/-- A call that goes on does not begin to occupy the worker. -/
theorem countP_occupies_le : calls'.countP occupies ≤ calls.countP occupies := by
  induction h with
  | nil => exact Nat.le_refl _
  | @cons call call' calls calls' hwent _ ih =>
    obtain ⟨caller, flight⟩ := call
    obtain ⟨caller', flight'⟩ := call'
    obtain ⟨rfl, hgoes⟩ := hwent
    have hhead : occupies (caller, flight') = true → occupies (caller, flight) = true := by
      cases hgoes <;> simp [occupies, Flight.result?]
    rw [List.countP_cons, List.countP_cons]
    by_cases hoccupies : occupies (caller, flight') = true
    · rw [if_pos hoccupies, if_pos (hhead hoccupies)]
      exact Nat.add_le_add_right ih 1
    · rw [if_neg hoccupies]
      exact Nat.le_trans ih (Nat.le_add_right _ _)

theorem exists_goes_of_mem {caller : Caller} {flight' : Flight}
    (hmem : (caller, flight') ∈ calls') :
    ∃ flight, (caller, flight) ∈ calls ∧ flight.Goes engaged flight' := by
  induction h with
  | nil => cases hmem
  | @cons call call' calls calls' hwent _ ih =>
    rcases List.mem_cons.mp hmem with rfl | hmem
    · obtain ⟨caller', flight⟩ := call
      obtain ⟨rfl, hgoes⟩ := hwent
      exact ⟨flight, List.mem_cons_self, hgoes⟩
    · obtain ⟨flight, hflight, hgoes⟩ := ih hmem
      exact ⟨flight, List.mem_cons_of_mem _ hflight, hgoes⟩

end

/-- Of the calls that occupy the worker there is at most one. -/
theorem eq_of_occupies {calls : List (Caller × Flight)} (h : calls.countP occupies ≤ 1)
    {call call' : Caller × Flight} (hmem : call ∈ calls) (hmem' : call' ∈ calls)
    (hcall : occupies call = true) (hcall' : occupies call' = true) : call = call' := by
  have hin := List.mem_filter.mpr ⟨hmem, hcall⟩
  have hin' := List.mem_filter.mpr ⟨hmem', hcall'⟩
  rw [List.countP_eq_length_filter] at h
  rcases hfilter : calls.filter occupies with _ | ⟨first, _ | ⟨second, others⟩⟩
  · rw [hfilter] at hin
    cases hin
  · rw [hfilter, List.mem_singleton] at hin hin'
    exact hin.trans hin'.symm
  · rw [hfilter, List.length_cons, List.length_cons] at h
    omega

/-- The worker has one call under way at most; and if a candidate that was submitted has been
refused, then somebody else has called. -/
structure Orderly (t : Reception σ) : Prop where
  alone : t.calls.countP occupies ≤ 1
  excused : ∀ flight, (.worker, flight) ∈ t.calls → flight.isRefused = true →
    .other ∈ t.calls.map Prod.fst

/-- If the worker finds the desk taken, then somebody else has it. -/
theorem Orderly.holder (ht : t.Orderly) (hexclusive : t.traffic.Exclusive)
    (hbusy : t.world.desk.engaged = true) {a : Attempt} (ha : (.worker, .arrived a) ∈ t.calls) :
    ∃ a', (.other, .holding a') ∈ t.calls := by
  have hholders : 0 < (t.calls.map Prod.snd).countP Flight.holds := by
    rw [show (t.calls.map Prod.snd).countP Flight.holds = t.world.desk.engaged.toNat from
      hexclusive.holders, hbusy]
    exact Nat.one_pos
  obtain ⟨flight, hflight, hholds⟩ := List.countP_pos_iff.mp hholders
  obtain ⟨⟨caller, flight⟩, hcall, rfl⟩ := List.mem_map.mp hflight
  cases flight with
  | holding a' =>
    cases caller with
    | other => exact ⟨a', hcall⟩
    | worker => cases eq_of_occupies ht.alone hcall ha rfl rfl
  | _ => cases hholds

/-- No step lets two candidates that were submitted meet. -/
theorem Orderly.step (ht : t.Orderly) (hexclusive : t.traffic.Exclusive) (h : Step link t t') :
    t'.Orderly := by
  cases h with
  | call w calls raw =>
    refine ⟨?_, fun flight hflight hrefused => ?_⟩
    · rw [List.countP_append]
      exact ht.alone
    · rw [List.map_append]
      exact List.mem_append_right _ (List.mem_singleton_self _)
  | fetch calls hwaiting hidle =>
    refine ⟨?_, fun flight hflight hrefused => ?_⟩
    · rw [List.countP_append, hidle]
      exact Nat.le_refl _
    · rw [List.map_append]
      refine List.mem_append_left _ (ht.excused flight ?_ hrefused)
      refine (List.mem_append.mp hflight).resolve_right fun h => ?_
      cases List.mem_singleton.mp h
      cases hrefused
  | turn hcallers h =>
    have hwent := went hcallers h
    refine ⟨Nat.le_trans (countP_occupies_le hwent) ht.alone, fun flight' hflight' hrefused => ?_⟩
    rw [hcallers]
    obtain ⟨flight, hflight, hgoes⟩ := exists_goes_of_mem hwent hflight'
    -- it was refused before, or it is refused now, and then the desk is taken
    cases hgoes with
    | stay => exact ht.excused _ hflight hrefused
    | refuse a hbusy =>
      obtain ⟨a', ha'⟩ := ht.holder hexclusive hbusy hflight
      exact List.mem_map_of_mem (f := Prod.fst) ha'
    | sendAway a result => exact ht.excused _ hflight rfl
    | take a => cases hrefused
    | leave a result => cases hrefused

/-- However calls take turns, candidates that were submitted do not get in each other's way. -/
theorem orderly {w : World σ} (hfree : w.desk.engaged = false) (h : Reaches link ⟨w, []⟩ t) :
    t.Orderly := by
  induction h with
  | refl => exact ⟨Nat.zero_le 1, fun flight hflight => by cases hflight⟩
  | @tail t₁ t₂ hreaches hstep ih =>
    have hexclusive : t₁.traffic.Exclusive := Traffic.exclusive hfree (Reaches.traffic hreaches)
    exact ih.step hexclusive hstep

/-- Calls that go on without a new one are turns, whoever has made them. -/
theorem reaches_of_traffic {u : Traffic σ} (h : Traffic.Reaches link t.traffic u)
    (hlength : u.flights.length = t.calls.length) :
    Reaches link t ⟨u.world, (t.calls.map Prod.fst).zip u.flights⟩ := by
  have hcallers : ∀ {u : Traffic σ}, u.flights.length = t.calls.length →
      (t.calls.map Prod.fst).length = u.flights.length := fun hlength =>
    (List.length_map ..).trans hlength.symm
  induction h with
  | refl =>
    have hcalls : (t.calls.map Prod.fst).zip t.traffic.flights = t.calls :=
      (List.zip_of_prod rfl rfl).symm
    rw [hcalls]
    exact .refl
  | @tail u u' hreaches hstep ih =>
    -- none has arrived on the way, as there are no more calls in the end
    have hlength' : u.flights.length = t.calls.length := by
      have hle : (t.calls.map Prod.snd).length ≤ u.flights.length :=
        Traffic.Reaches.length_le hreaches
      have hle' := hstep.length_le
      rw [List.length_map] at hle
      omega
    refine .tail (ih hlength') (.turn ?_ ?_)
    · rw [List.map_fst_zip (Nat.le_of_eq (hcallers hlength)),
        List.map_fst_zip (Nat.le_of_eq (hcallers hlength'))]
    · rw [traffic, traffic, List.map_snd_zip (Nat.le_of_eq (hcallers hlength').symm),
        List.map_snd_zip (Nat.le_of_eq (hcallers hlength).symm)]
      exact hstep

end Reception

/-- The worker goes through the steps of a reception: it takes the candidate that has waited
longest, and has no other call under way until this one has come back. -/
theorem Updater.work_fetches (h : Host σ) (plan : UpdatePlan) (depth : Nat) {w : World σ}
    {calls : List (Caller × Flight)} {raw : Bytes} {rest : List Bytes}
    (hwaiting : w.desk.waiting = raw :: rest) (hidle : calls.countP Reception.occupies = 0) :
    ∃ flight outcome w', flight.result? = some outcome ∧
      (work (h.link (console plan) depth) plan).run w = (.ok (some outcome), w') ∧
      Reception.Reaches (h.link (console plan) depth) ⟨w, calls⟩
        ⟨w', calls ++ [(.worker, flight)]⟩ := by
  obtain ⟨flight, hresult, hflies⟩ :=
    arrived_flies h plan depth raw (fetched rest w) (calls.map Prod.snd)
  refine ⟨flight, _, _, hresult, run_work hwaiting, .head (.fetch calls hwaiting hidle) ?_⟩
  generalize newAttempt (h.link (console plan) depth) raw (fetched rest w) = a at hflies ⊢
  have hcalls : calls ++ [(.worker, flight)] =
      ((calls ++ [(Caller.worker, Flight.arrived a)]).map Prod.fst).zip
        (calls.map Prod.snd ++ [flight]) :=
    List.zip_of_prod (by rw [List.map_append, List.map_append]; rfl) List.map_append
  rw [hcalls]
  refine Reception.reaches_of_traffic (u := ⟨_, calls.map Prod.snd ++ [flight]⟩) ?_ (by simp)
  rw [Reception.traffic, List.map_append]
  exact hflies

end HotSwap
