/-
Calls from all sides.

Any number of calls for an update may be under way at once: from several threads, and from
the host while it is being asked something.  They share one desk.  Each call asks for it
once, and goes on with an attempt only if nobody has it.

* `Flight` — how far one call has come;
* `Traffic.Step` — what the calls can do next, in any order;
* `Traffic.exclusive` — one call at most has the desk, and the others are told so;
* `Updater.apply_flies` — an update is a call that goes through such steps.

Design notes: between two turns of a call nothing is known of what the others do, but that
those who do not have the desk leave it as it is.
-/
import Mathlib.Logic.Relation
import HotSwap.Proofs.Refusals

namespace HotSwap

open Act

variable {σ : Type} {link : Link σ} {plan : UpdatePlan}

/-! ### Calls -/

/-- How far a call has come. -/
inductive Flight where
  /-- It has not asked for the desk yet. -/
  | arrived (a : Attempt)
  /-- It found the desk free, and has taken it. -/
  | holding (a : Attempt)
  /-- It found the desk taken. -/
  | refused (a : Attempt)
  /-- It has given the desk back, with the end of its attempt. -/
  | left (result : Except Fault UpdateReport)
  /-- It has come back without having had the desk. -/
  | sentAway (result : Except Fault UpdateReport)

/-- Whether a call has the desk. -/
def Flight.holds : Flight → Bool
  | .holding _ => true
  | _ => false

/-- What has come of a call. -/
def Flight.result? : Flight → Option (Except Fault UpdateReport)
  | .left result | .sentAway result => some result
  | _ => none

/-- All calls so far, the oldest first, and the world that they share. -/
structure Traffic (σ : Type) where
  world : World σ
  flights : List Flight

namespace Traffic

/-- What can happen next. -/
inductive Step (link : Link σ) : Traffic σ → Traffic σ → Prop
  /-- Somebody calls. -/
  | arrive (w : World σ) (flights : List Flight) (raw : Bytes) :
      Step link ⟨w, flights⟩
        ⟨Updater.afterStart link w, flights ++ [.arrived (Updater.newAttempt link raw w)]⟩
  /-- A call finds the desk free. -/
  | take {w : World σ} (before : List Flight) (a : Attempt) (after : List Flight)
      (hfree : w.desk.engaged = false) :
      Step link ⟨w, before ++ .arrived a :: after⟩
        ⟨Updater.engaged w, before ++ .holding a :: after⟩
  /-- A call finds the desk taken. -/
  | refuse {w : World σ} (before : List Flight) (a : Attempt) (after : List Flight)
      (hbusy : w.desk.engaged = true) :
      Step link ⟨w, before ++ .arrived a :: after⟩ ⟨w, before ++ .refused a :: after⟩
  /-- The call that has the desk goes on with its attempt. -/
  | work {w w' : World σ} (before : List Flight) (a : Attempt) (after : List Flight)
      (h : w.GoesOn w') :
      Step link ⟨w, before ++ .holding a :: after⟩ ⟨w', before ++ .holding a :: after⟩
  /-- The others go on, and so does the host. -/
  | aside {w w' : World σ} (flights : List Flight) (h : w'.desk.engaged = w.desk.engaged) :
      Step link ⟨w, flights⟩ ⟨w', flights⟩
  /-- The attempt has ended, one way or the other. -/
  | leave (w : World σ) (before : List Flight) (a : Attempt) (after : List Flight)
      (result : Except Fault UpdateReport) :
      Step link ⟨w, before ++ .holding a :: after⟩
        ⟨Updater.released w, before ++ .left result :: after⟩
  /-- A refused call comes back with its report, or with what was raised when it told. -/
  | sendAway (w : World σ) (before : List Flight) (a : Attempt) (after : List Flight)
      {result : Except Fault UpdateReport} (h : ∀ r, result = .ok r →
        ∃ completedAt, r = a.report Updater.refused none completedAt) :
      Step link ⟨w, before ++ .refused a :: after⟩ ⟨w, before ++ .sentAway result :: after⟩

/-- What can come about in any number of steps. -/
abbrev Reaches (link : Link σ) : Traffic σ → Traffic σ → Prop :=
  Relation.ReflTransGen (Step link)

/-- A call has the desk exactly if it is taken, and then it is the only one; those that were
sent away were told that another one was running. -/
structure Exclusive (t : Traffic σ) : Prop where
  holders : t.flights.countP Flight.holds = t.world.desk.engaged.toNat
  busy : ∀ r, .sentAway (.ok r) ∈ t.flights → r.Busy

variable {t t' : Traffic σ}

theorem countP_holds (before : List Flight) (flight : Flight) (after : List Flight) :
    (before ++ flight :: after).countP Flight.holds =
      before.countP Flight.holds + flight.holds.toNat + after.countP Flight.holds := by
  rw [List.countP_append, List.countP_cons, Nat.add_assoc,
    Nat.add_comm (List.countP Flight.holds after)]
  cases flight.holds <;> rfl

/-- A call that has not come back before has come back in this step, or has not yet. -/
theorem mem_of_sentAway {r : UpdateReport} {before after : List Flight} {flight flight' : Flight}
    (hflight : flight' ≠ .sentAway (.ok r)) (h : .sentAway (.ok r) ∈ before ++ flight' :: after) :
    .sentAway (.ok r) ∈ before ++ flight :: after := by
  rcases List.mem_append.mp h with h | h
  · exact List.mem_append_left _ h
  · rcases List.mem_cons.mp h with h | h
    · exact absurd h.symm hflight
    · exact List.mem_append_right _ (List.mem_cons_of_mem _ h)

/-- No step gives the desk to two calls. -/
theorem Exclusive.step (ht : t.Exclusive) (h : Step link t t') : t'.Exclusive := by
  obtain ⟨hholders, hbusy⟩ := ht
  -- one case for each step: who has the desk then, and who has been sent away
  cases h with
  | arrive w flights raw =>
    refine ⟨?_, fun r hr => hbusy r ?_⟩
    · rw [List.countP_append]
      exact hholders
    · exact (List.mem_append.mp hr).resolve_right (by simp)
  | take before a after hfree =>
    refine ⟨?_, fun r hr => hbusy r (mem_of_sentAway (by simp) hr)⟩
    rw [countP_holds, hfree] at hholders
    rw [countP_holds]
    simp only [Flight.holds, Bool.toNat_false, Bool.toNat_true, Updater.engaged] at hholders ⊢
    omega
  | refuse before a after hengaged =>
    refine ⟨?_, fun r hr => hbusy r (mem_of_sentAway (by simp) hr)⟩
    rw [countP_holds] at hholders ⊢
    exact hholders
  | @work w w' before a after hgoes =>
    refine ⟨?_, hbusy⟩
    have hengaged : w.desk.engaged = true := by
      by_contra hfree
      rw [Bool.not_eq_true] at hfree
      rw [countP_holds, hfree] at hholders
      simp only [Flight.holds, Bool.toNat_false, Bool.toNat_true] at hholders
      omega
    rw [hengaged] at hholders
    rw [hgoes hengaged]
    exact hholders
  | aside flights hsame =>
    refine ⟨?_, hbusy⟩
    rw [hsame]
    exact hholders
  | leave w before a after result =>
    refine ⟨?_, fun r hr => hbusy r (mem_of_sentAway (by simp) hr)⟩
    have hone := Bool.toNat_le w.desk.engaged
    rw [countP_holds] at hholders ⊢
    simp only [Flight.holds, Bool.toNat_false, Bool.toNat_true, Updater.released] at hholders ⊢
    omega
  | sendAway w before a after hresult =>
    refine ⟨?_, fun r hr => ?_⟩
    · rw [countP_holds] at hholders ⊢
      exact hholders
    · rcases List.mem_append.mp hr with hr | hr
      · exact hbusy r (List.mem_append_left _ hr)
      · rcases List.mem_cons.mp hr with hr | hr
        · obtain ⟨completedAt, rfl⟩ := hresult r (Flight.sentAway.inj hr).symm
          exact a.busy_report none completedAt
        · exact hbusy r (List.mem_append_right _ (List.mem_cons_of_mem _ hr))

/-- However the calls take turns, one of them at most has the desk. -/
theorem exclusive {w : World σ} (hfree : w.desk.engaged = false)
    (h : Reaches link ⟨w, []⟩ t) : t.Exclusive := by
  induction h with
  | refl => exact ⟨by rw [hfree]; rfl, fun r hr => by cases hr⟩
  | tail _ hstep ih => exact ih.step hstep

end Traffic

/-! ### An update among other calls -/

namespace Updater

/-- A running attempt goes on until it ends. -/
theorem attempt_goesOn (hask : ∀ r, (link.ask r).Within World.GoesOn fun _ => True)
    (a : Attempt) (raw : Bytes) :
    (attempt link plan a raw).Within World.GoesOn fun _ => True := by
  have hframed : a.Framed link plan World.GoesOn World.GoesOn (fun _ => True) fun _ => True :=
    a.framed_goesOn hask
  have hfinish : ∀ o drained w, (a.finish link plan o drained).Ends w
      (fun _ w' => w.GoesOn w') fun e w' => True ∧ w.GoesOn w' := fun o drained =>
    a.finish_within plan o drained (fun _ h => h) (fun _ _ _ _ => hask _) fun _ _ => hask _
  intro w
  refine (Attempt.ends_attempt_framed hframed hfinish (fun _ _ _ _ _ h => h) raw w).mono ?_
    fun _ _ he => ⟨trivial, he.2⟩
  rintro report w' ⟨w₁, w₂, h₁, h₂, h₃⟩
  exact fun hengaged => h₃ (h₂ (h₁ hengaged))

/-- A call that has arrived has the desk until its attempt has ended, or it is sent away. -/
theorem arrived_flies (h : Host σ) (plan : UpdatePlan) (depth : Nat) (raw : Bytes) (w : World σ)
    (flights : List Flight) :
    ∃ flight : Flight,
      flight.result? = some ((apply (h.link (console plan) depth) plan raw).run w).1 ∧
      Traffic.Reaches (h.link (console plan) depth)
        ⟨afterStart (h.link (console plan) depth) w,
          flights ++ [.arrived (newAttempt (h.link (console plan) depth) raw w)]⟩
        ⟨((apply (h.link (console plan) depth) plan raw).run w).2, flights ++ [flight]⟩ := by
  have hask := h.ask_goesOn plan depth
  have hrefused := fun hbusy : w.desk.engaged = true => ends_apply_busy h.leaves_nothing
    h.raises_any (h.orders_any _) plan depth raw hbusy
  generalize h.link (console plan) depth = link at hask hrefused
  by_cases hbusy : w.desk.engaged = true
  · have hengaged : ((apply link plan raw).run w).2.desk.engaged = true :=
      ((hrefused hbusy).mono (fun _ _ h => h.2.engaged) fun _ _ he => he.2.engaged).world
    have hreport : ∀ r, ((apply link plan raw).run w).1 = .ok r →
        ∃ completedAt, r = (newAttempt link raw w).report refused none completedAt :=
      fun r hr => ((hrefused hbusy).ok (Prod.ext hr rfl)).1
    refine ⟨.sentAway ((apply link plan raw).run w).1, rfl, ?_⟩
    refine .head (.refuse flights _ [] hbusy) (.head (.aside _ ?_)
      (.single (.sendAway _ flights _ [] hreport)))
    rw [hengaged]
    exact hbusy.symm
  · rw [Bool.not_eq_true] at hbusy
    have hends : (apply link plan raw).Ends w
        (fun _ w' => ∃ w₁, (engaged (afterStart link w)).GoesOn w₁ ∧ w' = released w₁)
        fun _ w' => ∃ w₁, (engaged (afterStart link w)).GoesOn w₁ ∧ w' = released w₁ := by
      rw [ends_apply_of_free hbusy]
      exact (attempt_goesOn hask _ raw _).mono (fun _ w₁ h => ⟨w₁, h, rfl⟩)
        fun _ w₁ he => ⟨w₁, he.2, rfl⟩
    obtain ⟨w₁, hgoes, hleft⟩ := hends.world
    refine ⟨.left ((apply link plan raw).run w).1, rfl, ?_⟩
    rw [hleft]
    exact .head (.take flights _ [] hbusy) (.head (.work flights _ [] hgoes)
      (.single (.leave w₁ flights _ [] _)))

/-- An update goes through the steps of a call. -/
theorem apply_flies (h : Host σ) (plan : UpdatePlan) (depth : Nat) (raw : Bytes) (t : Traffic σ) :
    ∃ flight : Flight,
      flight.result? = some ((apply (h.link (console plan) depth) plan raw).run t.world).1 ∧
      Traffic.Reaches (h.link (console plan) depth) t
        ⟨((apply (h.link (console plan) depth) plan raw).run t.world).2,
          t.flights ++ [flight]⟩ := by
  obtain ⟨flight, hresult, hreaches⟩ := arrived_flies h plan depth raw t.world t.flights
  exact ⟨flight, hresult, .head (.arrive t.world t.flights raw) hreaches⟩

end Updater
end HotSwap
