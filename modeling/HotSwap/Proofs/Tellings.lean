/-
What an attempt never tells.

An assertion about lists of entries that two lists have together, once each has it, is
an assertion about stretches of a run: the stretches of which the entries of interest
have it make up a frame, and an attempt stays within the frame if its requests do.

* `Cumulative` — such assertions;
* `World.Tells` — the frame;
* `Link.Hears.handles` — accesses to files are silent;
* `Act.Traces` — an act of which something is known however it ends;
* `Link.Hears.framed` — an attempt stays within the frame, if its requests do;
* `Updater.ends_apply_tells` — and so does an update.
-/
import HotSwap.Proofs.Frames
import HotSwap.Proofs.Readings

namespace HotSwap

open Act

variable {σ α : Type} {w w' w'' : World σ} {q : Bool → σ → Prop} {keep : Entry → Bool}
  {A : String → Prop} {L : (r : Request) → Except Fault r.Answer → Prop} {l : List Entry}
  {T : List Entry → Prop} {F C : Fault → Prop} {link : Link σ} {plan : UpdatePlan}

/-- An assertion about lists that holds of what two lists make together. -/
class Cumulative {β : Type} (T : List β → Prop) : Prop where
  nil : T []
  append : ∀ {l l'}, T l → T l' → T (l ++ l')

/-- Where the assertion about the host holds it goes on to hold, and `T` holds of the
entries of interest. -/
def World.Tells (q : Bool → σ → Prop) (keep : Entry → Bool) (T : List Entry → Prop)
    (w w' : World σ) : Prop :=
  w.Meets q → w'.Meets q ∧ w'.desk.engaged = w.desk.engaged ∧ w.Grown w' ∧
    T ((w.since w').filter keep)

namespace World

theorem Reads.tells (h : w.Reads q keep l w') (hl : T l) : w.Tells q keep T w' := fun hmeets => by
  obtain ⟨hmeets', hengaged, -, hgrown, hreads⟩ := h hmeets
  exact ⟨hmeets', hengaged, hgrown, by rwa [hreads]⟩

theorem Tells.trans [Cumulative T] (h : w.Tells q keep T w') (h' : w'.Tells q keep T w'') :
    w.Tells q keep T w'' := fun hmeets => by
  obtain ⟨hmeets', hengaged, hgrown, hT⟩ := h hmeets
  obtain ⟨hmeets'', hengaged', hgrown', hT'⟩ := h' hmeets'
  refine ⟨hmeets'', hengaged'.trans hengaged, hgrown.trans hgrown', ?_⟩
  rw [hgrown.since_trans hgrown', List.filter_append]
  exact Cumulative.append hT hT'

/-- Changes of the desk that neither take it nor give it back. -/
theorem tells_desk [Cumulative T] (w : World σ) (desk : Desk)
    (hengaged : desk.engaged = w.desk.engaged) : w.Tells q keep T { w with desk } := fun hmeets => by
  refine ⟨?_, hengaged, .refl w, ?_⟩
  · rw [Meets, hengaged]
    exact hmeets
  · rw [show w.since { w with desk } = [] from since_self w]
    exact Cumulative.nil

end World

instance (P : Entry → Prop) : Cumulative fun l => ∀ e ∈ l, P e where
  nil := by simp
  append h h' e he := (List.mem_append.mp he).elim (h e) (h' e)

instance : Cumulative fun _ : List Entry => True where
  nil := trivial
  append _ _ := trivial

instance {β : Type} : Cumulative fun l : List β => l = [] where
  nil := rfl
  append h h' := by rw [h, h', List.append_nil]

instance [Cumulative T] : Course (World.Tells (σ := σ) q keep T) where
  refl w := (Course.refl (R := World.Silent q keep) w).tells Cumulative.nil
  trans := World.Tells.trans
  log w log := (Course.log (R := World.Silent q keep) w log).tells Cumulative.nil
  polls w n := (Course.polls (R := World.Silent q keep) w n).tells Cumulative.nil

/-- What is silent tells nothing. -/
theorem Act.Within.tells [Cumulative T] {a : Act σ α} (h : a.Within (World.Silent q keep) F) :
    a.Within (World.Tells q keep T) F :=
  h.mono (fun _ _ hw => hw.tells Cumulative.nil) fun _ he => he

/-- What an act yields stays within the frame, if `T` holds of it. -/
theorem Act.Yields.tells {a : Act σ α} {P : α → List Entry → Prop} {E : Fault → List Entry → Prop}
    (h : a.Yields q keep P E) (hP : ∀ x l, P x l → T l) (hE : ∀ e l, E e l → F e ∧ T l) :
    a.Within (World.Tells q keep T) F := fun w => by
  refine (h w).mono ?_ ?_
  · rintro x w' ⟨l, hl, hw⟩
    exact hw.tells (hP x l hl)
  · rintro e w' ⟨l, hl, hw⟩
    exact ⟨(hE e l hl).1, hw.tells (hE e l hl).2⟩

/-- Telling nothing, before or after entries for which `T` holds, does not count. -/
theorem World.absorbs_tells (hT : T []) :
    Absorbs (World.Tells (σ := σ) q keep fun l => l = []) (World.Tells q keep T) where
  of h hmeets := by
    obtain ⟨hmeets', hengaged, hgrown, hnone⟩ := h hmeets
    exact ⟨hmeets', hengaged, hgrown, by rwa [hnone]⟩
  before h h' hmeets := by
    obtain ⟨hmeets', hengaged, hgrown, hnone⟩ := h hmeets
    obtain ⟨hmeets'', hengaged', hgrown', hl⟩ := h' hmeets'
    refine ⟨hmeets'', hengaged'.trans hengaged, hgrown.trans hgrown', ?_⟩
    rwa [hgrown.since_trans hgrown', List.filter_append, hnone, List.nil_append]
  after h h' hmeets := by
    obtain ⟨hmeets', hengaged, hgrown, hl⟩ := h hmeets
    obtain ⟨hmeets'', hengaged', hgrown', hnone⟩ := h' hmeets'
    refine ⟨hmeets'', hengaged'.trans hengaged, hgrown.trans hgrown', ?_⟩
    rwa [hgrown.since_trans hgrown', List.filter_append, hnone, List.append_nil]

/-- Where `S` holds of what the first part tells and `U` of what the second part does, `T`
holds of both together; or of the first part alone, if that fails. -/
theorem Act.Within.bind_tells {β : Type} {S U : List Entry → Prop} {a : Act σ α}
    {f : α → Act σ β} (h : a.Within (World.Tells q keep S) F)
    (hf : ∀ x, (f x).Within (World.Tells q keep U) F)
    (hT : ∀ l l', S l → U l' → T (l ++ l')) (hS : ∀ l, S l → T l) :
    (a >>= f).Within (World.Tells q keep T) F := fun w => by
  have hfirst : ∀ {w'}, w.Tells q keep S w' → w.Tells q keep T w' := fun hw hmeets =>
    (hw hmeets).imp_right (And.imp_right (And.imp_right (hS _)))
  have hboth : ∀ {w' w''}, w.Tells q keep S w' → w'.Tells q keep U w'' →
      w.Tells q keep T w'' := by
    intro w' w'' hw hw' hmeets
    obtain ⟨hmeets', hengaged, hgrown, hl⟩ := hw hmeets
    obtain ⟨hmeets'', hengaged', hgrown', hl'⟩ := hw' hmeets'
    refine ⟨hmeets'', hengaged'.trans hengaged, hgrown.trans hgrown', ?_⟩
    rw [hgrown.since_trans hgrown', List.filter_append]
    exact hT _ _ hl hl'
  refine (h w).bind (fun x w' hw => ?_) fun _ _ he => ⟨he.1, hfirst he.2⟩
  exact (hf x w').mono (fun _ _ hw' => hboth hw hw') fun _ _ he => ⟨he.1, hboth hw he.2⟩

/-- The stretch is read as entries for which `T` holds. -/
def World.Leaves (q : Bool → σ → Prop) (keep : Entry → Bool) (T : List Entry → Prop)
    (w w' : World σ) : Prop :=
  ∃ l, T l ∧ w.Reads q keep l w'

theorem World.Silent.leaves [Cumulative T] (h : w.Silent q keep w') : w.Leaves q keep T w' :=
  ⟨[], Cumulative.nil, h⟩

instance [Cumulative T] : Course (World.Leaves (σ := σ) q keep T) where
  refl w := (Course.refl (R := World.Silent q keep) w).leaves
  trans := by
    rintro w w' w'' ⟨l, hl, h⟩ ⟨l', hl', h'⟩
    exact ⟨l ++ l', Cumulative.append hl hl', h.trans h'⟩
  log w log := (Course.log (R := World.Silent q keep) w log).leaves
  polls w n := (Course.polls (R := World.Silent q keep) w n).leaves

theorem Act.Within.yields_leaves {a : Act σ α} (h : a.Within (World.Leaves q keep T) F) :
    a.Yields q keep (fun _ => T) fun e l => F e ∧ T l := fun w => by
  refine (h w).mono (fun _ _ hw => hw) ?_
  rintro e w' ⟨he, l, hl, hw⟩
  exact ⟨l, ⟨he, hl⟩, hw⟩

/-! ### Acts of which something is known however they end -/

namespace Act

variable {β : Type} {a : Act σ α} {P P' : α → List Entry → Prop}

/-- However the act ends, `T` holds of its entries of interest, and a fault is one of
`F`; if it ends with a value, `P` holds too. -/
def Traces (a : Act σ α) (q : Bool → σ → Prop) (keep : Entry → Bool) (T : List Entry → Prop)
    (F : Fault → Prop) (P : α → List Entry → Prop) : Prop :=
  a.Yields q keep (fun x l => P x l ∧ T l) fun e l => F e ∧ T l

theorem Traces.mono (h : a.Traces q keep T F P) (hP : ∀ x l, P x l → T l → P' x l) :
    a.Traces q keep T F P' :=
  Yields.mono h (fun x l hl => ⟨hP x l hl.1 hl.2, hl.2⟩) fun _ _ he => he

variable [Cumulative T]

theorem traces_pure {x : α} (h : P x []) : (pure x : Act σ α).Traces q keep T F P :=
  yields_pure ⟨h, Cumulative.nil⟩

theorem Traces.bind {f : α → Act σ β} {Q : β → List Entry → Prop} (h : a.Traces q keep T F P)
    (hf : ∀ x l, P x l → (f x).Traces q keep T F fun y l' => Q y (l ++ l')) :
    (a >>= f).Traces q keep T F Q := by
  refine Yields.bind h fun x l hl => Yields.mono (hf x l hl.1) ?_ ?_
  · exact fun y l' hl' => ⟨hl'.1, Cumulative.append hl.2 hl'.2⟩
  · exact fun e l' he => ⟨he.1, Cumulative.append hl.2 he.2⟩

end Act

/-! ### Files -/

/-- Behind a link that is heard, accesses to files are silent, if their entries are of
no interest. -/
theorem Link.Hears.handles (hlink : link.Hears q A keep L)
    (hfiles : ∀ e : Entry, e.OfFiles → keep e = false) :
    link.Handles (World.Silent q keep) fun _ => True :=
  Link.handles_of_course
    (fun a _ => World.silent_of_journal (fun b hb => hlink.gate a b _ hb) rfl rfl rfl)
    (fun _ _ => World.silent_of_journal (fun _ h => h) rfl rfl rfl)
    (fun _ e he => World.silent_enter (hfiles e he))
    fun _ _ => World.silent_of_journal (fun _ h => h) rfl rfl rfl

/-! ### Attempts -/

theorem Request.not_concludes_of_precedes {r : Request} {own : String} (h : r.Precedes own) :
    ¬ r.Concludes A := by
  cases r with
  | publish e =>
    cases e with
    | updateCompleted => exact h.elim
    | _ => exact id
  | keepReport report => exact h.elim
  | _ => exact id

namespace Link.Hears

variable [Cumulative T] (hlink : link.Hears q A keep L) (hF : ∀ r e, L r (.error e) → F e)

include hlink

omit [Cumulative T] in
/-- A request stays within the frame, if `T` holds of it with any answer. -/
theorem ask_tells {r : Request} (hF : ∀ e, L r (.error e) → F e)
    (hr : ∀ answer, T ((r.noted answer).filter keep)) :
    (link.ask r).Within (World.Tells q keep T) F :=
  (hlink.ask r).tells (fun x _ h => h.2 ▸ hr (.ok x)) fun e _ h => ⟨hF e h.1, h.2 ▸ hr (.error e)⟩

include hF

theorem keeps_tells {S : Request → Prop}
    (hS : ∀ r, S r → ∀ answer, T ((r.noted answer).filter keep)) :
    link.Keeps (World.Tells q keep T) F S where
  ask r hr := hlink.ask_tells (hF r) (hS r hr)
  newId := hlink.newId_within.tells
  time := hlink.time_within.tells

/-- An attempt stays within the frame, if `T` holds of each of its requests with any
answer; the start of the flow, and the end of the attempt, are looked at apart. -/
theorem framed {N : World σ → World σ → Prop} (hordinary : ∀ e, e.interrupts = false → F e)
    (hC : ∀ e, C e → F e) (hN : ∀ w w', N w w' → w.Tells q keep T w')
    (hclose : ∀ s, (link.ask (.closeSpan s)).Within N C)
    (hfiles : ∀ e : Entry, e.OfFiles → keep e = false) (a : Attempt)
    (hT : ∀ r : Request, r ≠ .startProcessing → r.Precedes a.id → ∀ answer,
      T ((r.noted answer).filter keep))
    (hstart : ∀ listens,
      (validateAndStart link plan.validation listens).Within (World.Tells q keep T) F) :
    a.Framed link plan (World.Tells q keep T) N F C :=
  a.framed_of_requests hordinary hC hN World.tells_desk
    ((hlink.handles hfiles).mono fun _ _ h => h.tells Cumulative.nil)
    (hlink.keeps_tells hF fun r hr => hT r hr.1 hr.2) hclose hstart

end Link.Hears

/-- An update tells nothing but what its requests tell, and the start of the flow, on
whatever desk it runs. -/
theorem Updater.ends_apply_tells [Cumulative T] {raw : Bytes}
    (hlink : link.Hears (fun b _ => b = true) A keep L)
    (hfiles : ∀ e : Entry, e.OfFiles → keep e = false)
    (hT : ∀ r : Request, r ≠ .startProcessing → ∀ answer, T ((r.noted answer).filter keep))
    (hstart : ∀ listens, (validateAndStart link plan.validation listens).Within
      (World.Tells (fun b _ => b = true) keep T) fun _ => True) :
    (apply link plan raw).Ends w (fun _ w' => T ((w.since w').filter keep))
      fun _ w' => T ((w.since w').filter keep) := by
  generalize ha : newAttempt link raw w = a
  have hany : ∀ r e, L r (.error e) → True := fun _ _ _ => trivial
  have hask : ∀ r : Request, r ≠ .startProcessing →
      (link.ask r).Within (World.Tells (fun b _ => b = true) keep T) fun _ => True :=
    fun r hr => hlink.ask_tells (hany r) (hT r hr)
  have hfinish : ∀ o drained, (a.finish link plan o drained).Within
      (World.Tells (fun b _ => b = true) keep T) fun _ => True := fun o drained =>
    a.finish_within plan o drained hlink.time_within.tells (fun _ _ _ _ => hask _ (by simp))
      fun _ _ => hask _ (by simp)
  have hend : ∀ {w₁ w' : World σ}, w₁.Tells (fun b _ => b = true) keep T w' →
      w₁.desk.engaged = true → w₁.journal = w.journal → T ((w.since w').filter keep) := by
    intro w₁ w' htells hengaged hjournal
    obtain ⟨-, -, -, hes⟩ := htells hengaged
    rwa [World.since, hjournal] at hes
  cases hdesk : w.desk.engaged with
  | false =>
    rw [ends_apply_of_free hdesk, ha]
    have hframed : a.Framed link plan (World.Tells (fun b _ => b = true) keep T)
        (World.Tells (fun b _ => b = true) keep T) (fun _ => True) fun _ => True :=
      hlink.framed hany (fun _ _ => trivial) (fun _ _ => trivial) (fun _ _ h => h)
        (fun s => hask (.closeSpan s) (by simp)) hfiles a (fun r hr _ => hT r hr) hstart
    refine (Attempt.ends_attempt_framed (Q := fun _ => World.Tells (fun b _ => b = true) keep T)
      (G := fun _ => True) hframed hfinish (fun _ _ _ _ _ h => h) raw _).mono ?_ ?_
    · rintro report w' ⟨w₁, w₂, h₁, h₂, h₃⟩
      exact @hend (engaged (afterStart link w)) w' (Course.trans h₁ (Course.trans h₂ h₃)) rfl rfl
    · exact fun e w' he => @hend (engaged (afterStart link w)) w' he.2 rfl rfl
  | true =>
    rw [ends_apply_of_engaged hdesk, ha]
    refine ((within_record.bind fun _ => hfinish refused none) _).mono ?_ ?_
    · exact fun _ w' h => @hend (afterStart link w) w' h hdesk rfl
    · exact fun _ w' h => @hend (afterStart link w) w' h.2 hdesk rfl

end HotSwap
