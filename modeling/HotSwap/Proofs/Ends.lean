/-
How acts end.

`a.Ends w P E` says that the act `a`, run in the world `w`, ends with a value and
a world for which `P` holds, or with a fault and a world for which `E` holds.  An
act ends in exactly one way, so this is its strongest description once `P` and
`E` are chosen well.

* `Act.ends_bind`, `Act.ends_guarded`, `Act.ends_ensuring`, … — one rule for each
  way of building acts;
* `Act.Ends.mono`, `Act.Ends.and` — weaker ends, and two descriptions together;
* `Act.Within` — an act that, however it ends, stays within a relation of worlds
  and raises faults of one kind only, with one rule for each way of building
  acts;
* `Act.Course` — the relations within which the telling of an update stays, and
  `Act.Frame`, those which may also look at the polls of its drain;
* `Act.Absorbs` — a relation around which the telling does not count.

Design notes: `Within` is for the long stretches of an update of which only a
frame matters; `Ends` is for the turns.
-/
import Mathlib.Tactic.Common
import HotSwap.World.Host

namespace HotSwap

/-- An ordinary fault does not interrupt. -/
theorem Fault.ordinary {P : Prop} {e : Fault} (he : e.interrupts = false)
    (hi : e.interrupts = true) : P := by
  simp [he] at hi

namespace Act

variable {σ α β : Type} {a : Act σ α} {w : World σ}

/-- The act ends in `w` with a value for which `P` holds, or with a fault for
which `E` holds. -/
def Ends (a : Act σ α) (w : World σ) (P : α → World σ → Prop) (E : Fault → World σ → Prop) :
    Prop :=
  match a.run w with
  | (.ok x, w') => P x w'
  | (.error e, w') => E e w'

variable {P P' : α → World σ → Prop} {E E' : Fault → World σ → Prop}

theorem Ends.mono (h : a.Ends w P E) (hP : ∀ x w', P x w' → P' x w')
    (hE : ∀ e w', E e w' → E' e w') : a.Ends w P' E' := by
  unfold Ends at h ⊢
  split
  · next heq => rw [heq] at h; exact hP _ _ h
  · next heq => rw [heq] at h; exact hE _ _ h

/-- An act that does not fail raises no faults but those of `E`, whatever `E` is. -/
theorem Ends.of_safe (h : a.Ends w P fun _ _ => False) : a.Ends w P E :=
  h.mono (fun _ _ hx => hx) fun _ _ he => he.elim

theorem Ends.and (h : a.Ends w P E) (h' : a.Ends w P' E') :
    a.Ends w (fun x w' => P x w' ∧ P' x w') (fun e w' => E e w' ∧ E' e w') := by
  unfold Ends at h h' ⊢
  split
  · next heq => rw [heq] at h h'; exact ⟨h, h'⟩
  · next heq => rw [heq] at h h'; exact ⟨h, h'⟩

/-- What holds of all ends holds of the one. -/
theorem Ends.of_forall (hP : ∀ x w', P x w') (hE : ∀ e w', E e w') : a.Ends w P E := by
  unfold Ends
  split
  · exact hP _ _
  · exact hE _ _

/-- What an act ends with, read off its description. -/
theorem Ends.ok {x : α} {w' : World σ} (h : a.Ends w P E) (hrun : a.run w = (.ok x, w')) :
    P x w' := by
  unfold Ends at h
  rw [hrun] at h
  exact h

theorem Ends.error {e : Fault} {w' : World σ} (h : a.Ends w P E)
    (hrun : a.run w = (.error e, w')) : E e w' := by
  unfold Ends at h
  rw [hrun] at h
  exact h

/-- An act that is known to end with a fault. -/
theorem Ends.error_of_fst {e : Fault} (h : a.Ends w P E) (hrun : (a.run w).1 = .error e) :
    E e (a.run w).2 :=
  h.error (Prod.ext hrun rfl)

/-- What holds of the end and of the world, read off the run. -/
theorem Ends.run {Q : Except Fault α → World σ → Prop}
    (h : a.Ends w (fun x => Q (.ok x)) fun e => Q (.error e)) : Q (a.run w).1 (a.run w).2 := by
  unfold Ends at h
  split at h
  · next heq => rwa [heq]
  · next heq => rwa [heq]

/-- What holds of the world however an act ends. -/
theorem Ends.world {Q : World σ → Prop} (h : a.Ends w (fun _ w' => Q w') fun _ w' => Q w') :
    Q (a.run w).2 :=
  Ends.run (Q := fun _ => Q) h

/-- An act ends as its run does. -/
theorem ends_run (a : Act σ α) (w : World σ) :
    a.Ends w (fun x w' => a.run w = (.ok x, w')) fun e w' => a.run w = (.error e, w') := by
  unfold Ends
  split
  · assumption
  · assumption

/-- An act that ends however another one does ends as that one. -/
theorem run_eq_of_ends {b : Act σ α} (h : ∀ P E, b.Ends w P E → a.Ends w P E) :
    a.run w = b.run w := by
  have ha := h _ _ (ends_run b w)
  unfold Ends at ha
  split at ha
  · next hrun => exact hrun.trans ha.symm
  · next hrun => exact hrun.trans ha.symm

/-! ### Rules -/

@[simp] theorem ends_pure (x : α) : (pure x : Act σ α).Ends w P E ↔ P x w := Iff.rfl

@[simp] theorem ends_raise (e : Fault) : (raise e : Act σ α).Ends w P E ↔ E e w := Iff.rfl

@[simp] theorem ends_look (f : World σ → α) : (look f).Ends w P E ↔ P (f w) w := Iff.rfl

@[simp] theorem ends_change (f : World σ → World σ) {P : Unit → World σ → Prop} :
    (change f).Ends w P E ↔ P () (f w) := Iff.rfl

@[simp] theorem ends_enter (e : Entry) {P : Unit → World σ → Prop} :
    (enter e).Ends w P E ↔ P () (w.enter e) := Iff.rfl

@[simp] theorem ends_changeDesk (f : Desk → Desk) {P : Unit → World σ → Prop} :
    (changeDesk f).Ends w P E ↔ P () { w with desk := f w.desk } := Iff.rfl

@[simp] theorem ends_changeBooks (f : Bookkeeping → Bookkeeping) {P : Unit → World σ → Prop} :
    (changeBooks f).Ends w P E ↔ P () { w with books := f w.books } := Iff.rfl

@[simp] theorem ends_record (r : Record) {P : Unit → World σ → Prop} :
    (record r).Ends w P E ↔ P () { w with log := w.log.push r } := Iff.rfl

@[simp] theorem ends_desk {P : Desk → World σ → Prop} : (desk : Act σ Desk).Ends w P E ↔
    P w.desk w := Iff.rfl

@[simp] theorem ends_books {P : Bookkeeping → World σ → Prop} :
    (books : Act σ Bookkeeping).Ends w P E ↔ P w.books w := Iff.rfl

theorem ends_bind (f : α → Act σ β) {P : β → World σ → Prop} :
    (a >>= f).Ends w P E ↔ a.Ends w (fun x w' => (f x).Ends w' P E) E := by
  show Ends (a.next f) w P E ↔ _
  unfold Ends run next
  rcases a w with ⟨_ | x, w'⟩ <;> simp

/-- Sequencing, with a description of the first part. -/
theorem Ends.bind {f : α → Act σ β} {Q : β → World σ → Prop} (h : a.Ends w P E')
    (hok : ∀ x w', P x w' → (f x).Ends w' Q E) (herr : ∀ e w', E' e w' → E e w') :
    (a >>= f).Ends w Q E :=
  (ends_bind f).mpr (h.mono hok herr)

/-- Sequencing, where only the value of the second part matters. -/
theorem ends_bind_of_forall {f : α → Act σ β} {Q : β → World σ → Prop}
    (hf : ∀ x w', (f x).Ends w' Q fun _ _ => True) : (a >>= f).Ends w Q fun _ _ => True :=
  (ends_bind f).mpr (.of_forall hf fun _ _ => trivial)

theorem ends_outcome {P : Except Fault α → World σ → Prop} :
    a.outcome.Ends w P E ↔ a.Ends w (fun x => P (.ok x)) (fun e => P (.error e)) := by
  unfold Ends outcome run
  rcases h : a w with ⟨_ | x, w'⟩ <;> simp [h]

theorem ends_guarded {P : Except Fault α → World σ → Prop} :
    a.guarded.Ends w P E ↔
      a.Ends w (fun x => P (.ok x))
        (fun e w' => if e.interrupts then E e w' else P (.error e) w') := by
  unfold Ends guarded run
  rcases h : a w with ⟨e | x, w'⟩
  · cases hi : e.interrupts <;> simp [h, hi]
  · simp [h]

theorem ends_rescue {P : Except SystemError α → World σ → Prop} :
    a.rescue.Ends w P E ↔
      a.Ends w (fun x => P (.ok x))
        (fun e w' => match e with
          | .system refusal => P (.error refusal) w'
          | e => E e w') := by
  unfold Ends rescue run
  rcases h : a w with ⟨e | x, w'⟩
  · cases e <;> simp [h]
  · simp [h]

theorem ends_ensuring {after : Act σ Unit} :
    (a.ensuring after).Ends w P E ↔
      a.Ends w (fun x w' => after.Ends w' (fun _ => P x) E)
        (fun e w' => after.Ends w' (fun _ => E e) E) := by
  unfold Ends ensuring run
  rcases h : a w with ⟨e | x, w'⟩ <;> rcases h' : after w' with ⟨e' | x', w''⟩ <;> simp [h, h']

theorem ends_noted (entry : Option Fault → Disk → Entry) :
    (noted entry a).Ends w P E ↔
      a.Ends w (fun x w' => P x (w'.enter (entry none w'.disk)))
        (fun e w' => E e (w'.enter (entry (some e) w'.disk))) := by
  unfold Ends noted run
  rcases h : a w with ⟨e | x, w'⟩ <;> simp [h]

theorem ends_exchange (r : Request) (a : Act σ r.Answer) {P : r.Answer → World σ → Prop} :
    (exchange r a).Ends w P E ↔
      a.Ends (w.enter (.asked r)) (fun x w' => P x (w'.enter (.answered r (.ok x))))
        (fun e w' => E e (w'.enter (.answered r (.error e)))) := by
  unfold Ends exchange run
  rcases h : a (w.enter (.asked r)) with ⟨e | x, w'⟩ <;> simp [h]

theorem ends_choose (f : σ → α × σ) :
    (Link.choose f).Ends w P E ↔ P (f w.host).1 { w with host := (f w.host).2 } := Iff.rfl

/-! ### Staying within a relation -/

/-- However the act ends, it ends within `R` of where it began, and a fault that
it raises is one of `F`. -/
def Within (a : Act σ α) (R : World σ → World σ → Prop) (F : Fault → Prop) : Prop :=
  ∀ w, a.Ends w (fun _ w' => R w w') (fun e w' => F e ∧ R w w')

/-- The relations within which the telling of an update stays: they do not look
at the log, nor at the polls of the running drain. -/
class Course (R : World σ → World σ → Prop) : Prop where
  refl : ∀ w, R w w
  trans : ∀ {w w' w''}, R w w' → R w' w'' → R w w''
  log : ∀ w log, R w { w with log }
  polls : ∀ w n, R w { w with desk := { w.desk with queuePolls := n } }

/-- Relations that do not look at the log, but may look at the polls of the running
drain. -/
class Frame (R : World σ → World σ → Prop) : Prop where
  refl : ∀ w, R w w
  trans : ∀ {w w' w''}, R w w' → R w' w'' → R w w''
  log : ∀ w log, R w { w with log }

instance {R : World σ → World σ → Prop} [Course R] : Frame R := ⟨Course.refl, Course.trans, Course.log⟩

section Within

variable {R : World σ → World σ → Prop} {F F' : Fault → Prop}

theorem Within.mono {R' : World σ → World σ → Prop} (h : a.Within R F)
    (hR : ∀ w w', R w w' → R' w w') (hF : ∀ e, F e → F' e) : a.Within R' F' :=
  fun w => (h w).mono (fun _ _ => hR _ _) fun _ _ he => ⟨hF _ he.1, hR _ _ he.2⟩

theorem Within.weaken (h : a.Within R F) (hF : ∀ e, F e → F' e) : a.Within R F' :=
  h.mono (fun _ _ => id) hF

/-- Where ordinary faults are caught, only the others are raised. -/
theorem Within.guarded (h : a.Within R F) :
    a.guarded.Within R fun e => F e ∧ e.interrupts = true := fun w => by
  refine ends_guarded.mpr ((h w).mono (fun _ _ => id) fun e w' he => ?_)
  split
  · next hi => exact ⟨⟨he.1, hi⟩, he.2⟩
  · exact he.2

theorem Within.caught (h : a.Within R F) : a.guarded.Within R F :=
  h.guarded.weaken fun _ => And.left

theorem Within.outcome (h : a.Within R F) : a.outcome.Within R F := fun w =>
  ends_outcome.mpr ((h w).mono (fun _ _ => id) fun _ _ he => he.2)

variable [Frame R]

theorem within_pure (x : α) : (pure x : Act σ α).Within R F := fun w => Frame.refl w

theorem within_raise {e : Fault} (he : F e) : (raise e : Act σ α).Within R F :=
  fun w => ⟨he, Frame.refl w⟩

theorem within_look (f : World σ → α) : (look f).Within R F := fun w => Frame.refl w

theorem within_record {r : Record} : (record r : Act σ Unit).Within R F :=
  fun w => Frame.log w (w.log.push r)

theorem within_say {logger : String} {level : Level} {event : String}
    {fields : List (String × Data)} : (say logger level event fields : Act σ Unit).Within R F :=
  within_record

theorem Within.bind {f : α → Act σ β} (h : a.Within R F) (hf : ∀ x, (f x).Within R F) :
    (a >>= f).Within R F := fun w =>
  (h w).bind
    (fun x w' hw => (hf x w').mono (fun _ _ => Frame.trans hw)
      fun _ _ he => ⟨he.1, Frame.trans hw he.2⟩)
    fun _ _ he => he

end Within

/-! ### Around a stretch that stands out -/

/-- Stretches of `N`, before or after one of `R`, make up one of `R` with it. -/
structure Absorbs (N R : World σ → World σ → Prop) : Prop where
  of : ∀ {w w'}, N w w' → R w w'
  before : ∀ {w w' w''}, N w w' → R w' w'' → R w w''
  after : ∀ {w w' w''}, R w w' → N w' w'' → R w w''

section Absorbs

variable {N R : World σ → World σ → Prop} {F : Fault → Prop}

theorem absorbs_self [Frame N] : Absorbs N N where
  of h := h
  before := Frame.trans
  after := Frame.trans

variable (hNR : Absorbs N R) {f : α → Act σ β}

include hNR

theorem Absorbs.within (ha : a.Within N F) : a.Within R F := ha.mono (fun _ _ => hNR.of) fun _ => id

theorem Absorbs.bind_before (ha : a.Within N F) (hf : ∀ x, (f x).Within R F) :
    (a >>= f).Within R F := fun w =>
  (ha w).bind
    (fun x w' hw => (hf x w').mono (fun _ _ => hNR.before hw)
      fun _ _ he => ⟨he.1, hNR.before hw he.2⟩)
    fun _ _ he => ⟨he.1, hNR.of he.2⟩

theorem Absorbs.bind_after (ha : a.Within R F) (hf : ∀ x, (f x).Within N F) :
    (a >>= f).Within R F := fun w =>
  (ha w).bind
    (fun x w' hw => (hf x w').mono (fun _ _ => hNR.after hw)
      fun _ _ he => ⟨he.1, hNR.after hw he.2⟩)
    fun _ _ he => he

theorem Absorbs.ensuring {after : Act σ Unit} (ha : a.Within R F) (hafter : after.Within N F) :
    (a.ensuring after).Within R F := fun w => by
  refine ends_ensuring.mpr ((ha w).mono ?_ ?_)
  · exact fun _ w₁ h => (hafter w₁).mono (fun _ _ => hNR.after h) fun _ _ he =>
      ⟨he.1, hNR.after h he.2⟩
  · exact fun _ w₁ he => (hafter w₁).mono (fun _ _ h => ⟨he.1, hNR.after he.2 h⟩) fun _ _ he' =>
      ⟨he'.1, hNR.after he.2 he'.2⟩

end Absorbs

end Act
end HotSwap
