/-
Reading the journal for entries of one kind.

What an attempt does can be read off its journal, once the entries of interest are
picked out.  Those about other attempts are never among them: as long as an attempt
is running, all that the orders of a host leave in the journal is how refused updates
are told about.

* `World.Meets` — an assertion about the host, given whether an attempt is running;
* `World.Reads` — while the assertion holds, the entries of interest are these;
* `Act.Yields` — an act that ends in certain ways with certain entries of interest,
  with one rule for each way of building acts;
* `Polled`, `Act.Yields.pollFrom` — a loop is read poll by poll;
* `Entry.Murmur` — the entries about the end of another attempt;
* `Host.Abides` — hosts that keep to an assertion, and what is known of their answers;
* `Host.GivesOnce` — hosts that give each identifier once;
* `Link.Hears` — a request through the link is read as the request and its answer
  (`Host.Abides.hears`, `Host.Abides.hears_token`).

Design notes: attempts are told apart by their identifiers.  The assertion about the
host says which identifiers others may still be given, and `A` holds of those.
-/
import HotSwap.Proofs.Hosts

namespace HotSwap

open Act

variable {σ α β : Type} {w w' w'' : World σ} {q : Bool → σ → Prop} {keep : Entry → Bool}
  {A : String → Prop} {L : (r : Request) → Except Fault r.Answer → Prop} {l l' : List Entry}

/-! ### Readings -/

namespace World

/-- An assertion about the host holds, given whether an attempt is running. -/
def Meets (q : Bool → σ → Prop) (w : World σ) : Prop := q w.desk.engaged w.host

/-- Where the assertion holds it goes on to hold, the desk is held as before, and the
entries of interest are `l`. -/
def Reads (q : Bool → σ → Prop) (keep : Entry → Bool) (l : List Entry) (w w' : World σ) : Prop :=
  w.Meets q → w'.Meets q ∧ w'.desk.engaged = w.desk.engaged ∧
    w'.desk.drained = w.desk.drained ∧ w.Grown w' ∧ (w.since w').filter keep = l

/-- Nothing of interest happens. -/
abbrev Silent (q : Bool → σ → Prop) (keep : Entry → Bool) : World σ → World σ → Prop :=
  Reads q keep []

/-- What leaves the journal and the desk alone, and the assertion true, is silent. -/
theorem silent_of_journal (hhost : ∀ b, q b w.host → q b w'.host)
    (hengaged : w'.desk.engaged = w.desk.engaged) (hdrained : w'.desk.drained = w.desk.drained)
    (hjournal : w'.journal = w.journal) : w.Silent q keep w' := by
  intro hmeets
  refine ⟨?_, hengaged, hdrained, grown_of_journal hjournal, ?_⟩
  · rw [Meets, hengaged]
    exact hhost _ hmeets
  · rw [since_of_journal hjournal, List.filter_nil]

theorem Reads.trans (h : w.Reads q keep l w') (h' : w'.Reads q keep l' w'') :
    w.Reads q keep (l ++ l') w'' := fun hmeets => by
  obtain ⟨hmeets', hengaged, hdrained, hgrown, hreads⟩ := h hmeets
  obtain ⟨hmeets'', hengaged', hdrained', hgrown', hreads'⟩ := h' hmeets'
  refine ⟨hmeets'', hengaged'.trans hengaged, hdrained'.trans hdrained, hgrown.trans hgrown', ?_⟩
  rw [hgrown.since_trans hgrown', List.filter_append, hreads, hreads']

theorem reads_enter (q : Bool → σ → Prop) (keep : Entry → Bool) (w : World σ) (e : Entry) :
    w.Reads q keep ([e].filter keep) (w.enter e) := fun hmeets =>
  ⟨hmeets, rfl, rfl, grown_enter w e, by rw [since_enter]⟩

theorem silent_enter {e : Entry} (he : keep e = false) : w.Silent q keep (w.enter e) := by
  have h := reads_enter q keep w e
  rwa [List.filter_cons_of_neg (by simp [he]), List.filter_nil] at h

end World

instance : Course (World.Silent (σ := σ) q keep) where
  refl _ := World.silent_of_journal (fun _ h => h) rfl rfl rfl
  trans := World.Reads.trans
  log _ _ := World.silent_of_journal (fun _ h => h) rfl rfl rfl
  polls _ _ := World.silent_of_journal (fun _ h => h) rfl rfl rfl

/-! ### Acts and what they yield -/

namespace Act

variable {a : Act σ α} {P P' : α → List Entry → Prop} {E E' : Fault → List Entry → Prop}
  {F : Fault → Prop}

/-- The act ends with a value and entries of interest for which `P` holds, or with a
fault and entries for which `E` holds. -/
def Yields (a : Act σ α) (q : Bool → σ → Prop) (keep : Entry → Bool)
    (P : α → List Entry → Prop) (E : Fault → List Entry → Prop) : Prop :=
  ∀ w : World σ, a.Ends w (fun x w' => ∃ l, P x l ∧ w.Reads q keep l w')
    fun e w' => ∃ l, E e l ∧ w.Reads q keep l w'

theorem Yields.mono (h : a.Yields q keep P E) (hP : ∀ x l, P x l → P' x l)
    (hE : ∀ e l, E e l → E' e l) : a.Yields q keep P' E' := fun w =>
  (h w).mono (fun x _ ⟨l, hl, hw⟩ => ⟨l, hP x l hl, hw⟩) fun e _ ⟨l, hl, hw⟩ => ⟨l, hE e l hl, hw⟩

theorem Yields.of_safe (h : a.Yields q keep P fun _ _ => False) : a.Yields q keep P E :=
  h.mono (fun _ _ hl => hl) fun _ _ he => he.elim

/-- An act that does not fail. -/
theorem Yields.ends (h : a.Yields q keep P fun _ _ => False) (w : World σ) :
    a.Ends w (fun x w' => ∃ l, P x l ∧ w.Reads q keep l w') fun _ _ => False := by
  refine (h w).mono (fun _ _ hx => hx) ?_
  rintro e w' ⟨l, he, -⟩
  exact he

/-- Where nothing of interest happens. -/
theorem Within.yields (h : a.Within (World.Silent q keep) F) :
    a.Yields q keep (fun _ l => l = []) fun e l => F e ∧ l = [] := fun w =>
  (h w).mono (fun _ _ hw => ⟨[], rfl, hw⟩) fun _ _ he => ⟨[], ⟨he.1, rfl⟩, he.2⟩

theorem yields_pure {x : α} (h : P x []) : (pure x : Act σ α).Yields q keep P E := fun w =>
  ⟨[], h, Course.refl w⟩

theorem yields_raise {e : Fault} (h : E e []) : (raise e : Act σ α).Yields q keep P E := fun w =>
  ⟨[], h, Course.refl w⟩

/-- Sequencing: the second part goes on after what the first part yields. -/
theorem Yields.bind {f : α → Act σ β} {Q : β → List Entry → Prop}
    (h : a.Yields q keep P fun e l => E e l)
    (hf : ∀ x l, P x l → (f x).Yields q keep (fun y l' => Q y (l ++ l')) fun e l' => E e (l ++ l')) :
    (a >>= f).Yields q keep Q E := fun w => by
  refine (h w).bind ?_ fun _ _ he => he
  rintro x w₁ ⟨l, hl, h₁⟩
  refine (hf x l hl w₁).mono ?_ ?_
  · rintro y w' ⟨l', hl', h'⟩
    exact ⟨l ++ l', hl', h₁.trans h'⟩
  · rintro e w' ⟨l', hl', h'⟩
    exact ⟨l ++ l', hl', h₁.trans h'⟩

/-- Something silent comes first. -/
theorem Within.bind_yields {f : α → Act σ β} {Q : β → List Entry → Prop}
    (h : a.Within (World.Silent q keep) F) (hF : ∀ e, F e → E e [])
    (hf : ∀ x, (f x).Yields q keep Q E) : (a >>= f).Yields q keep Q E := by
  refine Yields.bind (P := fun _ l => l = []) (h.yields.mono (fun _ _ hl => hl) ?_) ?_
  · rintro e l ⟨he, rfl⟩
    exact hF e he
  · rintro x l rfl
    exact hf x

/-- Whatever is logged is silent. -/
theorem yields_say {logger : String} {level : Level} {event : String}
    {fields : List (String × Data)} {P : Unit → List Entry → Prop} (h : P () []) :
    (say logger level event fields : Act σ Unit).Yields q keep P E := by
  refine Yields.mono (within_say (F := fun _ => False)).yields ?_ fun _ _ he => he.1.elim
  rintro - l rfl
  exact h

theorem say_bind_yields {logger : String} {level : Level} {event : String}
    {fields : List (String × Data)} {f : Unit → Act σ β} {Q : β → List Entry → Prop}
    (hf : (f ()).Yields q keep Q E) : (say logger level event fields >>= f).Yields q keep Q E :=
  Within.bind_yields (within_say (F := fun _ => False)) (fun _ he => he.elim) fun _ => hf

theorem Yields.guarded {Q : Except Fault α → List Entry → Prop}
    (h : a.Yields q keep (fun x => Q (.ok x))
      fun e l => if e.interrupts then E e l else Q (.error e) l) :
    a.guarded.Yields q keep Q E := fun w => by
  refine ends_guarded.mpr ((h w).mono (fun _ _ h => h) ?_)
  rintro e w' ⟨l, hl, hw⟩
  split
  · next hi => exact ⟨l, by rwa [if_pos hi] at hl, hw⟩
  · next hi => exact ⟨l, by rwa [if_neg hi] at hl, hw⟩

end Act

/-! ### Polling -/

/-- What fails, fails with a fault of `F`. -/
def FailsWith (F : Fault → Prop) : Except Fault α → Prop
  | .ok _ => True
  | .error e => F e

/-- Whether there may be another poll after one that has come to this. -/
def leavesOpen (met : α → Bool) : Except Fault α → Bool
  | .ok value => !met value
  | .error fault => fault.asksAgain

/-- How a loop is read of which so many polls are left: `K` is known of what a poll comes to,
and `Z` of what a pause does.  Where there could be another poll there is one, unless the
loop listens to the token. -/
inductive Polled (listens : Bool) (met : α → Bool) (K : Except Fault α → List Entry → Prop)
    (Z : Except Fault Unit → List Entry → Prop) :
    Nat → Except Fault (Option (Residual α)) → List Entry → Prop
  /-- The last poll gives what is wanted. -/
  | met {left : Nat} {x : α} {l : List Entry} (hpoll : K (.ok x) l) (hx : met x = true) :
      Polled listens met K Z left (.ok none) l
  /-- The last poll gives something else. -/
  | unmet {left : Nat} {r : Residual α} {l : List Entry} (hpoll : K (.ok r.value) l)
      (hr : met r.value = false) (hends : left = 0 ∨ listens = true) :
      Polled listens met K Z left (.ok (some r)) l
  /-- The last poll fails. -/
  | raised {left : Nat} {e : Fault} {l : List Entry} (hpoll : K (.error e) l)
      (hends : e.asksAgain = true → left = 0 ∨ listens = true) :
      Polled listens met K Z left (.error e) l
  /-- The pause before the next poll fails. -/
  | restless {left : Nat} {outcome : Except Fault α} {e : Fault} {l l' : List Entry}
      (hpoll : K outcome l) (hopen : leavesOpen met outcome = true) (hpause : Z (.error e) l') :
      Polled listens met K Z (left + 1) (.error e) (l ++ l')
  /-- There is another poll. -/
  | next {left : Nat} {outcome : Except Fault α} {result : Except Fault (Option (Residual α))}
      {l l' l'' : List Entry} (hpoll : K outcome l) (hopen : leavesOpen met outcome = true)
      (hpause : Z (.ok ()) l') (rest : Polled listens met K Z left result l'') :
      Polled listens met K Z (left + 1) result (l ++ (l' ++ l''))

namespace Act

variable {met : α → Bool} {K : Except Fault α → List Entry → Prop}
  {Z : Except Fault Unit → List Entry → Prop} {ask : Act σ α} {link : Link σ} {budget : Budget}

theorem Yields.outcome {a : Act σ α} {E : Fault → List Entry → Prop}
    (h : a.Yields q keep (fun x => K (.ok x)) fun e => K (.error e)) :
    a.outcome.Yields q keep K E := fun w =>
  ends_outcome.mpr ((h w).mono (fun _ _ hx => hx) fun _ _ he => he)

/-- Only a loop that listens is told to stop. -/
theorem toldToStop_yields (listens : Bool) : (toldToStop listens : Act σ Bool).Yields q keep
    (fun told l => (told = true → listens = true) ∧ l = []) fun _ _ => False := fun w => by
  rw [toldToStop, ends_bind, ends_desk, ends_pure]
  exact ⟨[], ⟨fun htold => (Bool.and_eq_true_iff.mp htold).1, rfl⟩, Course.refl w⟩

/-- One poll is met, or ends the loop unmet, or leaves it open. -/
theorem Yields.pollOnce
    (hask : ask.Yields q keep (fun x => K (.ok x)) fun e => K (.error e)) (listens : Bool)
    (poll : Nat) :
    (pollOnce listens ask (fun x => return met x) poll).Yields q keep
      (fun answer l => (∃ x, answer = some none ∧ K (.ok x) l ∧ met x = true) ∨
        (∃ r, answer = some (some r) ∧ K (.ok r.value) l ∧ met r.value = false ∧
          listens = true) ∨
        ∃ outcome, answer = none ∧ K outcome l ∧ leavesOpen met outcome = true)
      fun e l => K (.error e) l ∧ (e.asksAgain = true → listens = true) := by
  refine hask.outcome.bind fun outcome l hl => ?_
  cases outcome with
  | ok x =>
    show Yields (if met x = true then _ else _) _ _ _ _
    split
    · next hx => exact yields_pure (.inl ⟨x, rfl, by rwa [List.append_nil], hx⟩)
    · next hx =>
      have hunmet : met x = false := Bool.of_not_eq_true hx
      refine (toldToStop_yields listens).of_safe.bind ?_
      rintro told _ ⟨htold, rfl⟩
      split
      · next hstop =>
        refine yields_pure (.inr (.inl ⟨_, rfl, ?_, hunmet, htold hstop⟩))
        rwa [List.append_nil, List.append_nil]
      · refine yields_pure (.inr (.inr ⟨.ok x, rfl, ?_, ?_⟩))
        · rwa [List.append_nil, List.append_nil]
        · rw [leavesOpen, hunmet]
          rfl
  | error e =>
    refine (toldToStop_yields listens).of_safe.bind ?_
    rintro told _ ⟨htold, rfl⟩
    split
    · next hagain =>
      refine yields_pure (.inr (.inr ⟨.error e, rfl, ?_, (Bool.and_eq_true_iff.mp hagain).1⟩))
      rwa [List.append_nil, List.append_nil]
    · next hends =>
      refine yields_raise ⟨by rwa [List.append_nil, List.append_nil], fun hagain => htold ?_⟩
      simpa [hagain] using hends

/-- A loop is read poll by poll, with a pause before each poll but the first. -/
theorem Yields.pollFrom
    (hask : ask.Yields q keep (fun x => K (.ok x)) fun e => K (.error e))
    (hpause : (link.ask (.pause budget.pause.seconds)).Yields q keep (fun x => Z (.ok x))
      fun e => Z (.error e)) (listens : Bool) (left poll : Nat) :
    (pollFrom link budget listens ask (fun x => return met x) left poll).Yields q keep
      (fun answer => Polled listens met K Z left (.ok answer))
      fun e => Polled listens met K Z left (.error e) := by
  -- the induction is on the polls that are left
  induction left generalizing poll with
  | zero =>
    rw [HotSwap.pollFrom]
    refine (hask.mono (fun _ _ h => h) fun _ _ he => .raised he fun _ => .inl rfl).bind
      fun x l hl => ?_
    show Yields (if met x = true then _ else _) _ _ _ _
    split
    · next hx => exact yields_pure (by rw [List.append_nil]; exact .met hl hx)
    · next hx =>
      refine Within.bind_yields (toldToStop_within (F := fun _ => False) listens)
        (fun _ he => he.elim) fun told => yields_pure ?_
      rw [List.append_nil]
      exact .unmet hl (Bool.of_not_eq_true hx) (.inl rfl)
  | succ left ih =>
    rw [HotSwap.pollFrom]
    refine ((hask.pollOnce listens poll).mono (fun _ _ h => h)
      fun _ _ he => .raised he.1 fun hagain => .inr (he.2 hagain)).bind ?_
    rintro _ l (⟨x, rfl, hl, hx⟩ | ⟨r, rfl, hl, hr, hlistens⟩ | ⟨outcome, rfl, hl, hopen⟩)
    · exact yields_pure (by rw [List.append_nil]; exact .met hl hx)
    · exact yields_pure (by rw [List.append_nil]; exact .unmet hl hr (.inr hlistens))
    · refine say_bind_yields ((hpause.mono (fun _ _ h => h) fun _ _ he =>
        .restless hl hopen he).bind fun _ l' hl' => (ih (poll + 1)).mono ?_ ?_)
      · exact fun _ _ h => .next hl hopen hl' h
      · exact fun _ _ h => .next hl hopen hl' h

end Act

/-! ### Hosts -/

/-- Whether a request tells of the end of an attempt with one of the identifiers, or
has the report of such an attempt kept. -/
def Request.Concludes (A : String → Prop) : Request → Prop
  | .publish (.updateCompleted id ..) => A id
  | .keepReport report => A report.attemptId
  | _ => False

/-- An entry about the end of an attempt with one of the identifiers. -/
def Entry.Murmur (A : String → Prop) : Entry → Prop
  | .asked r | .answered r _ => r.Concludes A
  | _ => False

/-- A request and its answer, as the journal notes them. -/
def Request.noted (r : Request) (answer : Except Fault r.Answer) : List Entry :=
  [.asked r, .answered r answer]

/-- A host that keeps to an assertion in all that it does.  The identifiers that it
gives are among `A`, and `L` is known of its answers. -/
structure Host.Abides (h : Host σ) (q : Bool → σ → Prop) (A : String → Prop)
    (L : (r : Request) → Except Fault r.Answer → Prop) : Prop where
  gate : ∀ a b s, q b s → q b (h.gate a s).2
  freshId : ∀ b s, q b s → A (h.freshId s).1 ∧ q b (h.freshId s).2
  now : ∀ b s, q b s → q b (h.now s).2
  reply : ∀ r s, ((h.reply r) s).Along (fun s s' => ∀ b, q b s.host → q b s'.host)
    (fun s answer s' => L r answer ∧ ∀ b, q b s.host → q b s'.host) s

/-- What is asked through the link is read as the request and its answer; the small
choices of the host are silent. -/
structure Link.Hears (link : Link σ) (q : Bool → σ → Prop) (A : String → Prop)
    (keep : Entry → Bool) (L : (r : Request) → Except Fault r.Answer → Prop) : Prop where
  ask : ∀ r, (link.ask r).Yields q keep
    (fun x l => L r (.ok x) ∧ l = (r.noted (.ok x)).filter keep)
    fun e l => L r (.error e) ∧ l = (r.noted (.error e)).filter keep
  newId : ∀ w, link.newId.Ends w (fun id w' => (w.Meets q → A id) ∧ w.Silent q keep w')
    fun _ _ => False
  time : link.time.Within (World.Silent q keep) fun _ => False
  gate : ∀ a b s, q b s → q b (link.gate a s).2

namespace Link.Hears

variable {link : Link σ} (hlink : link.Hears q A keep L) {F : Fault → Prop}

include hlink

theorem newId_within : link.newId.Within (World.Silent q keep) F := fun w =>
  (hlink.newId w).mono (fun _ _ h => h.2) fun _ _ he => he.elim

theorem time_within : link.time.Within (World.Silent q keep) F :=
  hlink.time.weaken fun _ he => he.elim

/-- A request that is of no interest, nor its answer, is silent. -/
theorem ask_within {r : Request} (hasked : keep (.asked r) = false)
    (hanswered : ∀ answer, keep (.answered r answer) = false) (hF : ∀ e, L r (.error e) → F e) :
    (link.ask r).Within (World.Silent q keep) F := by
  have hnone : ∀ answer, (r.noted answer).filter keep = [] := fun answer => by
    rw [Request.noted, List.filter_eq_nil_iff]
    simp [hasked, hanswered answer]
  intro w
  refine (hlink.ask r w).mono ?_ ?_
  · rintro x w' ⟨l, ⟨-, rfl⟩, hw⟩
    rwa [hnone] at hw
  · rintro e w' ⟨l, ⟨hL, rfl⟩, hw⟩
    rw [hnone] at hw
    exact ⟨hF e hL, hw⟩

/-- Whatever a refused update tells is silent. -/
theorem concludes_within {r : Request} (hdeaf : ∀ e : Entry, e.Murmur A → keep e = false)
    (hr : r.Concludes A) : (link.ask r).Within (World.Silent q keep) fun _ => True :=
  hlink.ask_within (hdeaf _ hr) (fun _ => hdeaf _ hr) fun _ _ => trivial

end Link.Hears

namespace Host

variable {h : Host σ} {plan : UpdatePlan}

/-- How a request ends whose conduct abides by an assertion, and whose orders are
silent. -/
theorem Abides.yields_exchange (hh : h.Abides q A L) {orders : Command → Act σ Reply}
    (horders : ∀ c, (orders c).Within (World.Silent q keep) fun _ => True) (r : Request) :
    (Act.exchange r ((h.reply r).perform orders)).Yields q keep
      (fun x l => L r (.ok x) ∧ l = (r.noted (.ok x)).filter keep)
      fun e l => L r (.error e) ∧ l = (r.noted (.error e)).filter keep := by
  intro w
  have hscene : ∀ {w : World σ} {s : Scene σ}, (∀ b, q b w.host → q b s.host) →
      w.Silent q keep { w with disk := s.disk, host := s.host } := fun hq =>
    World.silent_of_journal hq rfl rfl rfl
  -- the request, an interlude with the last step of the host, and the answer
  have hreads : ∀ (w₁ : World σ) (s : Scene σ) (answer : Except Fault r.Answer),
      (w.enter (.asked r)).Silent q keep w₁ → (∀ b, q b w₁.host → q b s.host) →
      w.Reads q keep ((r.noted answer).filter keep)
        (World.enter { w₁ with disk := s.disk, host := s.host } (.answered r answer)) := by
    intro w₁ s answer h₁ hq
    have hasked := (World.reads_enter q keep w (.asked r)).trans (h₁.trans (hscene hq))
    have hanswered := hasked.trans (World.reads_enter q keep _ (.answered r answer))
    rw [List.nil_append, List.append_nil, ← List.filter_append] at hanswered
    exact hanswered
  rw [ends_exchange, Play.perform, ends_bind, ends_look]
  refine (Conduct.ends_perform (fun w s hs => hscene hs) horders (hh.reply r _)).mono ?_ ?_
  · rintro x w' ⟨w₁, s, h₁, ⟨hL, hq⟩, rfl⟩
    exact ⟨_, ⟨hL, rfl⟩, hreads w₁ s (.ok x) h₁ hq⟩
  · rintro e w' ⟨w₁, s, h₁, ⟨hL, hq⟩, rfl⟩
    exact ⟨_, ⟨hL, rfl⟩, hreads w₁ s (.error e) h₁ hq⟩

theorem freshId_link (h : Host σ) (console : Link σ → Command → Act σ Reply) (depth : Nat) :
    (h.link console depth).freshId = h.freshId := by
  cases depth <;> rfl

theorem now_link (h : Host σ) (console : Link σ → Command → Act σ Reply) (depth : Nat) :
    (h.link console depth).now = h.now := by
  cases depth <;> rfl

/-- Behind a console whose orders are silent, however deep. -/
theorem Abides.hears (hh : h.Abides q A L) {console : Link σ → Command → Act σ Reply}
    (hconsole : ∀ link : Link σ, link.Hears q A keep L → ∀ c,
      (console link c).Within (World.Silent q keep) fun _ => True) (depth : Nat) :
    (h.link console depth).Hears q A keep L := by
  have hnewId : ∀ w : World σ, (Link.choose h.freshId).Ends w
      (fun id w' => (w.Meets q → A id) ∧ w.Silent q keep w') fun _ _ => False := fun w =>
    ⟨fun hmeets => (hh.freshId _ _ hmeets).1,
      World.silent_of_journal (fun b hb => (hh.freshId b _ hb).2) rfl rfl rfl⟩
  have htime : (Link.choose h.now).Within (World.Silent q keep) fun _ => False := fun w =>
    World.silent_of_journal (fun b hb => hh.now b _ hb) rfl rfl rfl
  -- one level deeper, orders go through a link at which this is known to hold
  induction depth with
  | zero => exact ⟨hh.yields_exchange fun _ => within_raise trivial, hnewId, htime, hh.gate⟩
  | succ depth ih => exact ⟨hh.yields_exchange (hconsole _ ih), hnewId, htime, hh.gate⟩

/-- Behind the console of an updater, as long as an attempt is running. -/
theorem Abides.hears_console (hh : h.Abides q A L) (hbusy : ∀ b s, q b s → b = true)
    (hdeaf : ∀ e : Entry, e.Murmur A → keep e = false) (plan : UpdatePlan) (depth : Nat) :
    (h.link (Updater.console plan) depth).Hears q A keep L := by
  refine hh.hears (fun link hlink c => ?_) depth
  have hvoid : ∀ w w' : World σ, ¬ w.Meets q → w.Silent q keep w' := fun _ _ hw h => absurd h hw
  refine Updater.console_within (fun w desk hengaged _ hdrained =>
    World.silent_of_journal (fun _ hb => hb) hengaged hdrained rfl) (fun raw => ?_) c
  refine Updater.apply_within_of_refused hvoid (fun w w' hw h => hbusy _ _ (h hw).1)
    (fun w hw => ?_) fun _ => trivial
  -- the refused attempt has an identifier of its own, and tells only of its end
  refine (hlink.newId w).bind ?_ fun _ _ he => he.elim
  rintro id w₁ ⟨hid, h₁⟩
  refine Ends.bind (hlink.time w₁) ?_ fun _ _ he => he.1.elim
  intro now w₂ h₂
  refine ⟨Course.trans h₁ h₂, fun o drained => ?_⟩
  refine Attempt.finish_within plan _ o drained hlink.time_within (fun _ _ _ _ => ?_)
    fun report hreport => ?_
  · exact hlink.concludes_within hdeaf (hid hw)
  · refine hlink.concludes_within hdeaf ?_
    rw [Request.Concludes, hreport]
    exact hid hw

/-- Behind the console that leaves only the token. -/
theorem Abides.hears_token (hh : h.Abides q A L) (depth : Nat) :
    (h.link tokenConsole depth).Hears q A keep L := by
  refine hh.hears (fun link _ c => ?_) depth
  cases c with
  | cancelToken =>
    exact Within.bind (fun w => World.silent_of_journal (fun _ hb => hb) rfl rfl rfl)
      fun _ => within_pure _
  | _ => exact within_pure _

/-- What is known of the faults that a host raises. -/
def Raising (E : Request → Fault → Prop) (r : Request) (answer : Except Fault r.Answer) : Prop :=
  ∀ e, answer = .error e → E r e

variable {E : Request → Fault → Prop}

/-- Any host abides by an assertion that does not look at it. -/
theorem Raises.abides (hh : h.Raises E) (Q : Bool → Prop) :
    h.Abides (fun b _ => Q b) (fun _ => True) (Raising E) where
  gate _ _ _ h := h
  freshId _ _ h := ⟨trivial, h⟩
  now _ _ h := h
  reply r s := (hh r s).mono (fun _ _ _ _ h => h) fun _ _ _ h => ⟨h, fun _ h => h⟩

/-- What comes through a link to a host as a fault, the host has raised. -/
theorem Raises.ends_ask (hh : h.Raises E) (plan : UpdatePlan) (depth : Nat) (r : Request)
    (w : World σ) :
    ((h.link (Updater.console plan) depth).ask r).Ends w (fun _ _ => True) fun e _ => E r e := by
  have hears : (h.link (Updater.console plan) depth).Hears (fun b _ => b = true) (fun _ => True)
      (fun _ => false) (Raising E) :=
    (hh.abides (· = true)).hears_console (fun _ _ hb => hb) (fun _ _ => rfl) plan depth
  exact (hears.ask_within rfl (fun _ => rfl) (fun e he => he e rfl) w).mono
    (fun _ _ _ => trivial) fun _ _ he => he.1

/-! ### Identifiers -/

/-- A host that gives each identifier once; `given` are those it has given. -/
structure GivesOnce (h : Host σ) (given : σ → String → Prop) : Prop where
  gate : ∀ a s id, given s id → given (h.gate a s).2 id
  now : ∀ s id, given s id → given (h.now s).2 id
  fresh : ∀ s, ¬ given s (h.freshId s).1
  noted : ∀ s, given (h.freshId s).2 (h.freshId s).1
  freshId : ∀ s id, given s id → given (h.freshId s).2 id
  reply : ∀ r s, ((h.reply r) s).Along (fun s s' => ∀ id, given s.host id → given s'.host id)
    (fun s _ s' => ∀ id, given s.host id → given s'.host id) s

/-- While an attempt is running, the identifiers that such a host gives differ from
one that it has given. -/
theorem GivesOnce.abides {given : σ → String → Prop} (hids : h.GivesOnce given)
    (hh : h.Raises E) (id : String) :
    h.Abides (fun b s => b = true ∧ given s id) (· ≠ id) (Raising E) where
  gate a _ s hs := ⟨hs.1, hids.gate a s id hs.2⟩
  freshId b s hs := by
    refine ⟨?_, hs.1, hids.freshId s id hs.2⟩
    rintro rfl
    exact hids.fresh s hs.2
  now _ s hs := ⟨hs.1, hids.now s id hs.2⟩
  reply r s := by
    refine ((hids.reply r s).and (hh r s)).mono ?_ ?_
    · exact fun _ _ hs _ hq => ⟨hq.1, hs.1 id hq.2⟩
    · exact fun _ _ _ hs => ⟨hs.2, fun _ hq => ⟨hq.1, hs.1 id hq.2⟩⟩

private theorem eq_of_toString_eq {n k : Nat} (h : toString n = toString k) : n = k := by
  have hdigits : Nat.toDigits 10 n = Nat.toDigits 10 k := String.ofList_injective h
  rw [← Nat.ofDigitChars_toDigits (b := 10) (n := n) (by decide) (by decide), hdigits,
    Nat.ofDigitChars_toDigits (by decide) (by decide)]

/-- A plain host numbers its identifiers. -/
theorem plain_givesOnce (raises : Request → Option Fault) (refuses : Access → Nat → Option Nat) :
    (plain raises refuses).GivesOnce fun n id => ∃ k < n, id = toString k where
  gate _ _ _ := fun ⟨k, hk, hid⟩ => ⟨k, Nat.lt_succ_of_lt hk, hid⟩
  now _ _ := fun ⟨k, hk, hid⟩ => ⟨k, Nat.lt_succ_of_lt hk, hid⟩
  fresh _ := fun ⟨_, hk, hid⟩ => Nat.ne_of_lt hk (eq_of_toString_eq hid).symm
  noted n := ⟨n, Nat.lt_succ_self n, rfl⟩
  freshId _ _ := fun ⟨k, hk, hid⟩ => ⟨k, Nat.lt_succ_of_lt hk, hid⟩
  reply _ _ := fun _ h => h

end Host

/-! ### Telling -/

/-- Whether a request goes to the observers or to the history. -/
def Request.isTelling : Request → Bool
  | .publish _ | .keepReport _ => true
  | _ => false

/-- The requests with which an attempt ends: its report goes to the observers and, if
it is kept, to the history. -/
def UpdatePlan.conclusion (plan : UpdatePlan) (report : UpdateReport) (duration : Int) :
    List Entry :=
  .asked (.publish (.updateCompleted report.attemptId report.state report.succeeded duration
    report.failureKind)) :: if plan.keepsReports then [.asked (.keepReport report)] else []

namespace Link.Hears

variable {link : Link σ} {plan : UpdatePlan} (hlink : link.Hears q A keep L)

include hlink in
/-- Telling the observers is read as the request and its answer, whatever that is. -/
theorem publish_reads (e : Event) : (Attempt.publish link e).Yields q keep
    (fun _ l => ∃ answer, l = ((Request.publish e).noted answer).filter keep)
    fun _ l => ∃ answer, l = ((Request.publish e).noted answer).filter keep := by
  have hasked : (link.ask (.publish e)).guarded.Yields q keep
      (fun _ l => ∃ answer, l = ((Request.publish e).noted answer).filter keep)
      fun _ l => ∃ answer, l = ((Request.publish e).noted answer).filter keep := by
    refine Yields.guarded ((hlink.ask _).mono (fun x l hl => ⟨.ok x, hl.2⟩) fun fault l hl => ?_)
    split
    · exact ⟨.error fault, hl.2⟩
    · exact ⟨.error fault, hl.2⟩
  refine hasked.bind fun answer l hl => ?_
  cases answer with
  | ok _ => exact yields_pure (by rwa [List.append_nil])
  | error fault =>
    exact yields_say (by rwa [List.append_nil])

include hlink in
/-- Telling something is read as the request alone; its faults are caught. -/
theorem tell_yields {r : Request} (hordinary : ∀ e, L r (.error e) → e.interrupts = false)
    (hanswered : ∀ answer, keep (.answered r answer) = false) :
    (link.ask r).guarded.Yields q keep (fun _ l => l = [Entry.asked r].filter keep)
      fun _ _ => False := by
  have hnoted : ∀ answer, (r.noted answer).filter keep = [Entry.asked r].filter keep :=
    fun answer => by simp [Request.noted, List.filter_cons, hanswered answer]
  refine Yields.guarded ((hlink.ask r).mono ?_ ?_)
  · rintro x l ⟨-, rfl⟩
    exact hnoted _
  · rintro e l ⟨hL, rfl⟩
    rw [if_neg (by simp [hordinary e hL])]
    exact hnoted _

include hlink in
theorem publish_yields {e : Event}
    (hordinary : ∀ fault, L (.publish e) (.error fault) → fault.interrupts = false)
    (hanswered : ∀ answer, keep (.answered (.publish e) answer) = false) :
    (Attempt.publish link e).Yields q keep (fun _ l => l = [Entry.asked (.publish e)].filter keep)
      fun _ _ => False := by
  refine (hlink.tell_yields hordinary hanswered).bind ?_
  rintro (fault | _) l rfl
  · exact yields_say (List.append_nil _)
  · exact yields_pure (List.append_nil _)

variable (hordinary : ∀ r : Request, r.isTelling = true → ∀ e, L r (.error e) → e.interrupts = false)
  (hanswered : ∀ r : Request, r.isTelling = true → ∀ answer, keep (.answered r answer) = false)

include hlink hordinary hanswered

theorem keep_yields (plan : UpdatePlan) (report : UpdateReport) :
    (Attempt.keep link plan report).Yields q keep
      (fun _ l => l = (if plan.keepsReports then [Entry.asked (.keepReport report)] else []).filter
        keep) fun _ _ => False := by
  rw [Attempt.keep]
  split
  · refine (hlink.tell_yields (hordinary _ rfl) (hanswered _ rfl)).bind ?_
    rintro (fault | _) l rfl
    · exact yields_say (List.append_nil _)
    · exact yields_pure (List.append_nil _)
  · exact yields_pure rfl

/-- An attempt ends with its report, told to the observers and kept. -/
theorem finish_yields (a : Attempt) (o : Outcome) (drained : Option DrainReport) :
    (a.finish link plan o drained).Yields q keep
      (fun report l => ∃ completedAt, report = a.report o drained completedAt ∧
        l = (plan.conclusion report (completedAt - a.startedAt)).filter keep)
      fun _ _ => False := by
  refine hlink.time.bind_yields (fun _ he => he) fun completedAt => ?_
  have hend : ∀ report : UpdateReport, report = a.report o drained completedAt → (do
        Attempt.publish link (.updateCompleted report.attemptId report.state report.succeeded
          (completedAt - a.startedAt) report.failureKind)
        Attempt.keep link plan report
        return report).Yields q keep
      (fun report l => ∃ completedAt, report = a.report o drained completedAt ∧
        l = (plan.conclusion report (completedAt - a.startedAt)).filter keep)
      fun _ _ => False := by
    intro report hreport
    refine (hlink.publish_yields (hordinary _ rfl) (hanswered _ rfl)).bind ?_
    rintro - l rfl
    refine (hlink.keep_yields hordinary hanswered plan report).bind ?_
    rintro - l rfl
    refine yields_pure ⟨completedAt, hreport, ?_⟩
    rw [List.append_nil, ← List.filter_append, UpdatePlan.conclusion, List.singleton_append]
  dsimp only
  split
  · exact say_bind_yields (hend _ rfl)
  · exact say_bind_yields (hend _ rfl)

end Link.Hears

end HotSwap
