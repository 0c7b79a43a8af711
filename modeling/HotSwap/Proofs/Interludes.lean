/-
What happens while the updater waits for an answer.

On the way to an answer a host may do what it likes with its own state, and order what
it likes.  While an attempt is running none of that reaches the attempt itself: its
phase, its books and its drain stay, its token can at most be cancelled, and all that
the journal shows is how refused updates are told about.

* `Interlude` — the frame, with a view of the disk that the host leaves alone and the
  entries that may come;
* `World.Waits` — the frame, while an attempt is running;
* `Conduct.Orders`, `Host.Orders` — what a conduct may order;
* `Host.Leaves` — hosts that leave a view of the disk alone;
* `Host.Leaves.ask_waits` — every request is such an interlude, at every depth.
-/
import HotSwap.Proofs.Readings

namespace HotSwap

open Act

variable {σ α β : Type} {view : Disk → β} {Z : Entry → Prop} {cuts : Prop} {w w' w'' : World σ}

/-! ### The frame -/

/-- A token is as before, or, if `cuts`, it has been cancelled. -/
def TokenKept (cuts : Prop) (t t' : Option Bool) : Prop :=
  t' = t ∨ cuts ∧ t' = t.map fun _ => true

theorem TokenKept.trans {t t' t'' : Option Bool} (h : TokenKept cuts t t')
    (h' : TokenKept cuts t' t'') : TokenKept cuts t t'' := by
  rcases h' with rfl | ⟨hcuts, rfl⟩
  · exact h
  · rcases h with rfl | ⟨-, rfl⟩
    · exact .inr ⟨hcuts, rfl⟩
    · exact .inr ⟨hcuts, by cases t <;> rfl⟩

/-- A token that has been cancelled stays so. -/
theorem TokenKept.cancelled {t t' : Option Bool} (h : TokenKept cuts t t') (ht : t = some true) :
    t' = some true := by
  rcases h with rfl | ⟨-, rfl⟩
  · exact ht
  · rw [ht]
    rfl

/-- The running attempt is as it was, the disk as the view shows it is too, and the
journal has grown by entries of `Z`. -/
structure Interlude (view : Disk → β) (Z : Entry → Prop) (cuts : Prop) (w w' : World σ) :
    Prop where
  engaged : w'.desk.engaged = true
  phase : w'.desk.phase = w.desk.phase
  drained : w'.desk.drained = w.desk.drained
  token : TokenKept cuts w.desk.token w'.desk.token
  books : w'.books = w.books
  disk : view w'.disk = view w.disk
  grown : w.Grown w'
  entries : ∀ e ∈ w.since w', Z e

theorem Interlude.trans (h : Interlude view Z cuts w w') (h' : Interlude view Z cuts w' w'') :
    Interlude view Z cuts w w'' where
  engaged := h'.engaged
  phase := h'.phase.trans h.phase
  drained := h'.drained.trans h.drained
  token := h.token.trans h'.token
  books := h'.books.trans h.books
  disk := h'.disk.trans h.disk
  grown := h.grown.trans h'.grown
  entries e he := by
    rw [h.grown.since_trans h'.grown] at he
    exact (List.mem_append.mp he).elim (h.entries e) (h'.entries e)

namespace World

/-- As long as an attempt is running, there is only an interlude. -/
def Waits (view : Disk → β) (Z : Entry → Prop) (cuts : Prop) (w w' : World σ) : Prop :=
  w.desk.engaged = true → Interlude view Z cuts w w'

/-- What leaves the running attempt, the disk and the journal alone. -/
theorem waits_of_journal (hengaged : w'.desk.engaged = w.desk.engaged)
    (hphase : w'.desk.phase = w.desk.phase) (hdrained : w'.desk.drained = w.desk.drained)
    (htoken : TokenKept cuts w.desk.token w'.desk.token) (hbooks : w'.books = w.books)
    (hdisk : view w'.disk = view w.disk) (hjournal : w'.journal = w.journal) :
    w.Waits view Z cuts w' := fun h =>
  { engaged := hengaged.trans h
    phase := hphase
    drained := hdrained
    token := htoken
    books := hbooks
    disk := hdisk
    grown := grown_of_journal hjournal
    entries := fun e he => by simp [since_of_journal hjournal] at he }

theorem waits_enter (w : World σ) {e : Entry} (he : Z e) : w.Waits view Z cuts (w.enter e) :=
  fun h =>
  { engaged := h
    phase := rfl
    drained := rfl
    token := .inl rfl
    books := rfl
    disk := rfl
    grown := grown_enter w e
    entries := fun e' he' => by
      rw [since_enter] at he'
      rwa [List.mem_singleton.mp he'] }

theorem Waits.trans (h : w.Waits view Z cuts w') (h' : w'.Waits view Z cuts w'') :
    w.Waits view Z cuts w'' := fun hengaged =>
  (h hengaged).trans (h' (h hengaged).engaged)

end World

instance : Course (World.Waits (σ := σ) view Z cuts) where
  refl _ := World.waits_of_journal rfl rfl rfl (.inl rfl) rfl rfl rfl
  trans := World.Waits.trans
  log _ _ := World.waits_of_journal rfl rfl rfl (.inl rfl) rfl rfl rfl
  polls _ _ := World.waits_of_journal rfl rfl rfl (.inl rfl) rfl rfl rfl

/-- The small choices of the host do not touch the attempt. -/
theorem choose_waits (f : σ → α × σ) {F : Fault → Prop} :
    (Link.choose f).Within (World.Waits view Z cuts) F := fun _ =>
  World.waits_of_journal rfl rfl rfl (.inl rfl) rfl rfl rfl

/-! ### Orders -/

/-- What is told of the end of any attempt. -/
abbrev Request.concludes (r : Request) : Prop := r.Concludes fun _ => True

/-- An entry about the end of any attempt. -/
abbrev Entry.murmurs (e : Entry) : Prop := e.Murmur fun _ => True

namespace Updater

variable {link : Link σ} {plan : UpdatePlan}

/-- Ending an attempt that does not hold the desk. -/
theorem finish_waits (hlink : ∀ r : Request, r.concludes →
    (link.ask r).Within (World.Waits view Z cuts) fun _ => True) (a : Attempt) (o : Outcome)
    (drained : Option DrainReport) :
    (a.finish link plan o drained).Within (World.Waits view Z cuts) fun _ => True :=
  a.finish_within plan o drained (choose_waits _) (fun _ _ _ _ => hlink _ trivial)
    fun _ _ => hlink _ trivial

/-- An update that is ordered while another one is running is refused, and told about. -/
theorem apply_waits (hlink : ∀ r : Request, r.concludes →
    (link.ask r).Within (World.Waits view Z cuts) fun _ => True) (raw : Bytes) :
    (apply link plan raw).Within (World.Waits view Z cuts) fun _ => True := by
  have hvoid : ∀ w w' : World σ, ¬ w.desk.engaged = true → w.Waits view Z cuts w' :=
    fun _ _ hw h => absurd h hw
  refine apply_within_of_refused hvoid (fun _ _ hw h => (h hw).engaged) (fun w _ => ?_)
    fun _ => trivial
  refine (Attempt.start_within (choose_waits _) (choose_waits _) raw w).mono ?_ fun _ _ he => he
  exact fun a _ h => ⟨h, fun o drained => finish_waits hlink a o drained⟩

/-- So are all orders; those that cancel come only if `cuts`. -/
theorem console_waits (hlink : ∀ r : Request, r.concludes →
    (link.ask r).Within (World.Waits view Z cuts) fun _ => True) (c : Command)
    (hc : c.cancels = true → cuts) :
    (console plan link c).Within (World.Waits view Z cuts) fun _ => True :=
  console_within_of_parts (fun _ _ => World.waits_of_journal rfl rfl rfl (.inl rfl) rfl rfl rfl)
    (apply_waits hlink) c fun hcancels _ =>
      World.waits_of_journal rfl rfl rfl (.inr ⟨hc hcancels, rfl⟩) rfl rfl rfl

end Updater

/-! ### Conducts -/

/-- Every order of a conduct is one of `P`. -/
def Conduct.Orders {S : Type} (P : Command → Prop) : Conduct S α → Prop
  | .done _ _ => True
  | .order c _ resume => P c ∧ ∀ reply s, (resume reply s).Orders P

theorem Conduct.orders_of_forall {S : Type} {P : Command → Prop} (hP : ∀ c, P c)
    (c : Conduct S α) : c.Orders P := by
  induction c with
  | done result s => trivial
  | order c s resume ih => exact ⟨hP c, fun reply s => ih reply s⟩

/-- A console matters for the orders of a conduct only. -/
theorem Conduct.perform_congr {P : Command → Prop} {console console' : Command → Act σ Reply}
    (hP : ∀ c, P c → console c = console' c) {c : Conduct (Scene σ) α} (h : c.Orders P) :
    c.perform console = c.perform console' := by
  induction c with
  | done result s => rfl
  | order c s resume ih =>
    simp only [perform, hP c h.1]
    congr 1
    funext _
    congr 1
    funext reply
    congr 1
    funext s'
    exact ih reply s' (h.2 reply s')

namespace Host

variable {h : Host σ} {plan : UpdatePlan}

/-- Whatever the host does on the way to an answer leaves a view of the disk alone. -/
def Leaves (h : Host σ) (view : Disk → β) : Prop :=
  ∀ r s, ((h.reply r) s).Along (fun s s' => view s'.disk = view s.disk)
    (fun s _ s' => view s'.disk = view s.disk) s

/-- Nothing is left of the disk to be touched. -/
theorem leaves_nothing (h : Host σ) : h.Leaves fun _ => () := by
  intro r s
  generalize (h.reply r) s = c
  induction c generalizing s with
  | done result s' => rfl
  | order command s' resume ih => exact ⟨rfl, fun reply s'' => ih reply s'' s''⟩

/-- Hosts that do nothing of their own leave the whole disk alone. -/
theorem plain_leaves {raises : Request → Option Fault} {refuses : Access → Nat → Option Nat}
    (view : Disk → β) : (plain raises refuses).Leaves view := fun _ _ => rfl

/-- The host orders nothing but `P` when it is asked something of `S`. -/
def Orders (h : Host σ) (S : Request → Prop) (P : Command → Prop) : Prop :=
  ∀ r, S r → ∀ s, ((h.reply r) s).Orders P

theorem orders_any (h : Host σ) (S : Request → Prop) : h.Orders S fun c => c.cancels = true → True :=
  fun _ _ _ => Conduct.orders_of_forall (fun _ _ => trivial) _

/-- A request is an interlude, if the orders on the way to the answer are. -/
theorem Leaves.exchange_waits (hh : h.Leaves view) {console : Command → Act σ Reply}
    (hconsole : ∀ c, (c.cancels = true → cuts) →
      (console c).Within (World.Waits view Z cuts) fun _ => True) {r : Request}
    (horders : ∀ s, ((h.reply r) s).Orders fun c => c.cancels = true → cuts)
    (hasked : Z (.asked r)) (hanswered : ∀ answer, Z (.answered r answer)) :
    (Act.exchange r ((h.reply r).perform console)).Within (World.Waits view Z cuts)
      fun _ => True := by
  classical
  intro w
  -- orders that never come may as well go nowhere
  let heard : Command → Act σ Reply := fun c =>
    if c.cancels = true → cuts then console c else pure .done
  have hheard : ∀ c, (heard c).Within (World.Waits view Z cuts) fun _ => True := by
    intro c
    by_cases hc : c.cancels = true → cuts
    · simpa only [heard, if_pos hc] using hconsole c hc
    · simpa only [heard, if_neg hc] using within_pure _
  have hscene : ∀ {w : World σ} {s : Scene σ}, view s.disk = view w.disk →
      w.Waits view Z cuts { w with disk := s.disk, host := s.host } := fun hs =>
    World.waits_of_journal rfl rfl rfl (.inl rfl) rfl hs rfl
  have hsame : ∀ s, ((h.reply r) s).perform console = ((h.reply r) s).perform heard := fun s =>
    Conduct.perform_congr (fun c hc => (if_pos hc).symm) (horders s)
  rw [ends_exchange, Play.perform, ends_bind, ends_look, hsame]
  have hasked' : w.Waits view Z cuts (w.enter (.asked r)) := World.waits_enter w hasked
  refine (Conduct.ends_perform (fun w s hs => hscene hs) hheard (hh r _)).mono ?_ ?_
  · rintro x w' ⟨w₁, s, h₁, hs, rfl⟩
    exact hasked'.trans (h₁.trans ((hscene hs).trans (World.waits_enter _ (hanswered _))))
  · rintro e w' ⟨w₁, s, h₁, hs, rfl⟩
    exact ⟨trivial,
      hasked'.trans (h₁.trans ((hscene hs).trans (World.waits_enter _ (hanswered _))))⟩

/-- Whatever a host that leaves a view of the disk alone is asked, it is an interlude, and
its orders are, however deep. -/
theorem Leaves.ask_waits (hh : h.Leaves view) (hZ : ∀ e : Entry, e.murmurs → Z e)
    (hcuts : h.Orders Request.concludes fun c => c.cancels = true → cuts) (depth : Nat)
    {r : Request} (horders : ∀ s, ((h.reply r) s).Orders fun c => c.cancels = true → cuts)
    (hasked : Z (.asked r)) (hanswered : ∀ answer, Z (.answered r answer)) :
    ((h.link (Updater.console plan) depth).ask r).Within (World.Waits view Z cuts)
      fun _ => True := by
  induction depth generalizing r with
  | zero => exact hh.exchange_waits (fun _ _ => within_raise trivial) horders hasked hanswered
  | succ depth ih =>
    -- one level deeper, only the ends of refused updates are told
    refine hh.exchange_waits (fun c hc => Updater.console_waits (fun r hr => ?_) c hc) horders
      hasked hanswered
    exact ih (hcuts r hr) (hZ _ hr) fun _ => hZ _ hr

end Host
end HotSwap
