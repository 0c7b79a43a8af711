/-
A host that takes notes.

It does what it would do anyway, and writes down, one after the other, what it is asked
and what comes back when it cancels the running attempt.

* `Note` — what is noted;
* `Host.noting` — the host that takes notes;
* `Updater.apply_noting` — an update goes the same way with it as without;
* `World.Noted` — a stretch of a running attempt and the notes taken in it;
* `Host.ask_takes` — what is noted when the host is asked something, at every depth.
-/
import HotSwap.Proofs.Interludes
import HotSwap.Proofs.Renewal

namespace HotSwap

open Act

variable {σ α : Type}

/-! ### Taking notes -/

/-- What a host notes. -/
inductive Note where
  /-- It is asked something. -/
  | asked (r : Request)
  /-- It has cancelled the running attempt, or there was none. -/
  | cancelled (hit : Bool)

/-- What is noted of an order when it comes back. -/
def Command.notes : Command → Except Fault Reply → List Note
  | .cancelCurrent, .ok (.flag hit) => [.cancelled hit]
  | _, _ => []

/-- A conduct that takes notes, after the notes taken so far. -/
def Conduct.noting : Conduct (Scene σ) α → List Note → Conduct (Scene (σ × List Note)) α
  | .done result s, notes => .done result { disk := s.disk, host := (s.host, notes) }
  | .order c s resume, notes =>
    .order c { disk := s.disk, host := (s.host, notes) } fun reply s' =>
      (resume reply { disk := s'.disk, host := s'.host.1 }).noting (s'.host.2 ++ c.notes reply)

/-- The host with its notes beside its state. -/
def Host.noting (h : Host σ) : Host (σ × List Note) where
  reply r := fun s =>
    ((h.reply r) { disk := s.disk, host := s.host.1 }).noting (s.host.2 ++ [.asked r])
  gate a s := ((h.gate a s.1).1, (h.gate a s.1).2, s.2)
  freshId s := ((h.freshId s.1).1, (h.freshId s.1).2, s.2)
  now s := ((h.now s.1).1, (h.now s.1).2, s.2)

/-- The world, before any note was taken. -/
def World.noting (w : World σ) : World (σ × List Note) :=
  ⟨w.desk, w.books, w.disk, w.log, w.journal, w.phases, (w.host, [])⟩

/-! ### Notes change nothing -/

/-- A state with notes belongs to the state without. -/
abbrev Note.Beside (s : σ × List Note) (t : σ) : Prop := s.1 = t

theorem Conduct.noting_shadows (before before' : List Entry) (c : Conduct (Scene σ) α)
    (notes : List Note) :
    (c.noting notes).Shadows (.exact Note.Beside before before') (fun x y => HEq x y) c := by
  induction c generalizing notes with
  | done result s => exact .done (Matched.rfl.mono fun _ _ => heq_of_eq) ⟨rfl, rfl⟩
  | order c s resume ih =>
    refine .order (fun _ => id) ⟨rfl, rfl⟩ fun reply reply' s' t' hreply hst => ?_
    obtain rfl := (hreply.mono fun _ _ => Reply.Like.eq).eq
    obtain rfl : ({ disk := s'.disk, host := s'.host.1 } : Scene σ) = t' := by
      obtain ⟨hdisk, hhost⟩ := hst
      cases t'
      exact congr (congrArg Scene.mk hdisk) hhost
    exact ih reply _ _

theorem Host.noting_shadows (h : Host σ) (before before' : List Entry) :
    h.noting.Shadows (.exact Note.Beside before before') h where
  reply := by
    rintro r r' hr ⟨disk, host⟩ ⟨disk', host'⟩ ⟨hdisk, hhost⟩
    obtain rfl := hr.eq
    obtain rfl : disk = disk' := hdisk
    obtain rfl : host.1 = host' := hhost
    exact Conduct.noting_shadows before before' _ _
  gate a s t hst := by
    obtain rfl : s.1 = t := hst
    exact ⟨rfl, rfl⟩
  freshId {s t} hst := by
    obtain rfl : s.1 = t := hst
    exact ⟨.rfl, rfl⟩
  now {s t} hst := by
    obtain rfl : s.1 = t := hst
    exact ⟨.rfl, rfl⟩

/-- An update goes the same way with the notes as without. -/
theorem Updater.apply_noting (h : Host σ) (plan : UpdatePlan) (depth : Nat) {w : World σ}
    (hw : w.desk.AtRest) (raw : Bytes) :
    (apply (h.noting.link (console plan) depth) plan raw).Agree Note.Beside w.noting
      (apply (h.link (console plan) depth) plan raw) w := by
  have hlink : (h.noting.link (console plan) depth).Mirrors
      (.exact Note.Beside w.noting.journal w.journal) (h.link (console plan) depth) :=
    (h.noting_shadows _ _).mirrors_link (Conduct.echo_deep _)
      (fun _ hdeeper => echo_console id hdeeper) depth
  exact apply_agree hlink hw hw rfl rfl rfl rfl raw

/-! ### What is noted while an attempt is running -/

/-- An attempt is running, and there is a token to cancel. -/
def Desk.Cancellable (d : Desk) : Prop := d.engaged = true ∧ d.token.isSome = true

/-- A note that may come between two requests of the running attempt: of a cancellation,
or of a refused update. -/
def Note.Aside : Note → Prop
  | .asked r => r.concludes
  | .cancelled _ => True

/-- An attempt that was cancelled before, or of which a cancellation has been noted. -/
def World.CancelledBy (w : World (σ × List Note)) (ns : List Note) : Prop :=
  w.desk.cancelled = true ∨ ∃ hit, .cancelled hit ∈ ns

/-- A stretch of a running attempt in which notes were taken.  Each cancellation has hit
the attempt, whose token stays cancelled from then on. -/
structure World.Noted (w : World (σ × List Note)) (ns : List Note) (w' : World (σ × List Note)) :
    Prop where
  running : w'.desk.Cancellable
  notes : w'.host.2 = w.host.2 ++ ns
  hits : ∀ hit, .cancelled hit ∈ ns → hit = true
  cancelled : w.CancelledBy ns → w'.desk.cancelled = true

variable {w w' w'' : World (σ × List Note)} {ns ns' : List Note} {Z : Note → Prop}

namespace World

theorem CancelledBy.mono (h : w.CancelledBy ns) (hns : ns ⊆ ns') : w.CancelledBy ns' :=
  h.imp_right fun ⟨hit, hmem⟩ => ⟨hit, hns hmem⟩

/-- A cancellation in the first part of a stretch is known from there on. -/
theorem CancelledBy.of_append (h : w.CancelledBy (ns ++ ns')) (hns : w.Noted ns w') :
    w'.CancelledBy ns' := by
  rcases h with hcancelled | ⟨hit, hmem⟩
  · exact .inl (hns.cancelled (.inl hcancelled))
  · rcases List.mem_append.mp hmem with hmem | hmem
    · exact .inl (hns.cancelled (.inr ⟨hit, hmem⟩))
    · exact .inr ⟨hit, hmem⟩

/-- Where the notes are as before, and the token is at most cancelled. -/
theorem noted_nil {w' : World (σ × List Note)} (hengaged : w'.desk.engaged = true)
    (htoken : TokenKept True w.desk.token w'.desk.token) (hw : w.desk.Cancellable)
    (hnotes : w'.host.2 = w.host.2) : w.Noted [] w' where
  running := by
    refine ⟨hengaged, ?_⟩
    rcases htoken with htoken | ⟨-, htoken⟩ <;> simp [htoken, hw.2]
  notes := by rw [hnotes, List.append_nil]
  hits _ h := by cases h
  cancelled := by
    rintro (hcancelled | ⟨_, h⟩)
    · rw [Desk.cancelled, beq_iff_eq] at hcancelled ⊢
      exact htoken.cancelled hcancelled
    · cases h

theorem Noted.trans (h : w.Noted ns w') (h' : w'.Noted ns' w'') : w.Noted (ns ++ ns') w'' where
  running := h'.running
  notes := by rw [h'.notes, h.notes, List.append_assoc]
  hits hit hmem := (List.mem_append.mp hmem).elim (h.hits hit) (h'.hits hit)
  cancelled hwhy := h'.cancelled (hwhy.of_append h)

/-- While an attempt is running, only notes for which `Z` holds are taken. -/
def Jots (Z : Note → Prop) (w w' : World (σ × List Note)) : Prop :=
  w.desk.Cancellable → ∃ ns, w.Noted ns w' ∧ ∀ n ∈ ns, Z n

theorem jots_of_notes (hengaged : w'.desk.engaged = w.desk.engaged)
    (htoken : TokenKept True w.desk.token w'.desk.token) (hnotes : w'.host.2 = w.host.2) :
    w.Jots Z w' := fun hw =>
  ⟨[], noted_nil (hengaged.trans hw.1) htoken hw hnotes, fun _ h => by cases h⟩

theorem Jots.trans (h : w.Jots Z w') (h' : w'.Jots Z w'') : w.Jots Z w'' := by
  intro hw
  obtain ⟨ns, hns, hZ⟩ := h hw
  obtain ⟨ns', hns', hZ'⟩ := h' hns.running
  exact ⟨ns ++ ns', hns.trans hns', fun n hn => (List.mem_append.mp hn).elim (hZ n) (hZ' n)⟩

end World

instance : Course (World.Jots (σ := σ) Z) where
  refl _ := World.jots_of_notes rfl (.inl rfl) rfl
  trans := World.Jots.trans
  log _ _ := World.jots_of_notes rfl (.inl rfl) rfl
  polls _ _ := World.jots_of_notes rfl (.inl rfl) rfl

/-! ### What is noted when the host is asked something -/

/-- The world with other notes. -/
def World.withNotes (w : World (σ × List Note)) (notes : List Note) : World (σ × List Note) :=
  { w with host := (w.host.1, notes) }

/-- While an attempt is running, an order leaves only notes that may come in between, and
when it comes back as a cancellation, that has hit the attempt. -/
def Command.Heard (c : Command) (reply : Except Fault Reply) (w w' : World (σ × List Note)) :
    Prop :=
  w.Jots Note.Aside w' ∧
    (w.desk.Cancellable → ∀ hit, .cancelled hit ∈ c.notes reply →
      hit = true ∧ w'.desk.cancelled = true)

theorem Command.aside_of_notes {c : Command} {reply : Except Fault Reply} {n : Note}
    (h : n ∈ c.notes reply) : n.Aside := by
  unfold notes at h
  split at h
  · obtain rfl := List.mem_singleton.mp h
    trivial
  · cases h

/-- Nothing is noted of other orders. -/
theorem Command.notes_of_ne {c : Command} (hc : c ≠ .cancelCurrent) (reply : Except Fault Reply) :
    c.notes reply = [] := by
  cases c <;> first | rfl | exact absurd rfl hc

/-- What has come back is noted, too. -/
theorem Command.Heard.jots {c : Command} {reply : Except Fault Reply} (h : c.Heard reply w w') :
    w.Jots Note.Aside (w'.withNotes (w'.host.2 ++ c.notes reply)) := by
  intro hw
  obtain ⟨ns, hns, haside⟩ := h.1 hw
  have hhit := h.2 hw
  have hback : w'.Noted (c.notes reply) (w'.withNotes (w'.host.2 ++ c.notes reply)) :=
    { running := hns.running
      notes := rfl
      hits := fun hit hmem => (hhit hit hmem).1
      cancelled := fun hwhy => hwhy.elim (fun hcancelled => hcancelled)
        fun ⟨hit, hmem⟩ => (hhit hit hmem).2 }
  refine ⟨_, hns.trans hback, fun n hn => (List.mem_append.mp hn).elim (haside n) ?_⟩
  exact Command.aside_of_notes

/-- A conduct leaves only notes that may come in between, if its orders do. -/
theorem Conduct.ends_perform_noting {console : Command → Act (σ × List Note) Reply}
    (hconsole : ∀ c w, (console c).Ends w (fun reply w' => c.Heard (.ok reply) w w')
      fun e w' => c.Heard (.error e) w w')
    (c : Conduct (Scene σ) α) (notes : List Note) (w : World (σ × List Note)) :
    ((c.noting notes).perform console).Ends w
      (fun _ w' => (w.withNotes notes).Jots Note.Aside w')
      fun _ w' => (w.withNotes notes).Jots Note.Aside w' := by
  induction c generalizing notes w with
  | done result s =>
    have hset : (w.withNotes notes).Jots Note.Aside
        { w with disk := s.disk, host := (s.host, notes) } :=
      World.jots_of_notes rfl (.inl rfl) rfl
    cases result with
    | ok x => exact hset
    | error e => exact hset
  | order c s resume ih =>
    -- the scene is set, the order is carried out, and what comes back is noted
    show (setScene _ >>= fun _ => _).Ends w _ _
    rw [ends_bind]
    have hset : (w.withNotes notes).Jots Note.Aside
        { w with disk := s.disk, host := (s.host, notes) } :=
      World.jots_of_notes rfl (.inl rfl) rfl
    have hordered : (console c).outcome.Ends
        { w with disk := s.disk, host := (s.host, notes) }
        (fun reply w₁ => c.Heard reply { w with disk := s.disk, host := (s.host, notes) } w₁)
        fun _ _ => False :=
      ends_outcome.mpr (hconsole c _)
    refine hordered.bind (fun reply w₁ h₁ => ?_) fun _ _ he => he.elim
    rw [ends_bind, ends_look]
    have hbefore := Course.trans hset h₁.jots
    exact (ih reply _ (w₁.host.2 ++ c.notes reply) w₁).mono
      (fun _ _ h => Course.trans hbefore h) fun _ _ h => Course.trans hbefore h

namespace Updater

variable {link : Link (σ × List Note)} {plan : UpdatePlan}

/-- A cancellation hits the running attempt. -/
theorem ends_cancelCurrent_hit (w : World σ) : (cancelCurrent : Act σ Bool).Ends w
    (fun hit w' => w.desk.Cancellable → hit = true ∧ w'.desk.cancelled = true) fun _ _ => True := by
  rw [cancelCurrent, ends_bind, ends_desk]
  split
  · next hnone =>
    rintro ⟨-, hsome⟩
    rw [hnone] at hsome
    cases hsome
  · exact fun _ => ⟨rfl, rfl⟩

/-- While an attempt is running, the orders of the host leave only notes that may come in
between. -/
theorem console_jots (hlink : link.Keeps (World.Jots Note.Aside) (fun _ => True) Request.concludes)
    (c : Command) : (console plan link c).Within (World.Jots Note.Aside) fun _ => True := by
  have hvoid : ∀ w w' : World (σ × List Note), ¬ w.desk.Cancellable → w.Jots Note.Aside w' :=
    fun _ _ hw h => absurd h hw
  have hbusy : ∀ w w' : World (σ × List Note), w.desk.Cancellable → w.Jots Note.Aside w' →
      w'.desk.engaged = true := by
    intro w w' hw h
    obtain ⟨ns, hns, -⟩ := h hw
    exact hns.running.1
  refine console_within_of_parts (fun w _ => World.jots_of_notes rfl (.inl rfl) rfl)
    (fun raw => apply_within_of_refused hvoid hbusy (fun w _ => ?_) fun _ => trivial) c
    fun _ w => World.jots_of_notes rfl (.inr ⟨trivial, rfl⟩) rfl
  refine (Attempt.start_within hlink.newId hlink.time raw w).mono ?_ fun _ _ he => he
  exact fun a _ h => ⟨h, fun o drained => a.finish_within plan o drained hlink.time
    (fun _ _ _ _ => hlink.ask _ trivial) fun _ _ => hlink.ask _ trivial⟩

/-- An order that comes back as a cancellation was one. -/
theorem ends_console_heard
    (hlink : link.Keeps (World.Jots Note.Aside) (fun _ => True) Request.concludes) (c : Command)
    (w : World (σ × List Note)) : (console plan link c).Ends w
      (fun reply w' => c.Heard (.ok reply) w w') fun e w' => c.Heard (.error e) w w' := by
  have hjots : (console plan link c).Ends w (fun _ w' => w.Jots Note.Aside w')
      fun e w' => True ∧ w.Jots Note.Aside w' := console_jots hlink c w
  by_cases hc : c = .cancelCurrent
  · subst hc
    have hhit : (console plan link .cancelCurrent).Ends w
        (fun reply w' => ∃ hit, reply = .flag hit ∧
          (w.desk.Cancellable → hit = true ∧ w'.desk.cancelled = true)) fun _ _ => True :=
      (ends_cancelCurrent_hit w).bind (fun hit w' h => ⟨hit, rfl, h⟩) fun _ _ he => he
    refine (hjots.and hhit).mono ?_ fun e w' he => ⟨he.1.2, fun _ _ hmem => by cases hmem⟩
    rintro reply w' ⟨hjots, hit, rfl, hhit⟩
    refine ⟨hjots, fun hw hit' hmem => ?_⟩
    obtain rfl : hit' = hit := by
      cases List.mem_singleton.mp hmem
      rfl
    exact hhit hw
  · have hnone : ∀ reply, c.notes reply = [] := fun reply => Command.notes_of_ne hc reply
    exact hjots.mono (fun reply _ h => ⟨h, fun _ hit hmem => by rw [hnone] at hmem; cases hmem⟩)
      fun e _ he => ⟨he.2, fun _ hit hmem => by rw [hnone] at hmem; cases hmem⟩

end Updater

/-- While an attempt is running, a request is noted, and then what may come in between. -/
def World.Takes (r : Request) (w w' : World (σ × List Note)) : Prop :=
  w.desk.Cancellable → ∃ ns, w.Noted (.asked r :: ns) w' ∧ ∀ n ∈ ns, n.Aside

namespace Host

variable {h : Host σ} {plan : UpdatePlan}

private theorem ends_exchange_noting {console : Command → Act (σ × List Note) Reply}
    (hconsole : ∀ c w, (console c).Ends w (fun reply w' => c.Heard (.ok reply) w w')
      fun e w' => c.Heard (.error e) w w')
    (r : Request) : (Act.exchange r ((h.noting.reply r).perform console)).Within (World.Takes r)
      fun _ => True := by
  intro w
  have hasked : w.desk.Cancellable → w.Noted [.asked r]
      ((w.enter (.asked r)).withNotes (w.host.2 ++ [.asked r])) := fun hw =>
    { running := hw
      notes := rfl
      hits := fun hit hmem => by cases List.mem_singleton.mp hmem
      cancelled := fun hwhy => hwhy.elim (fun hcancelled => hcancelled)
        fun ⟨hit, hmem⟩ => by cases List.mem_singleton.mp hmem }
  have htakes : ∀ {w₁ : World (σ × List Note)} (answer : Except Fault r.Answer),
      ((w.enter (.asked r)).withNotes (w.host.2 ++ [.asked r])).Jots Note.Aside w₁ →
      w.Takes r (w₁.enter (.answered r answer)) := by
    intro w₁ answer h₁ hw
    obtain ⟨ns, hns, haside⟩ := h₁ (hasked hw).running
    have hanswered : w₁.Noted [] (w₁.enter (.answered r answer)) :=
      World.noted_nil hns.running.1 (.inl rfl) hns.running rfl
    have hall := ((hasked hw).trans hns).trans hanswered
    rw [List.append_nil] at hall
    exact ⟨ns, hall, haside⟩
  rw [ends_exchange, Play.perform, ends_bind, ends_look]
  exact (Conduct.ends_perform_noting hconsole _ _ _).mono (fun x _ h₁ => htakes (.ok x) h₁)
    fun e _ h₁ => ⟨trivial, htakes (.error e) h₁⟩

private theorem choose_jots {γ : Type} (f : σ × List Note → γ × (σ × List Note))
    (hf : ∀ s, (f s).2.2 = s.2) : (Link.choose f).Within (World.Jots Note.Aside) fun _ => True :=
  fun w => World.jots_of_notes rfl (.inl rfl) (hf w.host)

/-- Whatever the host is asked, it is noted first; after that only cancellations are
noted, and how updates that are ordered meanwhile are refused. -/
theorem ask_takes (h : Host σ) (plan : UpdatePlan) (depth : Nat) (r : Request) :
    ((h.noting.link (Updater.console plan) depth).ask r).Within (World.Takes r)
      fun _ => True := by
  induction depth generalizing r with
  | zero =>
    refine ends_exchange_noting (fun c w => ?_) r
    exact ⟨Course.refl w, fun _ _ hmem => by cases c <;> cases hmem⟩
  | succ depth ih =>
    -- one level deeper, only the ends of refused updates are asked for
    have hdeeper : (h.noting.link (Updater.console plan) depth).Keeps (World.Jots Note.Aside)
        (fun _ => True) Request.concludes := by
      refine ⟨fun r hr => (ih r).mono (fun w w' htakes hw => ?_) fun _ => id, ?_, ?_⟩
      · obtain ⟨ns, hns, haside⟩ := htakes hw
        refine ⟨_, hns, fun n hn => ?_⟩
        rcases List.mem_cons.mp hn with rfl | hn
        · exact hr
        · exact haside n hn
      · cases depth <;> exact choose_jots _ fun _ => rfl
      · cases depth <;> exact choose_jots _ fun _ => rfl
    exact ends_exchange_noting (Updater.ends_console_heard hdeeper) r

end Host

end HotSwap
