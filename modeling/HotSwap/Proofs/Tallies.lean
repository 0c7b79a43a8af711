/-
How a drain counts its polls.

A drain counts on the desk how often it has asked whether work is queued.  Whoever else
could set the counter would have to run a drain as well.  Behind a console that leaves
only the token nobody can, nor behind that of an updater while an attempt is running:
there the counter tells how often the journal shows the question.

* `World.Tallied` — the counter has grown by the questions in the journal;
* `Link.Tallies` — whatever is asked through the link, nobody else sets the counter
  (`Host.tallies_link`);
* `Attended` — the consoles, and the worlds, for which all that is so;
* `Link.Tallies.ends_drain` — the polls of a report are the questions in the journal.

Design notes: the other readings of a run do not look at the counter.  `Tallied` does, and
so it is a frame of its own.
-/
import HotSwap.Proofs.Readings

namespace HotSwap

open Act

variable {σ α : Type} {w w' w'' : World σ} {Q : Bool → Prop} {F : Fault → Prop}
  {link : Link σ}

/-- Whether the entry is the question whether work is queued. -/
def Entry.isQuery : Entry → Bool
  | .asked .isDataQueued => true
  | _ => false

/-- How often entries show the question whether work is queued. -/
def queries (es : List Entry) : Nat := es.countP Entry.isQuery

theorem queries_append (es es' : List Entry) : queries (es ++ es') = queries es + queries es' :=
  List.countP_append

/-! ### The frame -/

namespace World

/-- Where `Q` holds of whether an attempt is running it goes on to hold, and the polls on
the desk have grown by the questions in the journal. -/
def Tallied (Q : Bool → Prop) (w w' : World σ) : Prop :=
  Q w.desk.engaged → Q w'.desk.engaged ∧ w.Grown w' ∧
    w'.desk.queuePolls = w.desk.queuePolls + queries (w.since w')

theorem tallied_of_journal (hengaged : w'.desk.engaged = w.desk.engaged)
    (hpolls : w'.desk.queuePolls = w.desk.queuePolls) (hjournal : w'.journal = w.journal) :
    w.Tallied Q w' := fun hQ => by
  refine ⟨hengaged.symm ▸ hQ, grown_of_journal hjournal, ?_⟩
  rw [hpolls, since_of_journal hjournal]
  rfl

theorem tallied_enter {e : Entry} (he : e.isQuery = false) : w.Tallied Q (w.enter e) := fun hQ =>
  ⟨hQ, grown_enter w e, by rw [since_enter, queries]; simp [he, enter]⟩

theorem Tallied.trans (h : w.Tallied Q w') (h' : w'.Tallied Q w'') : w.Tallied Q w'' := fun hQ => by
  obtain ⟨hQ', hgrown, hpolls⟩ := h hQ
  obtain ⟨hQ'', hgrown', hpolls'⟩ := h' hQ'
  refine ⟨hQ'', hgrown.trans hgrown', ?_⟩
  rw [hpolls', hpolls, hgrown.since_trans hgrown', queries_append, Nat.add_assoc]

end World

instance : Frame (World.Tallied (σ := σ) Q) where
  refl _ := World.tallied_of_journal rfl rfl rfl
  trans := World.Tallied.trans
  log _ _ := World.tallied_of_journal rfl rfl rfl

private theorem choose_tallied (f : σ → α × σ) :
    (Link.choose f).Within (World.Tallied Q) F := fun _ => World.tallied_of_journal rfl rfl rfl

/-! ### Links -/

/-- From when a request goes out until its answer, the counter tells the questions in
the journal. -/
def Link.Tallies (link : Link σ) (Q : Bool → Prop) : Prop :=
  ∀ r w, (link.ask r).Ends w (fun _ w' => (w.enter (.asked r)).Tallied Q w')
    fun _ w' => (w.enter (.asked r)).Tallied Q w'

theorem Link.Tallies.ask_within (h : link.Tallies Q) {r : Request}
    (hr : (Entry.asked r).isQuery = false) :
    (link.ask r).Within (World.Tallied Q) fun _ => True := fun w =>
  (h r w).mono (fun _ _ hw => (World.tallied_enter hr).trans hw)
    fun _ _ hw => ⟨trivial, (World.tallied_enter hr).trans hw⟩

namespace Host

theorem tallies_exchange (h : Host σ) {orders : Command → Act σ Reply}
    (horders : ∀ c, (orders c).Within (World.Tallied Q) fun _ => True) (r : Request) (w : World σ) :
    (Act.exchange r ((h.reply r).perform orders)).Ends w
      (fun _ w' => (w.enter (.asked r)).Tallied Q w')
      fun _ w' => (w.enter (.asked r)).Tallied Q w' := by
  have hend : ∀ (w₁ : World σ) (s : Scene σ) (answer : Except Fault r.Answer),
      (w.enter (.asked r)).Tallied Q w₁ → (w.enter (.asked r)).Tallied Q
        (World.enter { w₁ with disk := s.disk, host := s.host } (.answered r answer)) :=
    fun w₁ s answer h₁ => (h₁.trans (World.tallied_of_journal rfl rfl rfl)).trans
      (World.tallied_enter (w := { w₁ with disk := s.disk, host := s.host }) rfl)
  rw [ends_exchange, Play.perform, ends_bind, ends_look]
  refine (Conduct.ends_perform (fun _ _ _ => World.tallied_of_journal rfl rfl rfl) horders
    (h.raises_any r _)).mono ?_ ?_
  · rintro x w' ⟨w₁, s, h₁, -, rfl⟩
    exact hend w₁ s (.ok x) h₁
  · rintro e w' ⟨w₁, s, h₁, -, rfl⟩
    exact hend w₁ s (.error e) h₁

/-- Behind a console whose orders leave the counter alone, however deep. -/
theorem tallies_link (h : Host σ) {console : Link σ → Command → Act σ Reply}
    (hconsole : ∀ link : Link σ, link.Tallies Q → ∀ c,
      (console link c).Within (World.Tallied Q) fun _ => True) (depth : Nat) :
    (h.link console depth).Tallies Q := by
  induction depth with
  | zero => exact h.tallies_exchange fun _ => within_raise trivial
  | succ depth ih => exact h.tallies_exchange (hconsole _ ih)

theorem tallies_token (h : Host σ) (depth : Nat) :
    (h.link tokenConsole depth).Tallies fun _ => True := by
  refine h.tallies_link (fun link _ c => ?_) depth
  cases c with
  | cancelToken =>
    have hcancel : ∀ w : World σ, w.Tallied (fun _ => True)
        { w with desk := { w.desk with token := w.desk.token.map fun _ => true } } :=
      fun _ => World.tallied_of_journal rfl rfl rfl
    exact Within.bind hcancel fun _ => within_pure _
  | _ => exact within_pure _

/-- While an attempt is running no order leads to another drain. -/
theorem tallies_console (h : Host σ) (plan : UpdatePlan) (depth : Nat) :
    (h.link (Updater.console plan) depth).Tallies (· = true) := by
  refine h.tallies_link (fun link hlink c => ?_) depth
  have hvoid : ∀ w w' : World σ, ¬ w.desk.engaged = true → w.Tallied (· = true) w' :=
    fun _ _ hw h => absurd h hw
  refine Updater.console_within_of_parts (fun _ _ => World.tallied_of_journal rfl rfl rfl)
    (fun raw => ?_) c fun _ _ => World.tallied_of_journal rfl rfl rfl
  refine Updater.apply_within_of_refused hvoid (fun _ _ hw h => (h hw).1) (fun w _ => ?_)
    fun _ => trivial
  refine (Attempt.start_within (choose_tallied _) (choose_tallied _) raw w).mono ?_ fun _ _ he => he
  exact fun a _ h => ⟨h, fun o drained => a.finish_within plan o drained (choose_tallied _)
    (fun _ _ _ _ => hlink.ask_within rfl) fun _ _ => hlink.ask_within rfl⟩

end Host

/-! ### Consoles -/

/-- A console and a world in which nobody else drains the flow: the console leaves only
the token, or it is that of an updater, and an attempt is running. -/
inductive Attended : (Link σ → Command → Act σ Reply) → World σ → Prop
  | token (w : World σ) : Attended tokenConsole w
  | updater (plan : UpdatePlan) (w : World σ) (h : w.desk.engaged = true) :
    Attended (Updater.console plan) w

/-- Behind such a console a run is read as it is behind no other, and the counter tells
the questions in the journal. -/
theorem Attended.exists_watch {console : Link σ → Command → Act σ Reply}
    (h : Attended console w) : ∃ Q : Bool → Prop, Q w.desk.engaged ∧
      ∀ (host : Host σ) (depth : Nat), (host.link console depth).Tallies Q ∧
        ∀ (E : Request → Fault → Prop) (keep : Entry → Bool), host.Raises E →
          (∀ e : Entry, e.Murmur (fun _ => True) → keep e = false) →
          (host.link console depth).Hears (fun b _ => Q b) (fun _ => True) keep
            (Host.Raising E) := by
  cases h with
  | token =>
    exact ⟨fun _ => True, trivial, fun host depth => ⟨host.tallies_token depth,
      fun E keep hE _ => (hE.abides fun _ => True).hears_token depth⟩⟩
  | updater plan _ hengaged =>
    exact ⟨(· = true), hengaged, fun host depth => ⟨host.tallies_console plan depth,
      fun E keep hE hdeaf => (hE.abides (· = true)).hears_console (fun _ _ hb => hb) hdeaf plan
        depth⟩⟩

/-! ### The polls of a drain -/

namespace World

/-- From `w` to `w'` it was asked `n` times whether work is queued, and `Q` still holds. -/
structure Queried (Q : Bool → Prop) (w : World σ) (n : Nat) (w' : World σ) : Prop where
  meets : Q w'.desk.engaged
  grown : w.Grown w'
  count : n = queries (w.since w')

theorem queried_self (hw : Q w.desk.engaged) : w.Queried Q 0 w :=
  ⟨hw, .refl w, by rw [since_self]; rfl⟩

theorem Queried.trans {n n' : Nat} (h : w.Queried Q n w') (h' : w'.Queried Q n' w'') :
    w.Queried Q (n + n') w'' where
  meets := h'.meets
  grown := h.grown.trans h'.grown
  count := by rw [h.grown.since_trans h'.grown, queries_append, ← h.count, ← h'.count]

/-- Where nothing is asked about the queues. -/
theorem Queried.silent {n : Nat} (h : w.Queried Q n w')
    (h' : w'.Silent (fun b _ => Q b) Entry.isQuery w'') : w.Queried Q n w'' := by
  obtain ⟨hQ, -, -, hgrown, hnone⟩ := h' h.meets
  have hcount : 0 = queries (w'.since w'') := by
    rw [queries, List.countP_eq_length_filter, hnone, List.length_nil]
  exact h.trans ⟨hQ, hgrown, hcount⟩

end World

namespace Link.Tallies

variable (h : link.Tallies Q)

include h

theorem askQueued_within : (Drain.askQueued link).Within (World.Tallied Q) fun _ => True := by
  intro w
  let counted : World σ := { w with desk := { w.desk with queuePolls := w.desk.queuePolls + 1 } }
  have hasked : w.Tallied Q (counted.enter (.asked .isDataQueued)) := fun hQ =>
    ⟨hQ, World.grown_enter w _, congrArg (w.desk.queuePolls + queries ·)
      (World.since_enter w (.asked .isDataQueued)).symm⟩
  exact (h .isDataQueued counted).mono (fun _ _ hw => hasked.trans hw)
    fun _ _ hw => ⟨trivial, hasked.trans hw⟩

/-- Waiting until nothing is queued tells how often it was asked. -/
theorem ends_awaitEmpty (budget : Budget) (listens : Bool) (hw : Q w.desk.engaged) :
    (Drain.awaitEmpty link budget listens).Ends w (fun r w' => w.Queried Q r.2 w')
      fun _ _ => True := by
  rw [Drain.awaitEmpty, ends_bind, ends_changeDesk]
  have hloop : (pollUntil link budget listens (Drain.askQueued link) fun queued =>
      return !queued).Within (World.Tallied Q) fun _ => True :=
    pollUntil_within (fun _ => h.ask_within rfl) budget listens h.askQueued_within
      fun _ => within_pure _
  refine (hloop.caught _).bind ?_ fun _ _ _ => trivial
  intro answer w₁ h₁
  -- the counter has started from zero
  obtain ⟨hQ₁, hgrown, hpolls⟩ := h₁ hw
  rw [Nat.zero_add] at hpolls
  rcases answer with fault | _ | residual
  · exact ⟨hQ₁, hgrown, hpolls⟩
  · exact ⟨hQ₁, hgrown, hpolls⟩
  · dsimp only
    split
    · exact ⟨hQ₁, hgrown, hpolls⟩
    · exact ⟨hQ₁, hgrown, hpolls⟩

/-- The polls that a drain reports are the questions in the journal. -/
theorem ends_drain {A : String → Prop} {L : (r : Request) → Except Fault r.Answer → Prop}
    (hlink : link.Hears (fun b _ => Q b) A Entry.isQuery L) (plan : DrainPlan) (listens : Bool)
    (hw : Q w.desk.engaged) :
    (drain link plan listens).Ends w (fun report w' => report.polls = queries (w.since w'))
      fun _ _ => True := by
  have hkeeps : link.Keeps (World.Silent (fun b _ => Q b) Entry.isQuery) (fun _ => True)
      fun r => r.isDrain = true ∧ r.isLooped = false :=
    ⟨fun r hr => hlink.ask_within (by cases r <;> first | rfl | cases hr.2) (fun _ => rfl)
      fun _ _ => trivial, hlink.newId_within, hlink.time_within⟩
  have hhalt := hkeeps.mono fun _ => Request.isDrain_of_isHalt
  have hend : ∀ (graceful : Bool) (polls : Nat) (sourcesStopped : List String) (w₁ : World σ),
      w.Queried Q polls w₁ → (do
        Drain.stopProcessing link
        let endpointsTimedOut ← Drain.stopTransmission link plan.stopTimeout
        return { graceful, polls, sourcesStopped, endpointsTimedOut : DrainReport }).Ends w₁
        (fun report w' => report.polls = queries (w.since w')) fun _ _ => True := by
    intro graceful polls sourcesStopped w₁ h₁
    refine Ends.bind (Drain.stopProcessing_within hhalt w₁) ?_ fun _ _ _ => trivial
    intro _ w₂ h₂
    refine Ends.bind (Drain.stopTransmission_within hhalt _ w₂) ?_ fun _ _ _ => trivial
    exact fun _ w₃ h₃ => ((h₁.silent h₂).silent h₃).count
  have hsay : ∀ {level : Level} {event : String} {fields : List (String × Data)},
      (Drain.say level event fields : Act σ Unit).Within
        (World.Silent (fun b _ => Q b) Entry.isQuery) fun _ => True := within_say
  refine Ends.bind (hsay w) ?_ fun _ _ _ => trivial
  intro _ w₁ h₁
  refine Ends.bind (Drain.stopSources_within hkeeps w₁) ?_ fun _ _ _ => trivial
  intro sourcesStopped w₂ h₂
  have hbefore : w.Queried Q 0 w₂ := ((World.queried_self hw).silent h₁).silent h₂
  refine Ends.bind (h.ends_awaitEmpty plan.budget listens hbefore.meets) ?_ fun _ _ _ => trivial
  rintro ⟨graceful, polls⟩ w₃ h₃
  have hpolled : w.Queried Q polls w₃ := Nat.zero_add polls ▸ hbefore.trans h₃
  dsimp only
  split
  · refine Ends.bind (hsay w₃) ?_ fun _ _ _ => trivial
    exact fun _ w₄ h₄ => hend _ _ _ w₄ (hpolled.silent h₄)
  · refine Ends.bind (Drain.force_within hhalt plan.budget polls w₃) ?_ fun _ _ _ => trivial
    exact fun _ w₄ h₄ => hend _ _ _ w₄ (hpolled.silent h₄)

end Link.Tallies

end HotSwap
