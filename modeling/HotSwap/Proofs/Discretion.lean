/-
What a host can do to the files of a running attempt.

A host that spares the four files can still turn round while it is asked, and order
updates, cancellations and submissions.  While an attempt is running all of that
leaves the files, the books and the phase alone: an update that is ordered meanwhile
is refused, and is told about through the same host, one level deeper.

* `FilePaths.Kept`, `FilePaths.Discreet` — the frame of what happens meanwhile;
* `Conduct.Along` — a conduct of which every step and the end keep to a rule;
* `Updater.console_within` — the orders of a host stay within what its updates stay
  within, and that is the frame while an attempt is running;
* `Host.ends_ask` — how a request ends, at whatever depth of orders.
-/
import HotSwap.Proofs.Accesses
import HotSwap.Proofs.Stretches
import HotSwap.Update.Updater

namespace HotSwap

open Act

variable {σ β α : Type} {p : FilePaths} {view : σ → β} {w w' w'' : World σ}

/-! ### The frame -/

namespace FilePaths

/-- The four files, the books and a view of the host are as before, and the journal
has grown by talk. -/
structure Kept (p : FilePaths) (view : σ → β) (w w' : World σ) : Prop where
  contents : p.contents w'.disk = p.contents w.disk
  books : w'.books = w.books
  host : view w'.host = view w.host
  grown : w.Grown w'
  talk : ∀ e ∈ w.since w', e.Talk

theorem Kept.refl (p : FilePaths) (view : σ → β) (w : World σ) : p.Kept view w w where
  contents := rfl
  books := rfl
  host := rfl
  grown := .refl w
  talk e he := by
    rw [World.since_self] at he
    cases he

theorem Kept.trans (h : p.Kept view w w') (h' : p.Kept view w' w'') : p.Kept view w w'' where
  contents := h'.contents.trans h.contents
  books := h'.books.trans h.books
  host := h'.host.trans h.host
  grown := h.grown.trans h'.grown
  talk e he := by
    rw [h.grown.since_trans h'.grown] at he
    rcases List.mem_append.mp he with he | he
    · exact h.talk e he
    · exact h'.talk e he

/-- Neither the desk nor the log matters. -/
theorem Kept.aside (h : p.Kept view w w') (desk : Desk) (log : Array Record) :
    p.Kept view w { w' with desk, log } :=
  ⟨h.contents, h.books, h.host, h.grown, h.talk⟩

/-- One entry of talk. -/
theorem Kept.enter (h : p.Kept view w w') {e : Entry} (he : e.Talk) :
    p.Kept view w (w'.enter e) where
  contents := h.contents
  books := h.books
  host := h.host
  grown := h.grown.trans (World.grown_enter w' e)
  talk e' he' := by
    rw [h.grown.since_trans (World.grown_enter w' e), World.since_enter] at he'
    rcases List.mem_append.mp he' with he' | he'
    · exact h.talk e' he'
    · obtain rfl := List.mem_singleton.mp he'
      exact he

/-- While an attempt is running, it goes on in the same phase and its files are
kept. -/
def Discreet (p : FilePaths) (view : σ → β) (w w' : World σ) : Prop :=
  w.desk.engaged = true →
    w'.desk.engaged = true ∧ w'.desk.phase = w.desk.phase ∧ p.Kept view w w'

theorem Discreet.trans (h : p.Discreet view w w') (h' : p.Discreet view w' w'') :
    p.Discreet view w w'' := fun hengaged => by
  obtain ⟨hengaged', hphase, hkept⟩ := h hengaged
  obtain ⟨hengaged'', hphase', hkept'⟩ := h' hengaged'
  exact ⟨hengaged'', hphase'.trans hphase, hkept.trans hkept'⟩

/-- Changes of the desk that leave the running attempt and its phase alone. -/
theorem discreet_desk (p : FilePaths) (view : σ → β) (w : World σ) (desk : Desk)
    (hengaged : desk.engaged = w.desk.engaged) (hphase : desk.phase = w.desk.phase)
    (log : Array Record) : p.Discreet view w { w with desk, log } := fun h =>
  ⟨hengaged.trans h, hphase, (Kept.refl p view w).aside _ _⟩

instance : Course (p.Discreet view) where
  refl w := discreet_desk p view w w.desk rfl rfl w.log
  trans := Discreet.trans
  log w log := discreet_desk p view w w.desk rfl rfl log
  polls w n := discreet_desk p view w { w.desk with queuePolls := n } rfl rfl w.log

end FilePaths

private theorem choose_within (f : σ → α × σ) (hf : ∀ s, view (f s).2 = view s) {F : Fault → Prop} :
    (Link.choose f).Within (p.Discreet view) F := fun w hengaged =>
  ⟨hengaged, rfl, rfl, rfl, hf _, .refl w, (FilePaths.Kept.refl p view w).talk⟩

theorem Link.Steady.newId_within {link : Link σ} (h : link.Steady view) (p : FilePaths)
    {F : Fault → Prop} : link.newId.Within (p.Discreet view) F :=
  choose_within _ h.freshId

theorem Link.Steady.time_within {link : Link σ} (h : link.Steady view) (p : FilePaths)
    {F : Fault → Prop} : link.time.Within (p.Discreet view) F :=
  choose_within _ h.now

/-! ### Conducts -/

/-- Every step of a conduct keeps to `M`, and its end to `L`. -/
def Conduct.Along {S : Type} (M : S → S → Prop) (L : S → Except Fault α → S → Prop) :
    S → Conduct S α → Prop
  | s, .done result s' => L s result s'
  | s, .order _ s' resume => M s s' ∧ ∀ reply s'', Along M L s'' (resume reply s'')

namespace Conduct

variable {S : Type} {M M' : S → S → Prop} {L L' : S → Except Fault α → S → Prop} {s : S}
  {c : Conduct S α}

theorem Along.mono (h : Along M L s c) (hM : ∀ s s', M s s' → M' s s')
    (hL : ∀ s r s', L s r s' → L' s r s') : Along M' L' s c := by
  induction c generalizing s with
  | done result s' => exact hL _ _ _ h
  | order command s' resume ih => exact ⟨hM _ _ h.1, fun reply s'' => ih reply s'' (h.2 reply s'')⟩

theorem Along.and (h : Along M L s c) (h' : Along M' L' s c) :
    Along (fun s s' => M s s' ∧ M' s s') (fun s r s' => L s r s' ∧ L' s r s') s c := by
  induction c generalizing s with
  | done result s' => exact ⟨h, h'⟩
  | order command s' resume ih =>
    exact ⟨⟨h.1, h'.1⟩, fun reply s'' => ih reply s'' (h.2 reply s'') (h'.2 reply s'')⟩

/-- A conduct whose steps and orders stay within `R` ends within `R` of where it
began, but for its last step. -/
theorem ends_perform {R : World σ → World σ → Prop} [Frame R]
    {M : Scene σ → Scene σ → Prop} {L : Scene σ → Except Fault α → Scene σ → Prop}
    {console : Command → Act σ Reply} {c : Conduct (Scene σ) α}
    (hM : ∀ w s, M (World.scene w) s → R w { w with disk := s.disk, host := s.host })
    (hconsole : ∀ command, (console command).Within R fun _ => True)
    (hc : Along M L w.scene c) :
    (c.perform console).Ends w
      (fun x w' => ∃ w₁ s, R w w₁ ∧ L w₁.scene (.ok x) s ∧
        w' = { w₁ with disk := s.disk, host := s.host })
      (fun e w' => ∃ w₁ s, R w w₁ ∧ L w₁.scene (.error e) s ∧
        w' = { w₁ with disk := s.disk, host := s.host }) := by
  induction c generalizing w with
  | done result s =>
    cases result with
    | ok x => exact ⟨w, s, Frame.refl w, hc, rfl⟩
    | error e => exact ⟨w, s, Frame.refl w, hc, rfl⟩
  | order command s resume ih =>
    have hscene : (setScene s : Act σ Unit).Ends w (fun _ w₁ => R w w₁) fun _ _ => False :=
      hM w s hc.1
    -- a step of the host, its order, and then the rest of the conduct
    refine hscene.bind ?_ fun _ _ he => he.elim
    rintro - w₁ h₁
    have hordered : (console command).outcome.Ends w₁ (fun _ w₂ => R w₁ w₂) fun _ _ => False :=
      ends_outcome.mpr ((hconsole command w₁).mono (fun _ _ => id) fun _ _ => And.right)
    refine hordered.bind ?_ fun _ _ he => he.elim
    rintro reply w₂ h₂
    have h₁₂ := Frame.trans h₁ h₂
    refine (ends_bind _).mpr ((ih reply w₂.scene (hc.2 reply w₂.scene)).mono ?_ ?_)
    · rintro x w' ⟨w₃, s', h₃, hL, rfl⟩
      exact ⟨w₃, s', Frame.trans h₁₂ h₃, hL, rfl⟩
    · rintro e w' ⟨w₃, s', h₃, hL, rfl⟩
      exact ⟨w₃, s', Frame.trans h₁₂ h₃, hL, rfl⟩

end Conduct

/-! ### Orders -/

/-- Whether an order cancels the running attempt. -/
def Command.cancels : Command → Bool
  | .cancelToken | .cancelCurrent => true
  | _ => false

namespace Updater

section

variable {link : Link σ} {plan : UpdatePlan} {R : World σ → World σ → Prop} [Frame R]

/-- Where an attempt is running, any other is refused, and only told about: it stays
within a relation that promises nothing elsewhere. -/
theorem apply_within_of_refused {busy : World σ → Prop} {F : Fault → Prop}
    (hvoid : ∀ w w', ¬ busy w → R w w') (hbusy : ∀ w w', busy w → R w w' →
      w'.desk.engaged = true) {raw : Bytes}
    (hstart : ∀ w, busy w → (Attempt.start link raw).Ends w
      (fun a w' => R w w' ∧ ∀ o drained, (a.finish link plan o drained).Within R F)
      (fun e w' => F e ∧ R w w'))
    (hF : ∀ e, F e) : (apply link plan raw).Within R F := by
  intro w
  by_cases hw : busy w
  · refine Ends.bind (hstart w hw) ?_ fun _ _ he => he
    rintro a w₁ ⟨h₁, hfinish⟩
    rw [ends_bind, ends_desk, if_pos (hbusy w w₁ hw h₁)]
    refine ((within_record.bind fun _ => hfinish refused none) w₁).mono ?_ ?_
    · exact fun _ _ => Frame.trans h₁
    · exact fun _ _ he => ⟨he.1, Frame.trans h₁ he.2⟩
  · exact .of_forall (fun _ w' => hvoid w w' hw) fun e w' => ⟨hF e, hvoid w w' hw⟩

variable (hqueue : ∀ (w : World σ) (waiting : List Bytes),
    R w { w with desk := { w.desk with waiting } })
  (happly : ∀ raw, (apply link plan raw).Within R fun _ => True)

include hqueue happly

theorem work_within : (work link plan).Within R fun _ => True := by
  refine (within_look _).bind fun desk => ?_
  split
  · exact within_pure _
  · next raw rest _ =>
    refine Within.bind (fun w => hqueue w rest) fun _ => ?_
    exact (happly raw).outcome.bind fun _ => within_pure _

/-- An order of a host cancels the token or changes the queue of the desk, or leads to an
update. -/
theorem console_within_of_parts (command : Command)
    (hcancel : command.cancels = true → ∀ w : World σ,
      R w { w with desk := { w.desk with token := w.desk.token.map fun _ => true } }) :
    (console plan link command).Within R fun _ => True := by
  cases command with
  | cancelToken => exact Within.bind (fun w => hcancel rfl w) fun _ => within_pure _
  | cancelCurrent =>
    have hcurrent : (cancelCurrent : Act σ Bool).Within R fun _ => True := by
      intro w
      rw [cancelCurrent, ends_bind, ends_desk]
      split
      · exact Frame.refl w
      · next cancelled htoken =>
        -- the token is there, so that setting it is cancelling it
        have hcut : ∀ log : Array Record, R { w with log }
            { w with log, desk := { w.desk with token := some true } } := by
          intro log
          have h := hcancel rfl { w with log }
          rwa [show ({ w with log } : World σ).desk.token = some cancelled from htoken] at h
        exact Frame.trans (Frame.log w _) (hcut _)
    exact hcurrent.bind fun _ => within_pure _
  | askPhase => exact (within_look _).bind fun _ => within_pure _
  | apply raw => exact (happly raw).bind fun _ => within_pure _
  | update raw =>
    have hupdate : (update link plan raw).Within R fun _ => True :=
      (happly raw).bind fun _ => within_pure _
    exact hupdate.bind fun _ => within_pure _
  | submit raw => exact Within.bind (fun w => hqueue w _) fun _ => within_pure _
  | work =>
    refine (work_within hqueue happly).bind fun result => ?_
    rcases result with _ | fault | report
    · exact within_pure _
    · exact within_raise trivial
    · exact within_pure _

omit hqueue happly in
/-- Where neither the token nor the queue matters. -/
theorem console_within (hdesk : ∀ (w : World σ) (desk : Desk), desk.engaged = w.desk.engaged →
      desk.phase = w.desk.phase → desk.drained = w.desk.drained → R w { w with desk })
    (happly : ∀ raw, (apply link plan raw).Within R fun _ => True) (command : Command) :
    (console plan link command).Within R fun _ => True :=
  console_within_of_parts (fun w waiting => hdesk w { w.desk with waiting } rfl rfl rfl) happly
    command fun _ w => hdesk w { w.desk with token := w.desk.token.map fun _ => true } rfl rfl rfl

end

/-- The orders of a host stay within the frame of a running attempt. -/
theorem console_within_discreet {link : Link σ} {plan : UpdatePlan}
    (hlink : link.Keeps (p.Discreet view) (fun _ => True) fun r => r.isQuiet = true)
    (command : Command) : (console plan link command).Within (p.Discreet view) fun _ => True := by
  refine console_within (fun w desk hengaged hphase _ =>
    p.discreet_desk view w desk hengaged hphase w.log) (fun raw => ?_) command
  have hvoid : ∀ w w' : World σ, ¬ w.desk.engaged = true → p.Discreet view w w' :=
    fun _ _ hw h => absurd h hw
  refine apply_within_of_refused hvoid (fun _ _ hw h => (h hw).1) (fun w _ => ?_)
    fun _ => trivial
  refine (Attempt.start_within hlink.newId hlink.time raw w).mono ?_ fun _ _ he => he
  exact fun a _ h => ⟨h, fun o drained => a.finish_within plan o drained hlink.time
    (fun _ _ _ _ => hlink.ask _ rfl) fun _ _ => hlink.ask _ rfl⟩

end Updater

/-! ### Hosts -/

/-- The four files and a view of the host are as before. -/
def FilePaths.Calm (p : FilePaths) (view : σ → β) (s s' : Scene σ) : Prop :=
  p.contents s'.disk = p.contents s.disk ∧ view s'.host = view s.host

/-- A host that keeps to a rule: its small choices and whatever it does before an
answer leave the four files and a view of it alone, its answers come about as `L`
says, and those to quiet requests leave both alone as well. -/
structure Host.Follows (h : Host σ) (p : FilePaths) (view : σ → β)
    (L : (r : Request) → Scene σ → Except Fault r.Answer → Scene σ → Prop) : Prop where
  gate : ∀ a s, view (h.gate a s).2 = view s
  freshId : ∀ s, view (h.freshId s).2 = view s
  now : ∀ s, view (h.now s).2 = view s
  reply : ∀ r s, ((h.reply r) s).Along (p.Calm view) (L r) s
  quiet : ∀ r, r.isQuiet = true → ∀ s answer s', L r s answer s' → p.Calm view s s'

namespace Host

variable {h : Host σ} {plan : UpdatePlan}
  {L : (r : Request) → Scene σ → Except Fault r.Answer → Scene σ → Prop}

/-- Where the orders of a host go that is asked through the link of some depth. -/
def consoleAt (h : Host σ) (plan : UpdatePlan) : (depth : Nat) → Command → Act σ Reply
  | 0 => fun _ => Act.raise tooDeep
  | depth + 1 => Updater.console plan (h.link (Updater.console plan) depth)

theorem ask_link (h : Host σ) (plan : UpdatePlan) (depth : Nat) (r : Request) :
    (h.link (Updater.console plan) depth).ask r =
      Act.exchange r ((h.reply r).perform (h.consoleAt plan depth)) := by
  cases depth <;> rfl

theorem steady_link (hh : h.Follows p view L) (depth : Nat) :
    (h.link (Updater.console plan) depth).Steady view := by
  cases depth <;> exact ⟨hh.gate, hh.freshId, hh.now⟩

theorem discreet_scene {s : Scene σ} (h : p.Calm view (World.scene w) s) :
    p.Discreet view w { w with disk := s.disk, host := s.host } := fun hengaged =>
  ⟨hengaged, rfl, h.1, rfl, h.2, .refl w, (FilePaths.Kept.refl p view w).talk⟩

/-- How a request ends, if the orders on the way stay within the frame. -/
private theorem ends_ask_of_console (hh : h.Follows p view L) {depth : Nat}
    (hconsole : ∀ c, (h.consoleAt plan depth c).Within (p.Discreet view) fun _ => True)
    (r : Request) (w : World σ) :
    ((h.link (Updater.console plan) depth).ask r).Ends w
      (fun x w' => ∃ w₁ s, p.Discreet view (w.enter (.asked r)) w₁ ∧
        L r w₁.scene (.ok x) s ∧
        w' = World.enter { w₁ with disk := s.disk, host := s.host } (.answered r (.ok x)))
      (fun e w' => ∃ w₁ s, p.Discreet view (w.enter (.asked r)) w₁ ∧
        L r w₁.scene (.error e) s ∧
        w' = World.enter { w₁ with disk := s.disk, host := s.host } (.answered r (.error e))) := by
  rw [ask_link, ends_exchange, Play.perform, ends_bind, ends_look]
  refine (Conduct.ends_perform (fun w s => discreet_scene) hconsole (hh.reply r _)).mono ?_ ?_
  · rintro x w' ⟨w₁, s, h₁, hL, rfl⟩
    exact ⟨w₁, s, h₁, hL, rfl⟩
  · rintro e w' ⟨w₁, s, h₁, hL, rfl⟩
    exact ⟨w₁, s, h₁, hL, rfl⟩

/-- An exchange stays within the frame, if what comes between does. -/
theorem discreet_exchange {r : Request} (hr : r.isEnrich = false) {w₁ : World σ}
    (h₁ : p.Discreet view (w.enter (.asked r)) w₁) (answer : Except Fault r.Answer) :
    p.Discreet view w (w₁.enter (.answered r answer)) := by
  intro hengaged
  obtain ⟨hengaged₁, hphase₁, hkept₁⟩ := h₁ hengaged
  have hasked : p.Kept view w (w.enter (.asked r)) := (FilePaths.Kept.refl p view w).enter hr
  exact ⟨hengaged₁, hphase₁, (hasked.trans hkept₁).enter hr⟩

private theorem quiet_within_of_console (hh : h.Follows p view L) {depth : Nat}
    (hconsole : ∀ c, (h.consoleAt plan depth c).Within (p.Discreet view) fun _ => True)
    {r : Request} (hr : r.isQuiet = true) :
    ((h.link (Updater.console plan) depth).ask r).Within (p.Discreet view) fun _ => True := by
  intro w
  refine (ends_ask_of_console hh hconsole r w).mono ?_ ?_
  · rintro x w' ⟨w₁, s, h₁, hL, rfl⟩
    have hcalm := hh.quiet r hr _ _ _ hL
    exact discreet_exchange (Request.isEnrich_of_isQuiet hr) (h₁.trans (discreet_scene hcalm)) _
  · rintro e w' ⟨w₁, s, h₁, hL, rfl⟩
    have hcalm := hh.quiet r hr _ _ _ hL
    exact ⟨trivial,
      discreet_exchange (Request.isEnrich_of_isQuiet hr) (h₁.trans (discreet_scene hcalm)) _⟩

/-- The orders of a host stay within the frame, however deep. -/
theorem consoleAt_within (hh : h.Follows p view L) (depth : Nat) (c : Command) :
    (h.consoleAt plan depth c).Within (p.Discreet view) fun _ => True := by
  -- one level deeper, orders go through a link at which the frame is known to hold
  induction depth generalizing c with
  | zero => exact within_raise trivial
  | succ depth ih =>
    exact Updater.console_within_discreet ⟨fun r hr => quiet_within_of_console hh ih hr,
      (steady_link hh depth).newId_within p, (steady_link hh depth).time_within p⟩ c

/-- How a request ends: within the frame, but for the last step of the host. -/
theorem ends_ask (hh : h.Follows p view L) (plan : UpdatePlan) (depth : Nat) (r : Request)
    (w : World σ) :
    ((h.link (Updater.console plan) depth).ask r).Ends w
      (fun x w' => ∃ w₁ s, p.Discreet view (w.enter (.asked r)) w₁ ∧
        L r w₁.scene (.ok x) s ∧
        w' = World.enter { w₁ with disk := s.disk, host := s.host } (.answered r (.ok x)))
      (fun e w' => ∃ w₁ s, p.Discreet view (w.enter (.asked r)) w₁ ∧
        L r w₁.scene (.error e) s ∧
        w' = World.enter { w₁ with disk := s.disk, host := s.host } (.answered r (.error e))) :=
  ends_ask_of_console hh (consoleAt_within hh depth) r w

/-- How a request ends whose answer leaves the files and the view alone. -/
theorem ends_ask_calm (hh : h.Follows p view L) (plan : UpdatePlan) (depth : Nat) {r : Request}
    {F : Fault → Prop}
    (hL : ∀ s answer s', L r s answer s' → p.Calm view s s' ∧ ∀ e, answer = .error e → F e)
    (w : World σ) :
    ((h.link (Updater.console plan) depth).ask r).Ends w
      (fun x w' => ∃ w₁, p.Discreet view (w.enter (.asked r)) w₁ ∧
        w' = w₁.enter (.answered r (.ok x)))
      (fun e w' => F e ∧ ∃ w₁, p.Discreet view (w.enter (.asked r)) w₁ ∧
        w' = w₁.enter (.answered r (.error e))) := by
  refine (ends_ask hh plan depth r w).mono ?_ ?_
  · rintro x w' ⟨w₁, s, h₁, hs, rfl⟩
    exact ⟨_, h₁.trans (discreet_scene (hL _ _ _ hs).1), rfl⟩
  · rintro e w' ⟨w₁, s, h₁, hs, rfl⟩
    obtain ⟨hcalm, hF⟩ := hL _ _ _ hs
    exact ⟨hF e rfl, _, h₁.trans (discreet_scene hcalm), rfl⟩

/-- Such a request stays within the frame, unless it is for an enrichment. -/
theorem ask_within (hh : h.Follows p view L) (plan : UpdatePlan) (depth : Nat) {r : Request}
    (hr : r.isEnrich = false) {F : Fault → Prop}
    (hL : ∀ s answer s', L r s answer s' → p.Calm view s s' ∧ ∀ e, answer = .error e → F e) :
    ((h.link (Updater.console plan) depth).ask r).Within (p.Discreet view) F := by
  intro w
  refine (ends_ask_calm hh plan depth hL w).mono ?_ ?_
  · rintro x w' ⟨w₁, h₁, rfl⟩
    exact discreet_exchange hr h₁ _
  · rintro e w' ⟨he, w₁, h₁, rfl⟩
    exact ⟨he, discreet_exchange hr h₁ _⟩

end Host
end HotSwap
