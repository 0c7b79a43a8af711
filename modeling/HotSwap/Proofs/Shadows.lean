/-
Two hosts that go alike, and the links to them.

A conduct of one host shadows a conduct of another if both turn to the updater with
the same orders and come to the same answer, where the first may also order updates
that are refused.

* `Conduct.Shadows` — the one conduct, beside the other;
* `Updater.console_tracks` — the orders of two hosts are carried out alike while an
  attempt is running;
* `Conduct.perform_pairs` — so are two conducts;
* `Host.Shadows`, `Host.Shadows.mirrors_link` — links to two hosts of which one shadows the
  other answer alike, at every depth;
* `Resting`, `Updater.apply_pairs` — and from worlds at rest an update goes alike.
-/
import HotSwap.Proofs.Completions
import HotSwap.Proofs.Lockstep

namespace HotSwap

open Act

variable {σ τ α β : Type} {κ : Comparison σ τ} {p : Phase} {link : Link σ} {link' : Link τ}
  {plan : UpdatePlan} {keeps : Bool}

/-! ### Orders -/

/-- The end of an update that was refused because another one is running. -/
structure UpdateReport.Busy (r : UpdateReport) : Prop where
  state : r.state = .rejected
  failedPhase : r.failedPhase = some .idle
  failureKind : r.failureKind = some .busy

/-- Whether an order is one for an update. -/
def Command.isUpdate : Command → Bool
  | .apply _ | .update _ | .work => true
  | _ => false

/-- What may come back from an order for an update while an attempt is running: the
update was refused, or nothing was waiting, or orders were nested too deep. -/
inductive Command.Refusal : Command → Except Fault Reply → Prop
  | apply (raw : Bytes) {r : UpdateReport} (h : r.Busy) : Refusal (.apply raw) (.ok (.report r))
  | update (raw : Bytes) : Refusal (.update raw) (.ok (.flag false))
  | work {r : UpdateReport} (h : r.Busy) : Refusal .work (.ok (.report r))
  | idle : Refusal .work (.ok .done)
  | deep {c : Command} : Refusal c (.error tooDeep)

namespace Updater

section

variable (h : link.Accords κ plan keeps link')

include h

/-- While an attempt is running, any other is refused in both worlds. -/
theorem apply_tracks (raw : Bytes) : Tracks (Twins κ p) (apply link plan raw)
    (apply link' (plan.keeping keeps) raw) (UpdateReport.Like κ.loose) := by
  refine (Attempt.start_tracks h raw).bind fun a a' ha => tracks_look_bind fun w v hwv => ?_
  rw [if_pos hwv.engaged, if_pos hwv.engaged']
  exact (record_tracks _ _).then fun _ => Attempt.finish_tracks h ha refused none

theorem update_tracks (raw : Bytes) :
    Tracks (Twins κ p) (update link plan raw) (update link' (plan.keeping keeps) raw) Eq :=
  (apply_tracks h raw).bind fun _ _ hreport => tracks_pure hreport.succeeded

omit h in
theorem cancelCurrent_tracks :
    Tracks (Twins κ p) (cancelCurrent : Act σ Bool) (cancelCurrent : Act τ Bool) Eq := by
  refine tracks_look_bind fun w v hwv => ?_
  have hcancel : Tracks (Twins κ p)
      (changeDesk fun d => { d with token := some true } : Act σ Unit)
      (changeDesk fun d => { d with token := some true } : Act τ Unit) Eq :=
    pairs_change fun _ _ hwv => { hwv with token := .inl rfl }
  have hsome := hwv.token.isSome_eq
  cases ht : w.desk.token with
  | none =>
    cases ht' : v.desk.token with
    | none => exact tracks_pure rfl
    | some cancelled' => simp [ht, ht'] at hsome
  | some cancelled =>
    cases ht' : v.desk.token with
    | none => simp [ht, ht'] at hsome
    | some cancelled' =>
      exact say_tracks.then fun _ => hcancel.then fun _ => tracks_pure rfl

omit h in
theorem submit_tracks (raw : Bytes) :
    Tracks (Twins κ p) (submit raw : Act σ Unit) (submit raw : Act τ Unit) Eq :=
  pairs_change fun _ _ hwv =>
    { hwv with waiting := fun hloose => congrArg (· ++ [raw]) (hwv.waiting hloose) }

theorem work_tracks (hloose : ¬ κ.loose) : Tracks (Twins κ p) (work link plan)
    (work link' (plan.keeping keeps)) fun r r' => r.elim (r' = none) fun x => ∃ x', r' = some x' ∧
      Matched (UpdateReport.Like κ.loose) x x' := by
  refine tracks_look_bind fun w v hwv => ?_
  rw [hwv.waiting hloose]
  cases v.desk.waiting with
  | nil => exact tracks_pure rfl
  | cons raw rest =>
    have htake : Tracks (Twins κ p) (changeDesk fun d => { d with waiting := rest } : Act σ Unit)
        (changeDesk fun d => { d with waiting := rest } : Act τ Unit) Eq :=
      pairs_change fun _ _ hwv => { hwv with waiting := fun _ => rfl }
    refine htake.then fun _ => (apply_tracks h raw).outcome.bind fun x x' hx => ?_
    exact tracks_pure ⟨x', rfl, hx⟩

/-- The orders of a host are carried out alike while an attempt is running. -/
theorem console_tracks (c : Command) (hc : c = .work → ¬ κ.loose) :
    Tracks (Twins κ p) (console plan link c) (console (plan.keeping keeps) link' c)
      (Reply.Like κ.loose) := by
  cases c with
  | cancelToken =>
    have hcancel : Tracks (Twins κ p)
        (changeDesk fun d => { d with token := d.token.map fun _ => true } : Act σ Unit)
        (changeDesk fun d => { d with token := d.token.map fun _ => true } : Act τ Unit) Eq :=
      pairs_change fun _ _ hwv => { hwv with token := hwv.token.cancelled }
    exact hcancel.then fun _ => tracks_pure .rfl
  | cancelCurrent => exact cancelCurrent_tracks.then fun _ => tracks_pure .rfl
  | askPhase =>
    refine tracks_look_bind fun w v hwv => ?_
    rw [hwv.phase, hwv.phase']
    exact tracks_pure .rfl
  | apply raw => exact (apply_tracks h raw).bind fun _ _ hr => tracks_pure (.report hr)
  | update raw => exact (update_tracks h raw).then fun _ => tracks_pure .rfl
  | submit raw => exact (submit_tracks raw).then fun _ => tracks_pure .rfl
  | work =>
    refine (work_tracks h (hc rfl)).bind fun r r' hr => ?_
    cases r with
    | none =>
      obtain rfl : r' = none := hr
      exact tracks_pure .rfl
    | some x =>
      obtain ⟨x', rfl, hx⟩ := hr
      cases hx with
      | ok hreport => exact tracks_pure (.report hreport)
      | error fault => exact tracks_raise fault

end

end Updater

/-! ### Conducts -/

/-- Two scenes with the same disk, and states of the hosts that belong together. -/
structure Comparison.Scenes (κ : Comparison σ τ) (s : Scene σ) (t : Scene τ) : Prop where
  disk : s.disk = t.disk
  host : κ.host s.host t.host

/-- The scene that a conduct makes first. -/
def Conduct.first {S : Type} : Conduct S α → S
  | .done _ s => s
  | .order _ s _ => s

/-- A conduct beside another one: the same orders and the same end; but the first may
also order updates that are refused, and go on as if it had not. -/
inductive Conduct.Shadows (κ : Comparison σ τ) (V : α → β → Prop) :
    Conduct (Scene σ) α → Conduct (Scene τ) β → Prop
  | done {x : Except Fault α} {y : Except Fault β} {s : Scene σ} {t : Scene τ}
      (hend : Matched V x y) (hst : κ.Scenes s t) : Shadows κ V (.done x s) (.done y t)
  | order {c : Command} {s : Scene σ} {t : Scene τ}
      {resume : Except Fault Reply → Scene σ → Conduct (Scene σ) α}
      {resume' : Except Fault Reply → Scene τ → Conduct (Scene τ) β}
      (hc : c = .work → ¬ κ.loose) (hst : κ.Scenes s t)
      (hresume : ∀ reply reply' s' t', Matched (Reply.Like κ.loose) reply reply' →
        κ.Scenes s' t' → Shadows κ V (resume reply s') (resume' reply' t')) :
      Shadows κ V (.order c s resume) (.order c t resume')
  | aside {c : Command} {s : Scene σ}
      {resume : Except Fault Reply → Scene σ → Conduct (Scene σ) α}
      {other : Conduct (Scene τ) β} (hloose : κ.loose) (hc : c.isUpdate = true)
      (hst : κ.Scenes s other.first)
      (hresume : ∀ reply s', c.Refusal reply → κ.Scenes s' other.first →
        Shadows κ V (resume reply s') other) :
      Shadows κ V (.order c s resume) other

namespace Conduct

/-- Two consoles to which hosts turn in two runs: the same orders are carried out
alike, and updates that only the first run orders are refused without a trace. -/
structure Echo (κ : Comparison σ τ) (console : Command → Act σ Reply)
    (console' : Command → Act τ Reply) : Prop where
  both : ∀ {p} c, (c = .work → ¬ κ.loose) →
    Tracks (Twins κ p) (console c) (console' c) (Reply.Like κ.loose)
  aside : ∀ {p} c {w v}, κ.loose → c.isUpdate = true → Twins κ p w v →
    c.Refusal ((console c).run w).1 ∧ Twins κ p ((console c).run w).2 v

/-- A conduct makes its first scene before anything else. -/
private theorem perform_first {console : Command → Act σ Reply} (c : Conduct (Scene σ) α)
    (w : World σ) :
    (c.perform console).run { w with disk := c.first.disk, host := c.first.host } =
      (c.perform console).run w := by
  cases c <;> rfl

variable {console : Command → Act σ Reply} {console' : Command → Act τ Reply}
  {V : α → β → Prop}

theorem perform_pairs (hconsole : Echo κ console console') {c : Conduct (Scene σ) α}
    {c' : Conduct (Scene τ) β} (h : Shadows κ V c c') :
    Tracks (Twins κ p) (c.perform console) (c'.perform console') V := by
  have hset : ∀ {s : Scene σ} {t : Scene τ}, κ.Scenes s t →
      Tracks (Twins κ p) (setScene s) (setScene t) Eq := fun hst =>
    pairs_change fun _ _ hwv => { hwv with disk := hst.disk, host := hst.host }
  induction h with
  | done hend hst =>
    exact (hset hst).then fun _ => pairs_ofExcept hend fun _ _ => id
  | order hc hst _ ih =>
    refine (hset hst).then fun _ => (hconsole.both _ hc).outcome.bind fun reply reply' hreply => ?_
    exact tracks_look_bind fun w v hwv => ih reply reply' _ _ hreply ⟨hwv.disk, hwv.host⟩
  | @aside c s resume other hloose hc hst _ ih =>
    intro w v hwv
    -- the second run makes its next scene, while the first carries out the order
    rw [← perform_first other v]
    have hscene : Twins κ p { w with disk := s.disk, host := s.host }
        { v with disk := other.first.disk, host := other.first.host } :=
      { hwv with disk := hst.disk, host := hst.host }
    obtain ⟨hrefusal, htwins⟩ := hconsole.aside c hloose hc hscene
    exact ih _ _ hrefusal ⟨htwins.disk, htwins.host⟩ htwins

end Conduct

/-! ### Hosts -/

/-- A host that goes alike with another one. -/
structure Host.Shadows (κ : Comparison σ τ) (h : Host σ) (h' : Host τ) : Prop where
  reply : ∀ {r r'}, Request.Like κ.loose r r' → ∀ {s t}, κ.Scenes s t →
    (h.reply r s).Shadows κ (fun x y => HEq x y) (h'.reply r' t)
  gate : ∀ a {s t}, κ.host s t →
    (h.gate a s).1 = (h'.gate a t).1 ∧ κ.host (h.gate a s).2 (h'.gate a t).2
  freshId : ∀ {s t}, κ.host s t → Loosely κ.loose (h.freshId s).1 (h'.freshId t).1 ∧
    κ.host (h.freshId s).2 (h'.freshId t).2
  now : ∀ {s t}, κ.host s t → Loosely κ.loose (h.now s).1 (h'.now t).1 ∧
    κ.host (h.now s).2 (h'.now t).2

namespace Host

variable {h : Host σ} {h' : Host τ}

/-- Two hosts are asked alike, if their conducts go alike. -/
theorem exchange_tracks {r r' : Request} (hreply : ∀ {s t}, κ.Scenes s t →
      (h.reply r s).Shadows κ (fun x y => HEq x y) (h'.reply r' t))
    {console : Command → Act σ Reply} {console' : Command → Act τ Reply}
    (hconsole : Conduct.Echo κ console console') (hr : Request.Like κ.loose r r') :
    Tracks (Twins κ p) (Act.exchange r ((h.reply r).perform console))
      (Act.exchange r' ((h'.reply r').perform console')) fun x y => HEq x y :=
  Pairs.exchange (fun _ _ hwv => hwv.enter (.asked hr))
    (tracks_look_bind fun _ _ hwv =>
      Conduct.perform_pairs hconsole (hreply ⟨hwv.disk, hwv.host⟩)).pairs
    fun _ _ _ _ hanswer hwv => hwv.enter (.answered hr hanswer)

theorem Shadows.exchange_tracks (hh : h.Shadows κ h') {console : Command → Act σ Reply}
    {console' : Command → Act τ Reply} (hconsole : Conduct.Echo κ console console')
    {r r' : Request} (hr : Request.Like κ.loose r r') :
    Tracks (Twins κ p) (Act.exchange r ((h.reply r).perform console))
      (Act.exchange r' ((h'.reply r').perform console')) fun x y => HEq x y :=
  Host.exchange_tracks (hh.reply hr) hconsole hr

/-- Links to two hosts that go alike answer alike, if their consoles do so at every
depth. -/
theorem Shadows.mirrors_link (hh : h.Shadows κ h') {console : Link σ → Command → Act σ Reply}
    {console' : Link τ → Command → Act τ Reply}
    (hdeep : Conduct.Echo κ (fun _ => Act.raise tooDeep) fun _ => Act.raise tooDeep)
    (hconsole : ∀ depth, (h.link console depth).Mirrors κ (h'.link console' depth) →
      Conduct.Echo κ (console (h.link console depth)) (console' (h'.link console' depth)))
    (depth : Nat) : (h.link console depth).Mirrors κ (h'.link console' depth) := by
  induction depth with
  | zero => exact ⟨hh.exchange_tracks hdeep, hh.gate, hh.freshId, hh.now⟩
  | succ depth ih => exact ⟨hh.exchange_tracks (hconsole depth ih), hh.gate, hh.freshId, hh.now⟩

end Host

/-- At the bottom every order is refused. -/
theorem Conduct.echo_deep (κ : Comparison σ τ) :
    Conduct.Echo κ (fun _ => Act.raise tooDeep) fun _ => Act.raise tooDeep where
  both _ _ := tracks_raise tooDeep
  aside _ _ _ _ _ hwv := ⟨.deep, hwv⟩

/-- Where no run holds updates that the other lacks, the consoles of an updater go
alike. -/
theorem Updater.echo_console (hloose : ¬ κ.loose) (h : link.Mirrors κ link') :
    Conduct.Echo κ (console plan link) (console plan link') where
  both c hc := console_tracks (h.accords plan) c hc
  aside _ _ _ hl := absurd hl hloose

/-! ### From worlds at rest -/

/-- Two worlds in which no attempt is running, and from which an attempt goes alike. -/
structure Resting (κ : Comparison σ τ) (w : World σ) (v : World τ) : Prop where
  atRest : w.desk.AtRest
  atRest' : v.desk.AtRest
  waiting : ¬ κ.loose → w.desk.waiting = v.desk.waiting
  books : w.books = v.books
  disk : w.disk = v.disk
  host : κ.host w.host v.host
  journal : κ.journal w.journal v.journal

namespace Updater

theorem engage_pairs : Pairs (Resting κ) (engage : Act σ Unit) (engage : Act τ Unit) Eq
    (Twins κ .idle) :=
  pairs_change fun _ _ hwv =>
    { engaged := rfl
      engaged' := rfl
      phase := hwv.atRest.2.1
      phase' := hwv.atRest'.2.1
      token := .inl rfl
      polls := rfl
      drained := rfl
      waiting := hwv.waiting
      books := hwv.books
      disk := hwv.disk
      host := hwv.host
      journal := hwv.journal }

theorem release_pairs : Pairs (Attempt.TwinsSomewhere κ) (release : Act σ Unit)
    (release : Act τ Unit) Eq (Resting κ) :=
  pairs_change fun _ _ ⟨_, hwv⟩ =>
    { atRest := ⟨rfl, rfl, rfl⟩
      atRest' := ⟨rfl, rfl, rfl⟩
      waiting := hwv.waiting
      books := hwv.books
      disk := hwv.disk
      host := hwv.host
      journal := hwv.journal }

/-- An update from two worlds at rest goes alike, and leaves both at rest. -/
theorem apply_pairs (h : link.Accords κ plan keeps link') (raw : Bytes) :
    Pairs (Resting κ) (apply link plan raw) (apply link' (plan.keeping keeps) raw)
      (UpdateReport.Like κ.loose) (Resting κ) := by
  have hchoose : ∀ {γ : Type} {f : σ → γ × σ} {g : τ → γ × τ},
      (∀ {s t}, κ.host s t → Loosely κ.loose (f s).1 (g t).1 ∧ κ.host (f s).2 (g t).2) →
      Tracks (Resting κ) (Link.choose f) (Link.choose g) (Loosely κ.loose) := fun hfg =>
    pairs_choose fun _ _ hwv => ⟨(hfg hwv.host).1, { hwv with host := (hfg hwv.host).2 }⟩
  have hstart : Tracks (Resting κ) (Attempt.start link raw) (Attempt.start link' raw)
      (Attempt.Like κ.loose) :=
    (hchoose h.freshId).bind fun _ _ hid => (hchoose h.now).bind fun _ _ htime =>
      tracks_pure ⟨hid, rfl, rfl, htime⟩
  refine hstart.bind fun a a' ha => tracks_look_bind fun w v hwv => ?_
  rw [if_neg (by simp [hwv.atRest.1]), if_neg (by simp [hwv.atRest'.1])]
  -- the desk is taken, and given back whichever way the attempt ends
  intro w v hwv
  have htaken := engage_pairs hwv
  exact Pairs.ensuring (attempt_pairs h ha rfl raw) release_pairs htaken.2

end Updater
end HotSwap
