/-
One update at a time.

Updates may be ordered from all sides and at any time, also by the host while it is being
asked something.  One of them runs; the others are sent away, and do not disturb it.

* `Updater.turnstile` — the console that sends every update away;
* `Updater.echo_turnstile` — while an attempt is running it does what the usual one does;
* `Host.besieged` — a host that orders updates at every opportunity;
* `Host.Shadows.besieged`, `Updater.apply_besieged` — it goes alike with the same host without
  these orders, and so does an update;
* `Updater.SingleFlight` — what is to be had from updates ordered at the same time;
* `Updater.singleFlight` — and that is had.
-/
import HotSwap.Proofs.Traffic

namespace HotSwap

open Act

variable {σ τ α β : Type} {κ : Comparison σ τ} {link : Link σ} {link' : Link τ}
  {plan : UpdatePlan} {w : World σ}

/-! ### Sent away -/

namespace Updater

/-- Refuses an update, without a look at the desk. -/
def sendAway (link : Link σ) (plan : UpdatePlan) (raw : Bytes) : Act σ UpdateReport := do
  let a ← Attempt.start link raw
  a.say .warning "Flow configuration update already in progress, refusing concurrent update" []
  a.finish link plan refused none

/-- Carries out an order of the host; every update is sent away. -/
def turnstile (plan : UpdatePlan) (link : Link σ) : Command → Act σ Reply
  | .apply raw => return .report (← sendAway link plan raw)
  | .update raw => return .flag (← sendAway link plan raw).succeeded
  | .work => do
    match (← Act.desk).waiting with
    | [] => return .done
    | raw :: rest =>
      Act.changeDesk fun d => { d with waiting := rest }
      match ← (sendAway link plan raw).outcome with
      | .ok report => return .report report
      | .error fault => Act.raise fault
  | c => console plan link c

section

variable {E : Fault → World σ → Prop} (hbusy : w.desk.engaged = true)

include hbusy

/-- While an attempt is running, an update is sent away. -/
theorem ends_apply_iff_sendAway (raw : Bytes) {P : UpdateReport → World σ → Prop} :
    (apply link plan raw).Ends w P E ↔ (sendAway link plan raw).Ends w P E := by
  rw [ends_apply_of_engaged hbusy, sendAway, ends_bind (a := Attempt.start link raw)]
  rfl

/-- So are all that are ordered. -/
theorem ends_console_iff_turnstile (c : Command) {P : Reply → World σ → Prop} :
    (console plan link c).Ends w P E ↔ (turnstile plan link c).Ends w P E := by
  cases c with
  | apply raw =>
    rw [console, turnstile, ends_bind, ends_bind, ends_apply_iff_sendAway hbusy]
  | update raw =>
    rw [console, turnstile, update, ends_bind, ends_bind, ends_bind,
      ends_apply_iff_sendAway hbusy]
    rfl
  | work =>
    rw [console, turnstile, work, ends_bind, ends_bind, ends_bind, ends_desk, ends_desk]
    cases w.desk.waiting with
    | nil => rfl
    | cons raw rest =>
      have htaken : ({ w with desk := { w.desk with waiting := rest } } : World σ).desk.engaged =
          true := hbusy
      dsimp only
      rw [ends_bind, ends_changeDesk, ends_bind, ends_bind, ends_changeDesk, ends_bind,
        ends_outcome, ends_outcome, ends_apply_iff_sendAway htaken]
      rfl
  | _ => rfl

theorem run_console_eq_turnstile (c : Command) :
    (console plan link c).run w = (turnstile plan link c).run w :=
  run_eq_of_ends fun _ _ => (ends_console_iff_turnstile hbusy c).mpr

end

/-- So while an attempt is running it does not matter whether updates find the desk taken, or
are sent away at once. -/
theorem echo_turnstile (hloose : ¬ κ.loose) (h : link.Mirrors κ link') :
    Conduct.Echo κ (console plan link) (turnstile plan link') where
  both c hc := fun w v hwv => by
    rw [← run_console_eq_turnstile hwv.engaged' c]
    exact console_tracks (h.accords plan) c hc hwv
  aside _ _ _ hl := absurd hl hloose

end Updater

/-! ### Besieged hosts -/

namespace Conduct

/-- Orders updates one after the other, whatever comes of them. -/
def knock (raws : List Bytes) (s : Scene σ) (k : Scene σ → Conduct (Scene σ) α) :
    Conduct (Scene σ) α :=
  match raws with
  | [] => k s
  | raw :: raws => .order (.apply raw) s fun _ s' => knock raws s' k

/-- The same conduct, with updates ordered before each of its orders, and before it ends. -/
def besieged (raws : List Bytes) : Conduct (Scene σ) α → Conduct (Scene σ) α
  | .done result s => knock raws s fun s' => .done result s'
  | .order c s resume => knock raws s fun s' =>
    .order c s' fun reply s'' => (resume reply s'').besieged raws

theorem knock_shadows {V : α → β → Prop} (hloose : κ.loose) {other : Conduct (Scene τ) β}
    {k : Scene σ → Conduct (Scene σ) α}
    (hk : ∀ s, κ.Scenes s other.first → (k s).Shadows κ V other) (raws : List Bytes) {s : Scene σ}
    (hs : κ.Scenes s other.first) : (knock raws s k).Shadows κ V other := by
  induction raws generalizing s with
  | nil => exact hk s hs
  | cons raw raws ih => exact .aside hloose rfl hs fun _ _ _ hs' => ih hs'

/-- The updates in between do not count. -/
theorem Shadows.besieged {V : α → β → Prop} (hloose : κ.loose) {c : Conduct (Scene σ) α}
    {c' : Conduct (Scene τ) β} (h : c.Shadows κ V c') (raws : List Bytes) :
    (c.besieged raws).Shadows κ V c' := by
  induction h with
  | done hend hst => exact knock_shadows hloose (fun _ hs => .done hend hs) raws hst
  | order hc hst _ ih =>
    exact knock_shadows hloose (fun _ hs => .order hc hs fun _ _ _ _ hreply hst' =>
      ih _ _ _ _ hreply hst') raws hst
  | aside _ hc hst _ ih =>
    exact knock_shadows hloose (fun _ hs => .aside hloose hc hs fun _ _ hrefusal hs' =>
      ih _ _ hrefusal hs') raws hst

end Conduct

namespace Host

/-- The same host, which orders updates at every step on the way to an answer, but when it is
told of a refused one. -/
def besieged (h : Host σ) (raws : Request → List Bytes) : Host σ where
  reply r := fun s =>
    if r.tellsRefusal then (h.reply r) s else ((h.reply r) s).besieged (raws r)
  gate := h.gate
  freshId := h.freshId
  now := h.now

variable {h : Host σ} {S : σ → τ → Prop}

theorem Ignores.besieged (hh : h.Ignores S) (raws : Request → List Bytes) :
    (h.besieged raws).Ignores S where
  reply {r} hr s := by
    have hsame : ((h.besieged raws).reply r) s = (h.reply r) s := if_pos hr
    rw [hsame]
    exact hh.reply hr s
  freshId := hh.freshId
  now := hh.now

/-- A besieged host goes alike with whatever goes alike with it in peace. -/
theorem Shadows.besieged {h' : Host τ} (hh : h.Shadows κ h') (hloose : κ.loose)
    (raws : Request → List Bytes) : (h.besieged raws).Shadows κ h' where
  reply {r r'} hr s t hst := by
    show (if r.tellsRefusal then (h.reply r) s else _ : Conduct (Scene σ) r.Answer).Shadows κ _ _
    split
    · exact hh.reply hr hst
    · exact (hh.reply hr hst).besieged hloose (raws r)
  gate := hh.gate
  freshId := hh.freshId
  now := hh.now

end Host

/-! ### One flight -/

namespace Updater

/-- Whatever updates are ordered in between, and wherever, an update goes as it goes in peace. -/
theorem apply_besieged {h : Host σ} {h' : Host τ} {S : σ → τ → Prop} {v : World τ}
    (hignores : h.Ignores S) (hshadows : h.Shadows (.besides S w.journal v.journal) h')
    (raws : Request → List Bytes) (depth : Nat) (hw : w.desk.AtRest) (hv : v.desk.AtRest)
    (hbooks : w.books = v.books) (hdisk : w.disk = v.disk) (hhost : S w.host v.host)
    (raw : Bytes) :
    (apply ((h.besieged raws).link (console plan) depth) plan raw).Undisturbed S w
      (apply (h'.link (console plan) depth) plan raw) v :=
  apply_undisturbed (hignores.besieged raws) (hshadows.besieged trivial raws) depth hw hv hbooks
    hdisk hhost raw

/-- What is to be had from updates that are ordered at the same time, from all sides. -/
structure SingleFlight (h : Host σ) (plan : UpdatePlan) (depth : Nat) : Prop where
  /-- However calls take turns, one of them at most has the desk, and those that are sent away
  are told that another one is running. -/
  exclusive : ∀ (w : World σ) (t : Traffic σ), w.desk.engaged = false →
    Traffic.Reaches (h.link (console plan) depth) ⟨w, []⟩ t → t.Exclusive
  /-- Every update is such a call. -/
  flies : ∀ (raw : Bytes) (t : Traffic σ), ∃ flight : Flight,
    flight.result? = some ((apply (h.link (console plan) depth) plan raw).run t.world).1 ∧
    Traffic.Reaches (h.link (console plan) depth) t
      ⟨((apply (h.link (console plan) depth) plan raw).run t.world).2, t.flights ++ [flight]⟩
  /-- At whatever moment of a running attempt another update comes, it is refused, unless the
  host breaks off when it is told that.  The running attempt, its phase, its books and the disk
  stay as they are, and so does its token if the host does not cancel it when it is told; nothing
  else is asked. -/
  refused : ∀ {β : Type} (view : Disk → β) (E : Request → Fault → Prop) (cuts : Prop),
    h.Leaves view → h.Raises E → (h.Orders Request.concludes fun c => c.cancels = true → cuts) →
    ∀ (w : World σ) (raw : Bytes), w.desk.engaged = true →
      (apply (h.link (console plan) depth) plan raw).Ends w
        (fun report w' => report.Busy ∧ Interlude view Entry.murmurs cuts w w')
        fun e w' => (e.interrupts = true ∧ ∃ r : Request, r.concludes ∧ E r e) ∧
          Interlude view Entry.murmurs cuts w w'
  /-- All updates that the host orders during an attempt are sent away, however deep. -/
  sentAway : ∀ (w : World σ) (raw : Bytes), w.desk.AtRest →
    (apply (h.link (console plan) depth) plan raw).Agree Eq w
      (apply (h.link (turnstile plan) depth) plan raw) w
  /-- If the host takes no notice of refused updates, an attempt goes with any number of them
  as it goes without. -/
  undisturbed : ∀ {τ : Type} (S : σ → τ → Prop) (h' : Host τ) (w : World σ) (v : World τ)
    (raw : Bytes), h.Ignores S → h.Shadows (.besides S w.journal v.journal) h' →
    w.desk.AtRest → v.desk.AtRest → w.books = v.books → w.disk = v.disk → S w.host v.host →
    (apply (h.link (console plan) depth) plan raw).Undisturbed S w
      (apply (h'.link (console plan) depth) plan raw) v

/-- One update at a time, wherever others are ordered. -/
theorem singleFlight (h : Host σ) (plan : UpdatePlan) (depth : Nat) :
    SingleFlight h plan depth where
  exclusive _ _ hfree hreaches := Traffic.exclusive hfree hreaches
  flies raw t := apply_flies h plan depth raw t
  refused view E cuts hleaves hraises horders w raw hbusy := by
    refine (ends_apply_busy hleaves hraises horders plan depth raw hbusy).mono ?_ fun _ _ he => he
    rintro report w' ⟨⟨completedAt, rfl⟩, hinterlude⟩
    exact ⟨Attempt.busy_report _ none completedAt, hinterlude⟩
  sentAway w raw hw :=
    apply_agree_of_echo h depth (fun _ _ => echo_turnstile id) hw hw rfl rfl rfl rfl raw
  undisturbed S h' w v raw hignores hshadows hw hv hbooks hdisk hhost :=
    apply_undisturbed hignores hshadows depth hw hv hbooks hdisk hhost raw

end Updater

/-! ### A small siege -/

namespace Sample

/-- A host under which no configuration can be loaded. -/
def unloading : Host Nat :=
  Host.plain (fun r =>
    match r with
    | .loadConfiguration => some (.raised "OSError" "")
    | _ => none) fun _ _ => none

/-- It orders a further update when it is told that a phase begins, and two more when it is
asked for the configuration and whether work is queued. -/
def knocking : Host Nat :=
  unloading.besieged fun r =>
    match r with
    | .publish (.phaseStarted ..) => [[8]]
    | .loadConfiguration | .isDataQueued => [[8], [9]]
    | _ => []

theorem unloading_ignores : unloading.Ignores fun (_ _ : Nat) => True where
  reply {r} hr s := by
    refine ⟨.ok r.plainAnswer, s, ?_, by simp, rfl, fun _ h => h⟩
    cases r with
    | loadConfiguration => cases hr
    | _ => rfl
  freshId h := h
  now h := h

theorem unloading_shadows (before before' : List Entry) :
    unloading.Shadows (.besides (fun _ _ => True) before before') unloading where
  reply {r r'} hr s t hst := by
    refine .done ?_ hst
    cases hr with
    | rfl => exact Matched.rfl.mono fun _ _ => heq_of_eq
    | publish h => exact .ok HEq.rfl
    | annotateId s h => exact .ok HEq.rfl
    | dropAllQueued h requestor => exact .ok HEq.rfl
    | keepReport h => exact .ok HEq.rfl
  gate _ _ _ _ := ⟨rfl, trivial⟩
  freshId _ := ⟨.inl trivial, trivial⟩
  now _ := ⟨.inl trivial, trivial⟩

end Sample

namespace Updater

/-- An attempt that fails and rolls back goes, with thirteen updates ordered meanwhile, as it
goes without. -/
theorem singleFlight_knocking :
    let w := Updater.opened Sample.world.disk 0
    let besieged := apply (Sample.knocking.link (console Sample.plan) 1) Sample.plan [2]
    let peaceful := apply (Sample.unloading.link (console Sample.plan) 1) Sample.plan [2]
    (w.since (besieged.run w).2).countP Entry.tellsRefusal = 26 ∧
      (w.since (peaceful.run w).2).countP Entry.tellsRefusal = 0 ∧
      besieged.Undisturbed (fun _ _ => True) w peaceful w := by
  have hignores : Sample.knocking.Ignores fun (_ _ : Nat) => True :=
    Sample.unloading_ignores.besieged _
  have hshadows : Sample.knocking.Shadows (.besides (fun _ _ => True) [] []) Sample.unloading :=
    (Sample.unloading_shadows [] []).besieged trivial _
  exact ⟨by decide +kernel, by decide +kernel,
    (singleFlight Sample.knocking Sample.plan 1).undisturbed _ Sample.unloading _ _ [2] hignores
      hshadows ⟨rfl, rfl, rfl⟩ ⟨rfl, rfl, rfl⟩ rfl rfl trivial⟩

end Updater
end HotSwap
