/-
Updates that are refused.

While an attempt is running, another update comes to nothing but a report, and to what is
told of that.  If the host takes no notice of what it is told, the running attempt goes as
it would have gone without.

* `Updater.ends_apply_busy` — how a refused update ends, and what it leaves as it is;
* `Request.tellsRefusal`, `spoken` — what is told of refused updates, and the rest;
* `Comparison.besides` — two runs of which the first may hold refused updates that the
  second one lacks;
* `Host.Ignores`, `Link.Muffles` — hosts that take no notice of refused updates, and the
  links to them;
* `Updater.echo_besides` — in one of the two runs refused updates may as well be missing;
* `Updater.apply_undisturbed` — so in both an update goes alike.
-/
import Mathlib.Data.List.Forall2
import HotSwap.Proofs.Renewal

namespace HotSwap

open Act

variable {σ τ α β : Type} {link : Link σ} {link' : Link τ} {plan : UpdatePlan} {p : Phase}
  {w : World σ} {v : World τ}

/-! ### A refused update -/

/-- The report of a refused update. -/
theorem Attempt.busy_report (a : Attempt) (drained : Option DrainReport) (completedAt : Int) :
    (a.report Updater.refused drained completedAt).Busy :=
  ⟨rfl, rfl, rfl⟩

namespace Updater

/-- An update that is ordered while an attempt is running ends with the report that one is
running, unless the host breaks off when it is told that.  It leaves the running attempt as
it is, its phase, its token, its books, and the disk as well; its token is cancelled at most
if the host orders that when it is told.  And nothing is asked but to tell of the refusal. -/
theorem ends_apply_busy {h : Host σ} {view : Disk → β} {cuts : Prop}
    {E : Request → Fault → Prop} (hleaves : h.Leaves view) (hraises : h.Raises E)
    (horders : h.Orders Request.concludes fun c => c.cancels = true → cuts)
    (plan : UpdatePlan) (depth : Nat) (raw : Bytes) (hbusy : w.desk.engaged = true) :
    (apply (h.link (console plan) depth) plan raw).Ends w
      (fun report w' => (∃ completedAt, report =
          (newAttempt (h.link (console plan) depth) raw w).report refused none completedAt) ∧
        Interlude view Entry.murmurs cuts w w')
      fun e w' => (e.interrupts = true ∧ ∃ r : Request, r.concludes ∧ E r e) ∧
        Interlude view Entry.murmurs cuts w w' := by
  let R : World σ → World σ → Prop := World.Waits view Entry.murmurs cuts
  have hask : ∀ r : Request, r.concludes → ((h.link (console plan) depth).ask r).Within R
      fun e => ∃ r : Request, r.concludes ∧ E r e := by
    intro r hr w
    have hwaits : ((h.link (console plan) depth).ask r).Within R fun _ => True :=
      hleaves.ask_waits (fun _ he => he) horders depth (horders r hr) hr fun _ => hr
    exact ((hwaits w).and (hraises.ends_ask plan depth r w)).mono (fun _ _ h => h.1)
      fun e _ he => ⟨⟨r, hr, he.2⟩, he.1.2⟩
  generalize h.link (console plan) depth = link at hask
  let a := newAttempt link raw w
  have hfinish : (a.finish link plan refused none).Within R
      fun e => ∃ r : Request, r.concludes ∧ E r e :=
    a.finish_within plan refused none (choose_waits _) (fun _ _ _ _ => hask _ trivial)
      fun _ _ => hask _ trivial
  -- before that only the host was asked for an identifier and the time
  have hstart : ∀ log, R w { afterStart link w with log } := fun _ =>
    World.waits_of_journal rfl rfl rfl (.inl rfl) rfl rfl rfl
  rw [ends_apply_of_engaged hbusy, ends_bind, Attempt.say, Act.say, ends_record]
  refine ((hfinish _).and (a.ends_finish_report refused none _)).mono ?_ ?_
  · exact fun report w' h => ⟨h.2, (hstart _).trans h.1 hbusy⟩
  · rintro e w' ⟨⟨htold, hwaits⟩, hinterrupts⟩
    exact ⟨⟨hinterrupts, htold⟩, (hstart _).trans hwaits hbusy⟩

end Updater

/-! ### What is told of refused updates -/

/-- Whether a request tells of the end of a refused update. -/
def Request.tellsRefusal : Request → Bool
  | .publish (.updateCompleted _ state _ _ kind) => state == .rejected && kind == some .busy
  | .keepReport r => r.state == .rejected && r.failureKind == some .busy
  | _ => false

/-- Whether an entry is about that. -/
def Entry.tellsRefusal : Entry → Bool
  | .asked r | .answered r _ => r.tellsRefusal
  | _ => false

/-- The entries that are not about the ends of refused updates. -/
def spoken (es : List Entry) : List Entry := es.filter fun e => !e.tellsRefusal

theorem spoken_append (es es' : List Entry) : spoken (es ++ es') = spoken es ++ spoken es' :=
  List.filter_append ..

theorem spoken_of_tellsRefusal {e : Entry} (he : e.tellsRefusal = true) : spoken [e] = [] := by
  simp [spoken, he]

theorem Request.Like.tellsRefusal_eq {loose : Prop} {r r' : Request} (h : r.Like loose r') :
    r.tellsRefusal = r'.tellsRefusal := by
  cases h with
  | rfl => rfl
  | publish h =>
    cases h with
    | updateCompleted => rfl
    | _ => rfl
  | keepReport h => rw [tellsRefusal, tellsRefusal, h.state, h.failureKind]
  | _ => rfl

theorem Entry.Like.tellsRefusal_eq {loose : Prop} {e e' : Entry} (h : e.Like loose e') :
    e.tellsRefusal = e'.tellsRefusal := by
  cases h with
  | rfl => rfl
  | asked h => exact h.tellsRefusal_eq
  | answered h h' => exact h.tellsRefusal_eq

/-- Where only some entries count, one more on both sides does not matter, or is the same. -/
theorem Entry.alike_snoc {loose : Prop} {counts : Entry → Bool} {es es' : List Entry} {e e' : Entry}
    (h : List.Forall₂ (Entry.Like loose) (es.filter counts) (es'.filter counts))
    (he : e.Like loose e') (hcounts : counts e = counts e') :
    List.Forall₂ (Entry.Like loose) ((es ++ [e]).filter counts) ((es' ++ [e']).filter counts) := by
  rw [List.filter_append, List.filter_append]
  refine List.rel_append h ?_
  cases hc : counts e' with
  | true => simpa [hcounts, hc] using he
  | false => simp [hcounts, hc]

/-- Two courses of events that are the same up to identifiers, times and refused updates. -/
def SpokenAlike (es es' : List Entry) : Prop :=
  List.Forall₂ (Entry.Like True) (spoken es) (spoken es')

namespace SpokenAlike

variable {es es' : List Entry} {e e' : Entry}

theorem snoc (h : SpokenAlike es es') (he : e.Like True e') :
    SpokenAlike (es ++ [e]) (es' ++ [e']) :=
  Entry.alike_snoc h he (by rw [he.tellsRefusal_eq])

/-- What is told of a refused update does not count. -/
theorem snoc_refusal (h : SpokenAlike es es') (he : e.tellsRefusal = true) :
    SpokenAlike (es ++ [e]) es' := by
  rw [SpokenAlike, spoken_append, spoken_of_tellsRefusal he, List.append_nil]
  exact h

end SpokenAlike

/-- Two runs, after whatever their journals showed before, of which the first may hold
refused updates that the second one lacks; the states of the hosts belong together by `S`. -/
def Comparison.besides (S : σ → τ → Prop) (before before' : List Entry) : Comparison σ τ where
  host := S
  loose := True
  journal j j' := ∃ es es', j = before ++ es ∧ j' = before' ++ es' ∧ SpokenAlike es es'
  enter := by
    rintro _ _ e e' ⟨es, es', rfl, rfl, halike⟩ he
    exact ⟨es ++ [e], es' ++ [e'], List.append_assoc .., List.append_assoc .., halike.snoc he⟩

variable {S : σ → τ → Prop} {before before' : List Entry}

/-- What is told of a refused update is entered in the first run alone. -/
theorem Twins.enter_refusal (hwv : Twins (.besides S before before') p w v) {e : Entry}
    (he : e.tellsRefusal = true) : Twins (.besides S before before') p (w.enter e) v := by
  obtain ⟨es, es', hes, hes', halike⟩ := hwv.journal
  refine { hwv with journal := ⟨es ++ [e], es', ?_, hes', halike.snoc_refusal he⟩ }
  rw [World.enter, hes, List.append_assoc]

/-! ### Hosts that take no notice -/

/-- A host that takes no notice of refused updates: it orders nothing when it is told of
one, does not break off and leaves the disk alone; its state goes on to belong to that of
the other host, and an identifier or a time more does not change that. -/
structure Host.Ignores (h : Host σ) (S : σ → τ → Prop) : Prop where
  reply : ∀ {r : Request}, r.tellsRefusal = true → ∀ s, ∃ result s',
    (h.reply r) s = .done result s' ∧ (∀ e, result = .error e → e.interrupts = false) ∧
      s'.disk = s.disk ∧ ∀ t, S s.host t → S s'.host t
  freshId : ∀ {s t}, S s t → S (h.freshId s).2 t
  now : ∀ {s t}, S s t → S (h.now s).2 t

/-- A link through which a refused update is told about in the first run alone. -/
structure Link.Muffles (κ : Comparison σ τ) (link : Link σ) : Prop where
  ask : ∀ {p r w v}, Request.tellsRefusal r = true → Twins κ p w v →
    (link.ask r).Ends w (fun _ w' => Twins κ p w' v)
      fun e w' => e.interrupts = false ∧ Twins κ p w' v
  freshId : ∀ {s t}, κ.host s t → κ.host (link.freshId s).2 t
  now : ∀ {s t}, κ.host s t → κ.host (link.now s).2 t

/-- A conduct without orders is carried out at any console. -/
theorem Host.Ignores.ends_exchange {h : Host σ} (hh : h.Ignores S)
    {console : Command → Act σ Reply} {r : Request} (hr : r.tellsRefusal = true)
    (hwv : Twins (.besides S before before') p w v) :
    (Act.exchange r ((h.reply r).perform console)).Ends w
      (fun _ w' => Twins (.besides S before before') p w' v)
      fun e w' => e.interrupts = false ∧ Twins (.besides S before before') p w' v := by
  let asked := w.enter (.asked r)
  have hasked : Twins (.besides S before before') p asked v := hwv.enter_refusal hr
  obtain ⟨result, s, hdone, hordinary, hdisk, hhost⟩ := hh.reply hr asked.scene
  have hscene : Twins (.besides S before before') p
      { asked with disk := s.disk, host := s.host } v :=
    { hasked with disk := hdisk.trans hasked.disk, host := hhost _ hasked.host }
  rw [Act.ends_exchange, Play.perform, ends_bind, ends_look, hdone]
  cases result with
  | ok x => exact hscene.enter_refusal hr
  | error e => exact ⟨hordinary e rfl, hscene.enter_refusal hr⟩

theorem Host.Ignores.muffles {h : Host σ} (hh : h.Ignores S)
    (console : Link σ → Command → Act σ Reply) (depth : Nat) :
    (h.link console depth).Muffles (.besides S before before') := by
  cases depth with
  | zero => exact ⟨hh.ends_exchange, hh.freshId, hh.now⟩
  | succ depth => exact ⟨hh.ends_exchange, hh.freshId, hh.now⟩

/-! ### Refused updates in the first run alone -/

section

variable {κ : Comparison σ τ} (hlink : link.Muffles κ)

include hlink

namespace Attempt

/-- Telling of a refused update does not fail. -/
theorem ends_tell_unseen {r : Request} (hr : r.tellsRefusal = true) (hwv : Twins κ p w v) :
    (link.ask r).guarded.Ends w (fun _ w' => Twins κ p w' v) fun _ _ => False := by
  refine ends_guarded.mpr ((hlink.ask hr hwv).mono (fun _ _ h => h) fun e w' he => ?_)
  rw [he.1, if_neg Bool.false_ne_true]
  exact he.2

theorem ends_publish_unseen {e : Event} (he : (Request.publish e).tellsRefusal = true)
    (hwv : Twins κ p w v) :
    (publish link e).Ends w (fun _ w' => Twins κ p w' v) fun _ _ => False := by
  refine (ends_tell_unseen hlink he hwv).bind (fun answer w' h => ?_) fun _ _ he => he
  cases answer with
  | ok _ => exact h
  | error fault => exact { h with }

theorem ends_keep_unseen {report : UpdateReport}
    (hreport : (Request.keepReport report).tellsRefusal = true) (hwv : Twins κ p w v) :
    (keep link plan report).Ends w (fun _ w' => Twins κ p w' v) fun _ _ => False := by
  rw [keep]
  split
  · refine (ends_tell_unseen hlink hreport hwv).bind (fun answer w' h => ?_) fun _ _ he => he
    cases answer with
    | ok _ => exact h
    | error fault => exact { h with }
  · exact hwv

/-- The end of a refused attempt is nothing to the second run. -/
theorem ends_finish_unseen (a : Attempt) (hwv : Twins κ p w v) :
    (a.finish link plan Updater.refused none).Ends w
      (fun report w' => report.Busy ∧ Twins κ p w' v) fun _ _ => False := by
  have hend : ∀ (r : Record) (duration completedAt : Int) {w : World σ}, Twins κ p w v → (do
        record r
        publish link (.updateCompleted a.id .rejected false duration (some .busy))
        keep link plan (a.report Updater.refused none completedAt)
        return a.report Updater.refused none completedAt).Ends w
      (fun report w' => report.Busy ∧ Twins κ p w' v) fun _ _ => False := by
    intro r duration completedAt w hwv
    have hrecorded : Twins κ p { w with log := w.log.push r } v := { hwv with }
    rw [ends_bind, ends_record]
    refine (ends_publish_unseen hlink rfl hrecorded).bind (fun _ _ h => ?_) fun _ _ he => he
    refine (ends_keep_unseen hlink rfl h).bind (fun _ _ h => ?_) fun _ _ he => he
    exact ⟨a.busy_report none completedAt, h⟩
  rw [finish, ends_bind, Link.time, ends_choose]
  exact hend _ _ _ (hwv.withHost (hlink.now hwv.host))

end Attempt

namespace Updater

/-- An update that is ordered in the first run while an attempt is running is refused, and the
second run need not have it. -/
theorem ends_apply_unseen (raw : Bytes) (hwv : Twins κ p w v) : (apply link plan raw).Ends w
    (fun report w' => report.Busy ∧ Twins κ p w' v) fun _ _ => False := by
  have hstarted : Twins κ p (afterStart link w) v :=
    hwv.withHost (hlink.now (hlink.freshId hwv.host))
  rw [ends_apply_of_engaged hwv.engaged, ends_bind, Attempt.say, Act.say, ends_record]
  exact Attempt.ends_finish_unseen hlink _ { hstarted with }

/-- So are all orders for updates. -/
theorem ends_console_unseen (hloose : κ.loose) {c : Command} (hc : c.isUpdate = true)
    (hwv : Twins κ p w v) :
    (console plan link c).Ends w (fun reply w' => c.Refusal (.ok reply) ∧ Twins κ p w' v)
      fun e w' => c.Refusal (.error e) ∧ Twins κ p w' v := by
  have happly : ∀ raw {w}, Twins κ p w v → (apply link plan raw).Ends w
      (fun report w' => report.Busy ∧ Twins κ p w' v) fun _ _ => False := fun raw _ =>
    ends_apply_unseen hlink raw
  cases c with
  | apply raw =>
    refine (happly raw hwv).bind (fun report w' h => ?_) fun _ _ he => he.elim
    exact ⟨.apply raw h.1, h.2⟩
  | update raw =>
    have hupdate : (update link plan raw).Ends w (fun b w' => b = false ∧ Twins κ p w' v)
        fun _ _ => False := by
      refine (happly raw hwv).bind (fun report w' h => ⟨?_, h.2⟩) fun _ _ he => he
      rw [UpdateReport.succeeded, h.1.state]
      rfl
    refine hupdate.bind ?_ fun _ _ he => he.elim
    rintro _ w' ⟨rfl, h⟩
    exact ⟨.update raw, h⟩
  | work =>
    show Ends (work link plan >>= _) _ _ _
    rw [ends_bind, work, ends_bind, ends_desk]
    cases w.desk.waiting with
    | nil => exact ⟨.idle, hwv⟩
    | cons raw rest =>
      -- which candidates wait is not compared
      have htaken : Twins κ p { w with desk := { w.desk with waiting := rest } } v :=
        { hwv with waiting := fun h => absurd hloose h }
      have hworked : (apply link plan raw).outcome.Ends
          { w with desk := { w.desk with waiting := rest } }
          (fun result w' => ∃ report, result = .ok report ∧ report.Busy ∧ Twins κ p w' v)
          fun _ _ => False :=
        ends_outcome.mpr ((happly raw htaken).mono (fun report _ h => ⟨report, rfl, h⟩)
          fun _ _ he => he.elim)
      rw [ends_bind, ends_changeDesk]
      refine hworked.bind ?_ fun _ _ he => he.elim
      rintro _ w' ⟨report, rfl, hreport, h⟩
      exact ⟨.work hreport, h⟩
  | _ => cases hc

end Updater
end

namespace Updater

/-- The consoles of two runs go alike, and updates that only the first run orders, where it may,
are refused without a trace. -/
theorem echo_accords {κ : Comparison σ τ} {keeps : Bool} (h : link.Accords κ plan keeps link')
    (hlink : κ.loose → link.Muffles κ) :
    Conduct.Echo κ (console plan link) (console (plan.keeping keeps) link') where
  both c hc := console_tracks h c hc
  aside c _ _ hloose hc hwv :=
    Ends.run (Q := fun reply w' => c.Refusal reply ∧ Twins _ _ w' _)
      (ends_console_unseen (hlink hloose) hloose hc hwv)

theorem echo_besides (h : link.Mirrors (.besides S before before') link')
    (hlink : link.Muffles (.besides S before before')) :
    Conduct.Echo (.besides S before before') (console plan link) (console plan link') :=
  echo_accords (h.accords plan) fun _ => hlink

end Updater

/-! ### From worlds at rest -/

/-- Two updates that are the same up to identifiers, times and refused updates: they come to
the same end, with the same requests, answers and work on the files, and they leave the same
disk and hosts that belong together. -/
structure Act.Undisturbed (S : σ → τ → Prop) (a : Act σ UpdateReport) (w : World σ)
    (b : Act τ UpdateReport) (v : World τ) : Prop where
  report : Matched (UpdateReport.Like True) (a.run w).1 (b.run v).1
  entries : SpokenAlike (w.since (a.run w).2) (v.since (b.run v).2)
  disk : (a.run w).2.disk = (b.run v).2.disk
  host : S (a.run w).2.host (b.run v).2.host

namespace Updater

/-- Behind a host that takes no notice of refused updates, an update with any number of them
goes as it goes without, behind a host that orders the same but for these. -/
theorem apply_undisturbed {h : Host σ} {h' : Host τ} (hignores : h.Ignores S)
    (hshadows : h.Shadows (.besides S w.journal v.journal) h') (depth : Nat)
    (hw : w.desk.AtRest) (hv : v.desk.AtRest) (hbooks : w.books = v.books)
    (hdisk : w.disk = v.disk) (hhost : S w.host v.host) (raw : Bytes) :
    (apply (h.link (console plan) depth) plan raw).Undisturbed S w
      (apply (h'.link (console plan) depth) plan raw) v := by
  let κ := Comparison.besides S w.journal v.journal
  have hlink : (h.link (console plan) depth).Mirrors κ (h'.link (console plan) depth) :=
    hshadows.mirrors_link (Conduct.echo_deep κ)
      (fun depth hdeeper => echo_besides hdeeper (hignores.muffles (console plan) depth)) depth
  have hresting : Resting κ w v :=
    { atRest := hw
      atRest' := hv
      waiting := fun h => absurd trivial h
      books := hbooks
      disk := hdisk
      host := hhost
      journal := ⟨[], [], by simp, by simp, .nil⟩ }
  have happly : Act.Pairs (Resting κ) (apply (h.link (console plan) depth) plan raw)
      (apply (h'.link (console plan) depth) plan raw) (UpdateReport.Like κ.loose) (Resting κ) :=
    apply_pairs (hlink.accords plan) raw
  obtain ⟨hends, hresting'⟩ := happly hresting
  obtain ⟨es, es', hes, hes', halike⟩ := hresting'.journal
  exact
    { report := hends
      entries := by
        rw [World.since, World.since, hes, hes', List.drop_left, List.drop_left]
        exact halike
      disk := hresting'.disk
      host := hresting'.host }

end Updater
end HotSwap
