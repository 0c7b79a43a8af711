/-
What onlookers make of an update.

The observers and the history are told of an update, and have no say in it.  Whatever they
raise, short of an interrupt, and wherever they raise it, the update goes as it would have
gone with nobody looking on.

* `Onlookers` — how observers and a history take what they are told;
* `Host.watched` — a host with onlookers;
* `unobserved` — what the journal shows but for the telling;
* `Comparison.unobserved` — two runs of which only this is compared;
* `World.Unnoticed` — a stretch in which onlookers were told something;
* `Host.accords_watched` — hosts that go alike accord, whoever looks on;
* `Act.Unmoved` — two updates that are the same but for the telling;
* `Updater.apply_watched` — so are updates with different onlookers;
* `Updater.apply_unmoved` — in particular one with onlookers and one without.

Design notes: the two hosts may give different identifiers and times, if nothing else in
their answers depends on them.  A host goes alike with itself, and then nothing may differ.
-/
import HotSwap.Proofs.Clearances
import HotSwap.Proofs.Refusals

namespace HotSwap

open Act

variable {σ τ ρ ρ' α β : Type} {S : σ → τ → Prop} {loose : Prop} {before before' : List Entry}
  {p : Phase} {plan : UpdatePlan} {keeps : Bool}

/-! ### Onlookers -/

/-- How observers and a history, with a state of their own, take what they are told. -/
structure Onlookers (ρ : Type) where
  /-- The observers are told of an event, and may raise something. -/
  hear : Event → ρ → Option Fault × ρ
  /-- The history is given a report, and keeps it or raises something. -/
  keep : UpdateReport → ρ → Option Fault × ρ

namespace Onlookers

/-- The onlookers raise nothing but ordinary faults. -/
structure Ordinary (o : Onlookers ρ) : Prop where
  hear : ∀ e t fault, (o.hear e t).1 = some fault → fault.interrupts = false
  keep : ∀ r t fault, (o.keep r t).1 = some fault → fault.interrupts = false

/-- Nobody looks on. -/
def nobody : Onlookers Unit where
  hear _ t := (none, t)
  keep _ t := (none, t)

theorem nobody_ordinary : nobody.Ordinary where
  hear _ _ _ h := by cases h
  keep _ _ _ h := by cases h

/-- What comes back from onlookers, in a scene that they leave as it is. -/
def told (taken : Option Fault × ρ) (s : Scene (σ × ρ)) : Conduct (Scene (σ × ρ)) Unit :=
  .done (taken.1.elim (.ok ()) .error) { s with host := (s.host.1, taken.2) }

end Onlookers

/-- A conduct beside a state that it does not touch. -/
def Conduct.beside : Conduct (Scene σ) α → ρ → Conduct (Scene (σ × ρ)) α
  | .done result s, t => .done result { disk := s.disk, host := (s.host, t) }
  | .order c s resume, t =>
    .order c { disk := s.disk, host := (s.host, t) } fun reply s' =>
      (resume reply { disk := s'.disk, host := s'.host.1 }).beside s'.host.2

/-- A host with onlookers, who are told what its own observers and its own history would be
told. -/
def Host.watched (h : Host σ) (o : Onlookers ρ) : Host (σ × ρ) where
  reply
    | .publish e => fun s => Onlookers.told (o.hear e s.host.2) s
    | .keepReport r => fun s => Onlookers.told (o.keep r s.host.2) s
    | r => fun s => ((h.reply r) { disk := s.disk, host := s.host.1 }).beside s.host.2
  gate a s := ((h.gate a s.1).1, (h.gate a s.1).2, s.2)
  freshId s := ((h.freshId s.1).1, (h.freshId s.1).2, s.2)
  now s := ((h.now s.1).1, (h.now s.1).2, s.2)

/-- What is more than telling is up to the host. -/
theorem Host.watched_reply (h : Host σ) (o : Onlookers ρ) {r : Request} (hr : r.observes = false) :
    (h.watched o).reply r =
      fun s => ((h.reply r) { disk := s.disk, host := s.host.1 }).beside s.host.2 := by
  cases r <;> first | rfl | cases hr

/-! ### What is compared -/

/-- Whether an entry is about telling the observers or the history something. -/
def Entry.observes : Entry → Bool
  | .asked r | .answered r _ => r.observes
  | _ => false

/-- The entries that are about more: the calls of the flow and the other requests with their
answers, the pauses, and the work on the files with the disks that it leaves. -/
def unobserved (es : List Entry) : List Entry := es.filter fun e => !e.observes

/-- Two courses of events that are the same up to what the onlookers are told; if `loose`,
also up to identifiers and times. -/
def UnobservedAlike (loose : Prop) (es es' : List Entry) : Prop :=
  List.Forall₂ (Entry.Like loose) (unobserved es) (unobserved es')

theorem Request.Like.observes_eq {r r' : Request} (h : r.Like loose r') :
    r.observes = r'.observes := by
  cases h <;> rfl

theorem Entry.Like.observes_eq {e e' : Entry} (h : e.Like loose e') :
    e.observes = e'.observes := by
  cases h with
  | rfl => rfl
  | asked h => exact h.observes_eq
  | answered h h' => exact h.observes_eq

/-- If nothing may differ, the courses of events are the same. -/
theorem UnobservedAlike.eq {es es' : List Entry} (h : UnobservedAlike False es es') :
    unobserved es = unobserved es' :=
  List.forall₂_eq_eq_eq ▸ h.imp fun _ _ => Entry.Like.eq

/-- Neither do those of the entries differ that are of one kind, and not about telling. -/
theorem UnobservedAlike.filter {counts : Entry → Bool} {es es' : List Entry}
    (h : UnobservedAlike loose es es') (hcounts : ∀ e e', e.Like loose e' → counts e = counts e')
    (hunobserved : ∀ e, counts e = true → e.observes = false) :
    List.Forall₂ (Entry.Like loose) (es.filter counts) (es'.filter counts) := by
  have hfilter : ∀ es : List Entry, (unobserved es).filter counts = es.filter counts := fun es => by
    rw [unobserved, List.filter_filter]
    refine List.filter_congr fun e _ => ?_
    cases hc : counts e with
    | true => simp [hunobserved e hc]
    | false => rfl
  rw [← hfilter es, ← hfilter es']
  refine List.rel_filter (fun e e' he => ?_) h
  show counts e = true ↔ counts e' = true
  rw [hcounts e e' he]

theorem Entry.Like.isCall_eq {e e' : Entry} (h : e.Like loose e') : e.isCall = e'.isCall := by
  cases h with
  | rfl => rfl
  | asked h => cases h <;> rfl
  | answered h h' => cases h <;> rfl

theorem Entry.observes_of_isCall {e : Entry} (he : e.isCall = true) : e.observes = false := by
  cases e with
  | asked r => cases r <;> first | rfl | cases he
  | answered r answer => cases r <;> first | rfl | cases he
  | _ => rfl

theorem Request.observes_of_tellsRefusal {r : Request} (hr : r.tellsRefusal = true) :
    r.observes = true := by
  cases r <;> first | rfl | cases hr

/-- Two runs, after whatever their journals showed before, of which only that is compared; the
states of the hosts belong together by `S`. -/
def Comparison.unobserved (loose : Prop) (S : σ → τ → Prop) (before before' : List Entry) :
    Comparison σ τ where
  host := S
  loose := loose
  journal j j' := ∃ es es', j = before ++ es ∧ j' = before' ++ es' ∧ UnobservedAlike loose es es'
  enter := by
    rintro _ _ e e' ⟨es, es', rfl, rfl, halike⟩ he
    exact ⟨es ++ [e], es' ++ [e'], List.append_assoc .., List.append_assoc ..,
      Entry.alike_snoc halike he (by rw [he.observes_eq])⟩

/-- The same, where the hosts have onlookers whose states do not count. -/
abbrev Comparison.beside (loose : Prop) (S : σ → τ → Prop) (before before' : List Entry) :
    Comparison (σ × ρ) (τ × ρ') :=
  .unobserved loose (fun s t => S s.1 t.1) before before'

/-! ### Stretches in which onlookers were told something -/

/-- Nothing has come of what was done but entries about telling, and perhaps log records and
another state of the onlookers. -/
structure World.Unnoticed (w w' : World (σ × ρ)) : Prop where
  desk : w'.desk = w.desk
  books : w'.books = w.books
  disk : w'.disk = w.disk
  host : w'.host.1 = w.host.1
  journal : ∃ es, w'.journal = w.journal ++ es ∧ HotSwap.unobserved es = []

namespace World.Unnoticed

variable {w w' w'' : World (σ × ρ)}

theorem refl (w : World (σ × ρ)) : w.Unnoticed w :=
  ⟨rfl, rfl, rfl, rfl, [], (List.append_nil _).symm, rfl⟩

theorem trans (h : w.Unnoticed w') (h' : w'.Unnoticed w'') : w.Unnoticed w'' := by
  obtain ⟨es, hes, hnone⟩ := h.journal
  obtain ⟨es', hes', hnone'⟩ := h'.journal
  refine ⟨h'.desk.trans h.desk, h'.books.trans h.books, h'.disk.trans h.disk,
    h'.host.trans h.host, es ++ es', by rw [hes', hes, List.append_assoc], ?_⟩
  rw [HotSwap.unobserved, List.filter_append]
  exact List.append_eq_nil_iff.mpr ⟨hnone, hnone'⟩

theorem enter (w : World (σ × ρ)) {e : Entry} (he : e.observes = true) :
    w.Unnoticed (w.enter e) :=
  ⟨rfl, rfl, rfl, rfl, [e], rfl, by simp [HotSwap.unobserved, he]⟩

theorem log (w : World (σ × ρ)) (log : Array Record) : w.Unnoticed { w with log } :=
  { refl w with }

end World.Unnoticed

/-- Such stretches make no difference to two runs. -/
theorem Twins.unnoticed {w w' : World (σ × ρ)} {v v' : World (τ × ρ')}
    (h : Twins (.beside loose S before before') p w v) (hw : w.Unnoticed w')
    (hv : v.Unnoticed v') : Twins (.beside loose S before before') p w' v' := by
  obtain ⟨es, es', hes, hes', halike⟩ := h.journal
  obtain ⟨more, hmore, hnone⟩ := hw.journal
  obtain ⟨more', hmore', hnone'⟩ := hv.journal
  have halike' : UnobservedAlike loose (es ++ more) (es' ++ more') := by
    rw [UnobservedAlike, unobserved, unobserved, List.filter_append, List.filter_append]
    rw [unobserved] at hnone hnone'
    rw [hnone, hnone', List.append_nil, List.append_nil]
    exact halike
  exact
    { engaged := by rw [hw.desk]; exact h.engaged
      engaged' := by rw [hv.desk]; exact h.engaged'
      phase := by rw [hw.desk]; exact h.phase
      phase' := by rw [hv.desk]; exact h.phase'
      token := by rw [hw.desk, hv.desk]; exact h.token
      polls := by rw [hw.desk, hv.desk]; exact h.polls
      drained := by rw [hw.desk, hv.desk]; exact h.drained
      waiting := by rw [hw.desk, hv.desk]; exact h.waiting
      books := by rw [hw.books, hv.books]; exact h.books
      disk := by rw [hw.disk, hv.disk]; exact h.disk
      host := by
        show S w'.host.1 v'.host.1
        rw [hw.host, hv.host]
        exact h.host
      journal := ⟨es ++ more, es' ++ more', by rw [hmore, hes, List.append_assoc],
        by rw [hmore', hes', List.append_assoc], halike'⟩ }

/-- Two acts of which nothing comes keep up whatever the two runs have in common. -/
theorem tracks_of_unnoticed {a : Act (σ × ρ) α} {b : Act (τ × ρ') β}
    (ha : ∀ w, a.Ends w (fun _ w' => w.Unnoticed w') fun _ _ => False)
    (hb : ∀ v, b.Ends v (fun _ v' => v.Unnoticed v') fun _ _ => False) :
    Tracks (Twins (.beside loose S before before') p) a b fun _ _ => True := by
  intro w v hwv
  have hw := ha w
  have hv := hb v
  unfold Ends at hw hv
  rcases hrun : a.run w with ⟨_ | x, w'⟩
  · rw [hrun] at hw
    exact hw.elim
  rcases hrun' : b.run v with ⟨_ | y, v'⟩
  · rw [hrun'] at hv
    exact hv.elim
  rw [hrun] at hw
  rw [hrun'] at hv
  exact ⟨.ok trivial, hwv.unnoticed hw hv⟩

/-! ### Telling onlookers -/

/-- Telling leaves a world with another state of the onlookers. -/
theorem Onlookers.ends_told {taken : Option Fault × ρ}
    (hordinary : ∀ fault, taken.1 = some fault → fault.interrupts = false)
    (console : Command → Act (σ × ρ) Reply) (w : World (σ × ρ)) :
    ((told taken w.scene).perform console).Ends w
      (fun _ w' => ∃ t, w' = { w with host := (w.host.1, t) })
      fun e w' => e.interrupts = false ∧ ∃ t, w' = { w with host := (w.host.1, t) } := by
  obtain ⟨_ | fault, t⟩ := taken
  · exact ⟨t, rfl⟩
  · exact ⟨hordinary fault rfl, t, rfl⟩

section

variable {h : Host σ} {o : Onlookers ρ} (ho : o.Ordinary)

include ho

/-- Nothing comes of telling them, but perhaps an ordinary fault. -/
theorem Host.ends_ask_watched (console : Link (σ × ρ) → Command → Act (σ × ρ) Reply) (depth : Nat)
    {r : Request} (hr : r.observes = true) (w : World (σ × ρ)) :
    (((h.watched o).link console depth).ask r).Ends w (fun _ w' => w.Unnoticed w')
      fun e w' => e.interrupts = false ∧ w.Unnoticed w' := by
  have hback : ∀ (answer : Except Fault r.Answer) (t : ρ), w.Unnoticed
      ({ w.enter (.asked r) with host := (w.host.1, t) }.enter (.answered r answer)) := by
    intro answer t
    have hasked : w.Unnoticed (w.enter (.asked r)) := .enter w hr
    have htaken : w.Unnoticed { w.enter (.asked r) with host := (w.host.1, t) } := { hasked with }
    exact htaken.trans (.enter _ hr)
  have htold : ∀ (console : Command → Act (σ × ρ) Reply),
      (Act.exchange r (((h.watched o).reply r).perform console)).Ends w
        (fun _ w' => w.Unnoticed w') fun e w' => e.interrupts = false ∧ w.Unnoticed w' := by
    intro console
    rw [Act.ends_exchange, Play.perform, ends_bind, ends_look]
    cases r with
    | publish e =>
      refine (Onlookers.ends_told (ho.hear e w.host.2) console (w.enter _)).mono ?_ ?_
      · rintro x w' ⟨t, rfl⟩
        exact hback _ t
      · rintro e w' ⟨he, t, rfl⟩
        exact ⟨he, hback _ t⟩
    | keepReport report =>
      refine (Onlookers.ends_told (ho.keep report w.host.2) console (w.enter _)).mono ?_ ?_
      · rintro x w' ⟨t, rfl⟩
        exact hback _ t
      · rintro e w' ⟨he, t, rfl⟩
        exact ⟨he, hback _ t⟩
    | _ => cases hr
  cases depth with
  | zero => exact htold _
  | succ depth => exact htold _

theorem Host.ends_tell_watched (console : Link (σ × ρ) → Command → Act (σ × ρ) Reply)
    (depth : Nat) {r : Request} (hr : r.observes = true) (w : World (σ × ρ)) :
    (((h.watched o).link console depth).ask r).guarded.Ends w (fun _ w' => w.Unnoticed w')
      fun _ _ => False := by
  refine ends_guarded.mpr ((ends_ask_watched ho console depth hr w).mono (fun _ _ h => h) ?_)
  intro e w' he
  rw [he.1, if_neg Bool.false_ne_true]
  exact he.2

/-- Nor of giving the history a report, or of not doing so. -/
theorem Host.ends_keep_watched (console : Link (σ × ρ) → Command → Act (σ × ρ) Reply)
    (depth : Nat) (plan : UpdatePlan) (report : UpdateReport) (w : World (σ × ρ)) :
    (Attempt.keep ((h.watched o).link console depth) plan report).Ends w
      (fun _ w' => w.Unnoticed w') fun _ _ => False := by
  rw [Attempt.keep]
  split
  · refine (ends_tell_watched ho console depth rfl w).bind (fun answer w' h => ?_) fun _ _ he => he
    cases answer with
    | ok _ => exact h
    | error fault => exact h.trans (.log w' _)
  · exact World.Unnoticed.refl w

end

/-! ### Hosts that go alike, with onlookers -/

theorem Conduct.first_beside (c : Conduct (Scene σ) α) (t : ρ) :
    (c.beside t).first = { disk := c.first.disk, host := (c.first.host, t) } := by
  cases c <;> rfl

/-- Conducts that go alike do so beside any states that they do not touch. -/
theorem Conduct.Shadows.beside {V : α → β → Prop} {c : Conduct (Scene σ) α}
    {c' : Conduct (Scene τ) β} (h : c.Shadows (.unobserved loose S [] []) V c') (t : ρ) (t' : ρ') :
    (c.beside t).Shadows (.beside loose S before before') V (c'.beside t') := by
  induction h generalizing t t' with
  | done hend hst => exact .done hend ⟨hst.disk, hst.host⟩
  | order hc hst _ ih =>
    exact .order hc ⟨hst.disk, hst.host⟩ fun reply reply' s s' hreply hss =>
      ih reply reply' { disk := s.disk, host := s.host.1 } { disk := s'.disk, host := s'.host.1 }
        hreply ⟨hss.disk, hss.host⟩ _ _
  | @aside c s resume other hloose hc hst _ ih =>
    refine .aside hloose hc ?_ fun reply s' hrefusal hss =>
      ih reply { disk := s'.disk, host := s'.host.1 } hrefusal ?_ _ _
    · rw [first_beside]
      exact ⟨hst.disk, hst.host⟩
    · rw [first_beside] at hss
      exact ⟨hss.disk, hss.host⟩

/-- An identifier or a time more does not change which states of another host belong to that
of the host. -/
structure Host.SourcesApart (h : Host σ) (S : σ → τ → Prop) : Prop where
  freshId : ∀ {s t}, S s t → S (h.freshId s).2 t
  now : ∀ {s t}, S s t → S (h.now s).2 t

section

variable {h : Host σ} {h' : Host τ} {o : Onlookers ρ} {o' : Onlookers ρ'} (ho : o.Ordinary)
  (ho' : o'.Ordinary) (hshadows : h.Shadows (.unobserved loose S [] []) h')
  (hsources : loose → h.SourcesApart S)

include ho in
theorem Host.SourcesApart.muffles (hsources : h.SourcesApart S)
    (console : Link (σ × ρ) → Command → Act (σ × ρ) Reply) (depth : Nat) :
    ((h.watched o).link console depth).Muffles
      (.beside loose S before before' : Comparison (σ × ρ) (τ × ρ')) where
  ask hr hwv := (ends_ask_watched ho console depth (Request.observes_of_tellsRefusal hr) _).mono
    (fun _ _ hw => hwv.unnoticed hw (.refl _)) fun _ _ he =>
      ⟨he.1, hwv.unnoticed he.2 (.refl _)⟩
  freshId {s t} hst := by
    rw [freshId_link]
    exact hsources.freshId hst
  now {s t} hst := by
    rw [now_link]
    exact hsources.now hst

include ho ho' hshadows

/-- Telling makes no difference, so links accord that answer alike to what is more. -/
theorem Host.accords_of_ask (plan : UpdatePlan) (keeps : Bool) (depth : Nat)
    (hask : ∀ {p r r'}, Request.Like loose r r' → r.observes = false →
      Tracks (Twins (.beside loose S before before') p)
        (((h.watched o).link (Updater.console plan) depth).ask r)
        (((h'.watched o').link (Updater.console (plan.keeping keeps)) depth).ask r')
        fun x y => HEq x y) :
    ((h.watched o).link (Updater.console plan) depth).Accords (.beside loose S before before') plan
      keeps ((h'.watched o').link (Updater.console (plan.keeping keeps)) depth) where
  ask := hask
  publish _ := tracks_of_unnoticed (ends_tell_watched ho _ depth rfl)
    (ends_tell_watched ho' _ depth rfl)
  keep _ := (tracks_of_unnoticed (ends_keep_watched ho _ depth _ _)
    (ends_keep_watched ho' _ depth _ _)).mono fun _ _ _ => rfl
  gate a {s t} hst := by cases depth <;> exact hshadows.gate a (s := s.1) (t := t.1) hst
  freshId {s t} hst := by
    rw [freshId_link, freshId_link]
    exact hshadows.freshId (s := s.1) (t := t.1) hst
  now {s t} hst := by
    rw [now_link, now_link]
    exact hshadows.now (s := s.1) (t := t.1) hst

include hsources

/-- Links to hosts that go alike accord with each other, whoever looks on. -/
theorem Host.accords_watched (plan : UpdatePlan) (keeps : Bool) (depth : Nat) :
    ((h.watched o).link (Updater.console plan) depth).Accords (.beside loose S before before') plan
      keeps ((h'.watched o').link (Updater.console (plan.keeping keeps)) depth) := by
  have hask : ∀ {console : Command → Act (σ × ρ) Reply} {console' : Command → Act (τ × ρ') Reply},
      Conduct.Echo (.beside loose S before before') console console' → ∀ {p r r'},
      Request.Like loose r r' → r.observes = false →
      Tracks (Twins (.beside loose S before before') p)
        (Act.exchange r (((h.watched o).reply r).perform console))
        (Act.exchange r' (((h'.watched o').reply r').perform console')) fun x y => HEq x y := by
    intro console console' hecho p r r' hr hobserves
    refine Host.exchange_tracks (fun {s t} hst => ?_) hecho hr
    rw [h.watched_reply o hobserves, h'.watched_reply o' (hr.observes_eq ▸ hobserves)]
    exact (hshadows.reply hr (s := { disk := s.disk, host := s.host.1 })
      (t := { disk := t.disk, host := t.host.1 }) ⟨hst.disk, hst.host⟩).beside _ _
  -- what is ordered through a link goes through the one that is a level less deep
  induction depth with
  | zero => exact accords_of_ask ho ho' hshadows plan keeps 0 (hask (Conduct.echo_deep _))
  | succ depth ih =>
    exact accords_of_ask ho ho' hshadows plan keeps (depth + 1) (hask (Updater.echo_accords ih
      fun hloose => (hsources hloose).muffles ho _ depth))

end

/-! ### Updates with different onlookers -/

/-- Two updates that are the same but for what the onlookers are told; if `loose`, also but for
identifiers and times.  They come to the same end and report the same, with the same calls of
the flow and other requests, pauses and work on the files, and they leave the same disk and
hosts that belong together. -/
structure Act.Unmoved (loose : Prop) (S : σ → τ → Prop) (a : Act (σ × ρ) UpdateReport)
    (w : World (σ × ρ)) (b : Act (τ × ρ') UpdateReport) (v : World (τ × ρ')) : Prop where
  report : Matched (UpdateReport.Like loose) (a.run w).1 (b.run v).1
  entries : UnobservedAlike loose (w.since (a.run w).2) (v.since (b.run v).2)
  disk : (a.run w).2.disk = (b.run v).2.disk
  host : S (a.run w).2.host.1 (b.run v).2.host.1

/-- Two runs of which the entries so far belong together. -/
theorem Act.Unmoved.of_journal {a : Act (σ × ρ) UpdateReport} {b : Act (τ × ρ') UpdateReport}
    {w : World (σ × ρ)} {v : World (τ × ρ')}
    (hreport : Matched (UpdateReport.Like loose) (a.run w).1 (b.run v).1)
    (hjournal : (Comparison.beside loose S w.journal v.journal : Comparison (σ × ρ) (τ × ρ')).journal
      (a.run w).2.journal (b.run v).2.journal)
    (hdisk : (a.run w).2.disk = (b.run v).2.disk)
    (hhost : S (a.run w).2.host.1 (b.run v).2.host.1) : a.Unmoved loose S w b v := by
  obtain ⟨es, es', hes, hes', halike⟩ := hjournal
  refine ⟨hreport, ?_, hdisk, hhost⟩
  rw [World.since, World.since, hes, hes', List.drop_left, List.drop_left]
  exact halike

/-- The flow is called in the same way. -/
theorem Act.Unmoved.calls {a : Act (σ × ρ) UpdateReport} {b : Act (τ × ρ') UpdateReport}
    {w : World (σ × ρ)} {v : World (τ × ρ')} (h : a.Unmoved loose S w b v) :
    List.Forall₂ (Entry.Like loose) (callsOf (w.since (a.run w).2))
      (callsOf (v.since (b.run v).2)) :=
  h.entries.filter (fun _ _ => Entry.Like.isCall_eq) fun _ => Entry.observes_of_isCall

namespace Updater

variable {h : Host σ} {h' : Host τ} {o : Onlookers ρ} {o' : Onlookers ρ'} {w : World (σ × ρ)}
  {v : World (τ × ρ')}

/-- From worlds that differ only in their hosts and onlookers, and in what was logged and done
before, an update goes the same way, whoever looks on, and whether or not reports are kept. -/
theorem apply_watched (ho : o.Ordinary) (ho' : o'.Ordinary)
    (hshadows : h.Shadows (.unobserved loose S [] []) h') (hsources : loose → h.SourcesApart S)
    (plan : UpdatePlan) (keeps : Bool) (depth : Nat)
    (hrest : w.desk.engaged = false → w.desk.AtRest) (hdesk : w.desk = v.desk)
    (hbooks : w.books = v.books) (hdisk : w.disk = v.disk) (hhost : S w.host.1 v.host.1)
    (raw : Bytes) :
    (apply ((h.watched o).link (console plan) depth) plan raw).Unmoved loose S w
      (apply ((h'.watched o').link (console (plan.keeping keeps)) depth) (plan.keeping keeps) raw)
      v := by
  have hlink : ((h.watched o).link (console plan) depth).Accords
      (.beside loose S w.journal v.journal) plan keeps
      ((h'.watched o').link (console (plan.keeping keeps)) depth) :=
    Host.accords_watched ho ho' hshadows hsources plan keeps depth
  have hjournal : (Comparison.beside loose S w.journal v.journal :
      Comparison (σ × ρ) (τ × ρ')).journal w.journal v.journal :=
    ⟨[], [], (List.append_nil _).symm, (List.append_nil _).symm, .nil⟩
  cases hengaged : w.desk.engaged with
  | false =>
    have hresting : Resting (.beside loose S w.journal v.journal) w v :=
      { atRest := hrest hengaged
        atRest' := hdesk ▸ hrest hengaged
        waiting := fun _ => by rw [hdesk]
        books := hbooks
        disk := hdisk
        host := hhost
        journal := hjournal }
    obtain ⟨hreport, hafter⟩ := apply_pairs hlink raw hresting
    exact .of_journal hreport hafter.journal hafter.disk hafter.host
  | true =>
    -- the update is refused in both worlds
    have htwins : Twins (.beside loose S w.journal v.journal) w.desk.phase w v :=
      { engaged := hengaged
        engaged' := hdesk ▸ hengaged
        phase := rfl
        phase' := by rw [hdesk]
        token := .inl (by rw [hdesk])
        polls := by rw [hdesk]
        drained := by rw [hdesk]
        waiting := fun _ => by rw [hdesk]
        books := hbooks
        disk := hdisk
        host := hhost
        journal := hjournal }
    obtain ⟨hreport, hafter⟩ := apply_tracks hlink raw htwins
    exact .of_journal hreport hafter.journal hafter.disk hafter.host

/-- Where the hosts do not differ, and neither do the identifiers and times that they give, nothing
differs but the telling. -/
theorem apply_watched_self (h : Host σ) (ho : o.Ordinary) (ho' : o'.Ordinary) (plan : UpdatePlan)
    (keeps : Bool) (depth : Nat) {v : World (σ × ρ')}
    (hrest : w.desk.engaged = false → w.desk.AtRest) (hdesk : w.desk = v.desk)
    (hbooks : w.books = v.books) (hdisk : w.disk = v.disk) (hhost : w.host.1 = v.host.1)
    (raw : Bytes) :
    let a := apply ((h.watched o).link (console plan) depth) plan raw
    let b := apply ((h.watched o').link (console (plan.keeping keeps)) depth) (plan.keeping keeps) raw
    (a.run w).1 = (b.run v).1 ∧
      unobserved (w.since (a.run w).2) = unobserved (v.since (b.run v).2) ∧
      (a.run w).2.disk = (b.run v).2.disk ∧ (a.run w).2.host.1 = (b.run v).2.host.1 := by
  have hunmoved := apply_watched ho ho' (h.shadows_refl Iff.rfl id) False.elim plan keeps depth hrest
    hdesk hbooks hdisk hhost raw
  exact ⟨(hunmoved.report.mono fun _ _ => UpdateReport.Like.eq).eq, hunmoved.entries.eq,
    hunmoved.disk, hunmoved.host⟩

/-- In particular an update goes with any onlookers as it goes with nobody looking on and without
a history. -/
theorem apply_unmoved (ho : o.Ordinary) (hshadows : h.Shadows (.unobserved loose S [] []) h')
    (hsources : loose → h.SourcesApart S) (plan : UpdatePlan) (depth : Nat)
    {v : World (τ × Unit)} (hrest : w.desk.engaged = false → w.desk.AtRest)
    (hdesk : w.desk = v.desk) (hbooks : w.books = v.books) (hdisk : w.disk = v.disk)
    (hhost : S w.host.1 v.host.1) (raw : Bytes) :
    (apply ((h.watched o).link (console plan) depth) plan raw).Unmoved loose S w
      (apply ((h'.watched .nobody).link (console (plan.keeping false)) depth) (plan.keeping false)
        raw) v :=
  apply_watched ho Onlookers.nobody_ordinary hshadows hsources plan false depth hrest hdesk hbooks
    hdisk hhost raw

end Updater

/-! ### Indignant onlookers -/

namespace Sample

/-- Observers that raise something every other time, and a history without room. -/
def indignant : Onlookers Nat where
  hear _ n := (if n % 2 = 0 then none else some (.raised "ValueError" ""), n + 1)
  keep _ n := (some (.raised "OSError" ""), n)

theorem indignant_ordinary : indignant.Ordinary where
  hear e n fault h := by
    by_cases hn : n % 2 = 0
    · simp [indignant, hn] at h
    · obtain rfl : Fault.raised "ValueError" "" = fault := by simpa [indignant, hn] using h
      rfl
  keep r n fault h := by
    obtain rfl : Fault.raised "OSError" "" = fault := by simpa [indignant] using h
    rfl

/-- A host that raises and refuses nothing. -/
def calm : Host Nat := Host.plain (fun _ => none) fun _ _ => none

/-- Where it stands in giving identifiers and times does not matter to what it answers. -/
theorem calm_shadows : calm.Shadows (.unobserved True (fun _ _ => True) [] []) calm where
  reply {r r'} hr s t hst := by
    refine .done (.ok ?_) ⟨hst.disk, trivial⟩
    cases hr <;> exact HEq.rfl
  gate _ _ _ _ := ⟨rfl, trivial⟩
  freshId _ := ⟨.inl trivial, trivial⟩
  now _ := ⟨.inl trivial, trivial⟩

/-- A small world with onlookers, at the `n`-th identifier or time. -/
def watchedWorld {ρ : Type} (n : Nat) (t : ρ) : World (Nat × ρ) where
  disk := world.disk
  host := (n, t)

end Sample

namespace Updater

/-- An update that succeeds before indignant onlookers, beside one at another time with nobody
looking on. -/
theorem apply_unmoved_indignant :
    let plan := Sample.plan.keeping true
    let a := apply ((Sample.calm.watched Sample.indignant).link (console plan) 0) plan [2]
    (a.run (Sample.watchedWorld 0 0)).1.toOption.map (fun report => report.state) =
        some .running ∧
      a.Unmoved True (fun _ _ => True) (Sample.watchedWorld 0 0)
        (apply ((Sample.calm.watched .nobody).link (console (plan.keeping false)) 0)
          (plan.keeping false) [2]) (Sample.watchedWorld 7 ()) := by
  refine ⟨by decide +kernel, ?_⟩
  exact apply_unmoved Sample.indignant_ordinary Sample.calm_shadows
    (fun _ => ⟨fun _ => trivial, fun _ => trivial⟩) (Sample.plan.keeping true) 0
    (fun _ => ⟨rfl, rfl, rfl⟩) rfl rfl rfl trivial [2]

end Updater
end HotSwap
