/-
What is done in which phase.

With each entry the journal notes the phase of the updater.  As long as an attempt is
running only the attempt itself goes from phase to phase: whatever the host does or
orders meanwhile is done in the phase in which the host was asked.

* `Instant`, `World.instants` — an entry of the journal with its phase, and those that have
  come between two worlds;
* `World.Adds` — the journal has been continued by these;
* `World.Dwells` — a running attempt stays in its phase, and so does all that is done;
* `Host.dwells_link` — asking the host leaves an attempt in its phase;
* `World.Shows` — something is known of the instants of interest.

Design notes: readings of the journal do not look at phases.  What is read in one phase is
brought together with the phase in `World.Shows.of_reads`.
-/
import HotSwap.Proofs.Tellings

namespace HotSwap

open Act

variable {σ α β : Type} {w w' w'' : World σ} {keep : Entry → Bool} {F : Fault → Prop}

/-- An entry of the journal, and the phase of the updater when it was made. -/
structure Instant where
  phase : Phase
  entry : Entry

variable {is is' : List Instant} {S T U : List Instant → Prop}

namespace World

/-- What was done between two worlds of one run, and in which phase. -/
def instants (w w' : World σ) : List Instant :=
  List.zipWith Instant.mk (w'.phases.drop w.phases.length) (w.since w')

/-- The journal of `w'` continues that of `w` by these instants. -/
structure Adds (w : World σ) (is : List Instant) (w' : World σ) : Prop where
  journal : w'.journal = w.journal ++ is.map (·.entry)
  phases : w'.phases = w.phases ++ is.map (·.phase)

theorem adds_of_journal (hjournal : w'.journal = w.journal) (hphases : w'.phases = w.phases) :
    w.Adds [] w' := ⟨by simp [hjournal], by simp [hphases]⟩

theorem adds_enter (w : World σ) (e : Entry) : w.Adds [⟨w.desk.phase, e⟩] (w.enter e) := ⟨rfl, rfl⟩

namespace Adds

theorem trans (h : w.Adds is w') (h' : w'.Adds is' w'') : w.Adds (is ++ is') w'' where
  journal := by rw [h'.journal, h.journal, List.append_assoc, List.map_append]
  phases := by rw [h'.phases, h.phases, List.append_assoc, List.map_append]

theorem since_eq (h : w.Adds is w') : w.since w' = is.map (·.entry) := by
  rw [since, h.journal, List.drop_left]

theorem instants_eq (h : w.Adds is w') : w.instants w' = is := by
  rw [instants, h.since_eq, h.phases, List.drop_left, List.zipWith_map, List.zipWith_self]
  exact List.map_id is

end Adds

/-! ### Staying in a phase -/

/-- While an attempt is running it goes on to run and stays in its phase, and all that is
done is done in that phase. -/
def Dwells (w w' : World σ) : Prop :=
  w.desk.engaged = true → w'.desk.engaged = true ∧ w'.desk.phase = w.desk.phase ∧
    ∃ es : List Entry, w.Adds (es.map (Instant.mk w.desk.phase)) w'

theorem dwells_of_journal (hengaged : w'.desk.engaged = w.desk.engaged)
    (hphase : w'.desk.phase = w.desk.phase) (hjournal : w'.journal = w.journal)
    (hphases : w'.phases = w.phases) : w.Dwells w' := fun h =>
  ⟨hengaged.trans h, hphase, [], adds_of_journal hjournal hphases⟩

theorem dwells_enter (w : World σ) (e : Entry) : w.Dwells (w.enter e) := fun h =>
  ⟨h, rfl, [e], w.adds_enter e⟩

theorem Dwells.trans (h : w.Dwells w') (h' : w'.Dwells w'') : w.Dwells w'' := fun hengaged => by
  obtain ⟨hengaged', hphase, es, hadds⟩ := h hengaged
  obtain ⟨hengaged'', hphase', es', hadds'⟩ := h' hengaged'
  refine ⟨hengaged'', hphase'.trans hphase, es ++ es', ?_⟩
  rw [hphase] at hadds'
  rw [List.map_append]
  exact hadds.trans hadds'

end World

instance : Course (World.Dwells (σ := σ)) where
  refl _ := World.dwells_of_journal rfl rfl rfl rfl
  trans := World.Dwells.trans
  log _ _ := World.dwells_of_journal rfl rfl rfl rfl
  polls _ _ := World.dwells_of_journal rfl rfl rfl rfl

private theorem choose_dwells (f : σ → α × σ) : (Link.choose f).Within World.Dwells F := fun _ =>
  World.dwells_of_journal rfl rfl rfl rfl

namespace Host

theorem exchange_dwells (h : Host σ) {orders : Command → Act σ Reply}
    (horders : ∀ c, (orders c).Within World.Dwells fun _ => True) (r : Request) :
    (Act.exchange r ((h.reply r).perform orders)).Within World.Dwells fun _ => True := by
  intro w
  have hend : ∀ (w₁ : World σ) (s : Scene σ) (answer : Except Fault r.Answer),
      (w.enter (.asked r)).Dwells w₁ → w.Dwells
        (World.enter { w₁ with disk := s.disk, host := s.host } (.answered r answer)) := by
    intro w₁ s answer h₁
    have hscene : w₁.Dwells { w₁ with disk := s.disk, host := s.host } :=
      World.dwells_of_journal rfl rfl rfl rfl
    exact ((w.dwells_enter _).trans h₁).trans (hscene.trans (World.dwells_enter _ _))
  rw [ends_exchange, Play.perform, ends_bind, ends_look]
  refine (Conduct.ends_perform (fun _ _ _ => World.dwells_of_journal rfl rfl rfl rfl) horders
    (h.raises_any r _)).mono ?_ ?_
  · rintro x w' ⟨w₁, s, h₁, -, rfl⟩
    exact hend w₁ s (.ok x) h₁
  · rintro e w' ⟨w₁, s, h₁, -, rfl⟩
    exact ⟨trivial, hend w₁ s (.error e) h₁⟩

/-- Whatever a host is asked for leaves an attempt in its phase, however deep its orders are
nested. -/
theorem dwells_link (h : Host σ) (plan : UpdatePlan) (depth : Nat) :
    (h.link (Updater.console plan) depth).Keeps World.Dwells (fun _ => True) fun _ => True := by
  -- one level deeper, orders go through a link at which this is known to hold
  induction depth with
  | zero =>
    exact ⟨fun r _ => h.exchange_dwells (fun _ => within_raise trivial) r, choose_dwells _,
      choose_dwells _⟩
  | succ depth ih =>
    refine ⟨fun r _ => h.exchange_dwells (fun c => ?_) r, choose_dwells _, choose_dwells _⟩
    have hvoid : ∀ w w' : World σ, ¬ w.desk.engaged = true → w.Dwells w' :=
      fun _ _ hw h => absurd h hw
    refine Updater.console_within (fun _ _ hengaged hphase _ =>
      World.dwells_of_journal hengaged hphase rfl rfl) (fun raw => ?_) c
    refine Updater.apply_within_of_refused hvoid (fun _ _ hw h => (h hw).1) (fun w _ => ?_)
      fun _ => trivial
    refine (Attempt.start_within ih.newId ih.time raw w).mono ?_ fun _ _ he => he
    exact fun a _ h => ⟨h, fun o drained => a.finish_within plan o drained ih.time
      (fun _ _ _ _ => ih.ask _ trivial) fun _ _ => ih.ask _ trivial⟩

end Host

/-! ### Instants of interest -/

namespace World

/-- While an attempt is running it goes on to run, and `T` holds of the instants of
interest. -/
def Shows (keep : Entry → Bool) (T : List Instant → Prop) (w w' : World σ) : Prop :=
  w.desk.engaged = true → w'.desk.engaged = true ∧
    ∃ is, w.Adds is w' ∧ T (is.filter (keep ·.entry))

namespace Shows

theorem trans (h : w.Shows keep S w') (h' : w'.Shows keep U w'')
    (hT : ∀ is is', S is → U is' → T (is ++ is')) : w.Shows keep T w'' := fun hengaged => by
  obtain ⟨hengaged', is, hadds, hS⟩ := h hengaged
  obtain ⟨hengaged'', is', hadds', hU⟩ := h' hengaged'
  exact ⟨hengaged'', is ++ is', hadds.trans hadds', by
    rw [List.filter_append]
    exact hT _ _ hS hU⟩

/-- What is read of a stretch in one phase is shown in that phase. -/
theorem of_reads {l : List Entry} {phase : Phase}
    (hreads : w.Reads (fun b _ => b = true) keep l w')
    (hphase : w.desk.engaged = true → ∃ es : List Entry, w.Adds (es.map (Instant.mk phase)) w')
    (hT : T (l.map (Instant.mk phase))) : w.Shows keep T w' := fun hengaged => by
  obtain ⟨hengaged', -, -, -, hfilter⟩ := hreads hengaged
  obtain ⟨es, hadds⟩ := hphase hengaged
  refine ⟨hengaged', _, hadds, ?_⟩
  rw [hadds.since_eq, List.map_map] at hfilter
  have hes : es.filter keep = l := by simpa [Function.comp_def] using hfilter
  rw [List.filter_map]
  exact hes ▸ hT

theorem instants (h : w.Shows keep T w') (hengaged : w.desk.engaged = true) :
    T ((w.instants w').filter (keep ·.entry)) := by
  obtain ⟨-, is, hadds, hT⟩ := h hengaged
  rwa [hadds.instants_eq]

end Shows

theorem shows_of_journal [Cumulative T] (hengaged : w'.desk.engaged = w.desk.engaged)
    (hjournal : w'.journal = w.journal) (hphases : w'.phases = w.phases) : w.Shows keep T w' :=
  fun h => ⟨hengaged.trans h, [], adds_of_journal hjournal hphases, Cumulative.nil⟩

theorem shows_enter [Cumulative T] {e : Entry} (he : keep e = false) : w.Shows keep T (w.enter e) :=
  fun h => ⟨h, _, w.adds_enter e, by
    rw [List.filter_cons_of_neg (by simp [he]), List.filter_nil]
    exact Cumulative.nil⟩

/-- What is silent shows nothing. -/
theorem shows_of_silent [Cumulative T] (hsilent : w.Silent (fun b _ => b = true) keep w')
    (hdwells : w.Dwells w') : w.Shows keep T w' :=
  .of_reads hsilent (fun h => (hdwells h).2.2) Cumulative.nil

end World

instance [Cumulative T] : Course (World.Shows (σ := σ) keep T) where
  refl _ := World.shows_of_journal rfl rfl rfl
  trans h h' := h.trans h' fun _ _ => Cumulative.append
  log _ _ := World.shows_of_journal rfl rfl rfl
  polls _ _ := World.shows_of_journal rfl rfl rfl

/-- Where `S` holds of what the first part shows and `U` of what the second part does, `T`
holds of both together; the first part does not fail. -/
theorem Act.Within.bind_shows {a : Act σ α} {f : α → Act σ β}
    (h : a.Within (World.Shows keep S) fun _ => False) (hf : ∀ x, (f x).Within (World.Shows keep U) F)
    (hT : ∀ is is', S is → U is' → T (is ++ is')) :
    (a >>= f).Within (World.Shows keep T) F := fun w =>
  (h w).bind (fun x w' hw => (hf x w').mono (fun _ _ hw' => hw.trans hw' hT)
    fun _ _ he => ⟨he.1, hw.trans he.2 hT⟩) fun _ _ he => he.1.elim

end HotSwap
