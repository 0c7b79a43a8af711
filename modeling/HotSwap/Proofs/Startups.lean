/-
What the flow has loaded when it is started.

After each access the journal shows the disk, so that for every point of an attempt it
can be told what the active file held.  When a start succeeds, that is what the flow has
loaded; and it has it still when the attempt has ended.

* `diskAfter` — the disk as entries show it in the end;
* `FilePaths.Shown` — the four files are as the journal shows them;
* `FilePaths.Started` — a start that has succeeded, with what the active file held then;
* `startups` — the narrative of both;
* `Updater.ends_started` — the result.

Design notes: a host may write to other files than the four without a note, so that only
those four are spoken of.
-/
import HotSwap.Proofs.Agreement
import HotSwap.Proofs.Frames

namespace HotSwap

open Act

variable {σ β : Type} {link : Link σ} {flow : σ → SimulatedFlow} {w₀ w₁ w₂ w w' : World σ}
  {plan : UpdatePlan} {raw rendered : Bytes} {p : FilePaths} {c : Bytes} {view : σ → β}
  {d d' : Disk} {es es' : List Entry}

/-! ### The disk that the journal shows -/

/-- The disk as entries show it in the end. -/
def diskAfter (d : Disk) (es : List Entry) : Disk := ((es.filterMap Entry.disk?).getLast?).getD d

theorem diskAfter_append : diskAfter d (es ++ es') = diskAfter (diskAfter d es) es' := by
  rw [diskAfter, diskAfter, diskAfter, List.filterMap_append, List.getLast?_append]
  cases (es'.filterMap Entry.disk?).getLast? <;> rfl

theorem diskAfter_of_talk (h : ∀ e ∈ es, e.Talk) : diskAfter d es = d := by
  have hnone : es.filterMap Entry.disk? = [] :=
    List.filterMap_eq_nil_iff.mpr fun e he => (h e he).disk?_eq
  rw [diskAfter, hnone]
  rfl

theorem contents_diskAfter (h : p.contents d = p.contents d') (es : List Entry) :
    p.contents (diskAfter d es) = p.contents (diskAfter d' es) := by
  rw [diskAfter, diskAfter]
  cases (es.filterMap Entry.disk?).getLast? with
  | none => exact h
  | some disk => rfl

namespace FilePaths

/-- The four files are as the journal shows them. -/
def Shown (p : FilePaths) (w w' : World σ) : Prop :=
  w.Grown w' ∧ p.contents (diskAfter w.disk (w.since w')) = p.contents w'.disk

theorem Shown.trans (h : p.Shown w w₁) (h' : p.Shown w₁ w') : p.Shown w w' := by
  refine ⟨h.1.trans h'.1, ?_⟩
  rw [h.1.since_trans h'.1, diskAfter_append, contents_diskAfter h.2, h'.2]

/-- Where no entry is made, and the disk stays as it is. -/
theorem shown_of_journal (hjournal : w'.journal = w.journal) (hdisk : w'.disk = w.disk) :
    p.Shown w w' := by
  refine ⟨World.grown_of_journal hjournal, ?_⟩
  rw [World.since_of_journal hjournal, hdisk]
  rfl

theorem Kept.shown (h : p.Kept view w w') : p.Shown w w' := by
  refine ⟨h.grown, ?_⟩
  rw [diskAfter_of_talk h.talk, h.contents]

instance : Course (p.Shown (σ := σ)) where
  refl _ := shown_of_journal rfl rfl
  trans := Shown.trans
  log _ _ := shown_of_journal rfl rfl
  polls _ _ := shown_of_journal rfl rfl

/-- Nothing is entered into the journal. -/
def Unnoted (w w' : World σ) : Prop := w'.journal = w.journal

instance : Course (Unnoted (σ := σ)) where
  refl _ := rfl
  trans h h' := Eq.trans h' h
  log _ _ := rfl
  polls _ _ := rfl

/-- Each access shows what it does to the disk. -/
theorem handles_shown (p : FilePaths) (link : Link σ) : link.Handles p.Shown fun _ => True := by
  refine Link.handles_of_noted (J := Unnoted) (fun _ _ => rfl) (fun _ _ => rfl) ?_
    (fun _ _ => shown_of_journal rfl rfl) fun w o _ => ?_
  · intro w w' e hjournal he
    refine ⟨?_, ?_⟩
    · rw [World.Grown, World.enter, hjournal]
      exact List.prefix_append _ _
    · rw [World.since, World.enter, hjournal, List.drop_left, diskAfter]
      simp [he]
  · refine ⟨World.grown_enter w _, ?_⟩
    rw [World.since_enter]
    rfl

/-! ### Starts -/

/-- A start has succeeded, with what the active file held just then; and the flow has it
still. -/
def Started (p : FilePaths) (flow : σ → SimulatedFlow) (w₀ w : World σ) : Prop :=
  ∃ before after c, w₀.since w = before ++ Entry.answered .startProcessing (.ok ()) :: after ∧
    p.Holds (diskAfter w₀.disk before) c ∧ (flow w.host).loaded = some c

/-- What comes later leaves the start in the journal, and the flow with what it has
loaded. -/
theorem Started.later (h : p.Started flow w₀ w) (hgrown₀ : w₀.Grown w) (hgrown : w.Grown w')
    (hhost : (flow w'.host).loaded = (flow w.host).loaded) : p.Started flow w₀ w' := by
  obtain ⟨before, after, c, hsince, hholds, hloaded⟩ := h
  refine ⟨before, after ++ w.since w', c, ?_, hholds, hhost.trans hloaded⟩
  rw [hgrown₀.since_trans hgrown, hsince, List.append_assoc, List.cons_append]

end FilePaths

namespace Link.Simulates

variable (hlink : link.Simulates p flow)

include hlink

/-- A start that succeeds finds the active file as it was loaded. -/
theorem ends_validateAndStart_started (budget : Budget) (listens : Bool)
    (hengaged : w.desk.engaged = true) (hshown : p.Shown w₀ w) (hloaded : p.Loaded flow c w) :
    (validateAndStart link budget listens).Ends w (fun _ w' => p.Started flow w₀ w')
      fun _ _ => True := by
  have hstart := fun w => (hlink.start w).and (hlink.sparing.start w)
  refine (HotSwap.ends_validateAndStart (fun _ => Fault.ordinary)
    (hlink.manners.keeps.mono fun _ => Request.isQuiet_of_isValidation) budget listens
    (fun w => (hstart w).mono (fun _ _ h => h) fun _ _ he => he.1) w).mono ?_ fun _ _ _ => trivial
  rintro - w' ⟨w₁, w₂, h₁, ⟨hstanding, hstarts, hstarted⟩, h₃⟩
  obtain ⟨hengaged₁, -, hkept₁⟩ := h₁ hengaged
  obtain ⟨hengaged₂, -, hkept₂⟩ := hstarts hengaged₁
  obtain ⟨-, -, hstanding₂⟩ := hstanding hengaged₁
  obtain ⟨-, -, hkept₃⟩ := h₃ hengaged₂
  have hloaded₁ := hloaded.congr (congrFun hkept₁.contents _) (Prod.mk.inj hkept₁.host).1
  have hshown₁ := hshown.trans hkept₁.shown
  -- the start is among the talk, in which nothing is done to the disk
  obtain ⟨before, after, hsince⟩ := List.append_of_mem (hstarted hengaged₁)
  have htalk : ∀ e ∈ before, e.Talk := fun e he =>
    hkept₂.talk e (hsince ▸ List.mem_append_left _ he)
  have hholds : p.Holds (diskAfter w₀.disk (w₀.since w₁ ++ before)) c := by
    rw [diskAfter_append, diskAfter_of_talk htalk]
    exact hloaded₁.1.congr (congrFun hshown₁.2 _)
  refine FilePaths.Started.later (w := w₂) ⟨w₀.since w₁ ++ before, after, c, ?_, hholds, ?_⟩
    (hshown₁.1.trans hkept₂.grown) hkept₃.grown (Prod.mk.inj hkept₃.host).1
  · rw [hshown₁.1.since_trans hkept₂.grown, hsince, List.append_assoc]
  · exact (Prod.mk.inj hstanding₂).1.trans hloaded₁.2

/-- So does one that has reloaded the restored files. -/
theorem ends_reloadReverted_started (budget : Budget) (hengaged : w.desk.engaged = true)
    (hshown : p.Shown w₀ w) :
    (Attempt.reloadReverted link budget).Ends w (fun _ w' => p.Started flow w₀ w')
      fun _ _ => True := by
  refine ends_reloadReverted_of budget (((hlink.ends_loadFlow hengaged).and
    (hlink.sparing.loadFlow_within w)).bind ?_ fun _ _ _ => trivial)
  rintro - w₁ ⟨⟨hengaged₁, c, hloaded⟩, h₁⟩
  exact hlink.ends_validateAndStart_started budget false hengaged₁
    (hshown.trans (h₁ hengaged).2.2.shown) hloaded

/-- An enrichment leaves the disk as it is shown. -/
theorem ends_enrich_shown (plan : UpdatePlan) (raw : Bytes) (hengaged : w.desk.engaged = true)
    (hshown : p.Shown w₀ w) :
    (Attempt.enrich link plan raw).Ends w (fun _ w' => p.Shown w₀ w') fun _ w' => p.Shown w₀ w' := by
  have henter : ∀ {w : World σ} {r : Request}, p.Shown w (w.enter (.asked r)) ∧
      ∀ answer, p.Shown w (w.enter (.answered r answer)) := fun {w r} => by
    refine ⟨⟨World.grown_enter w _, ?_⟩, fun answer => ⟨World.grown_enter w _, ?_⟩⟩
    · rw [World.since_enter]
      rfl
    · rw [World.since_enter]
      rfl
  have hasked : (link.ask (.enrich raw)).Ends w (fun _ w' => p.Shown w₀ w')
      fun _ w' => p.Shown w₀ w' := by
    refine (hlink.sparing.enrich raw w).mono ?_ ?_
    · rintro payload w' ⟨w₁, h₁, rfl⟩
      exact hshown.trans (henter.1.trans ((h₁ hengaged).2.2.shown.trans (henter.2 _)))
    · rintro e w' ⟨-, w₁, h₁, rfl⟩
      exact hshown.trans (henter.1.trans ((h₁ hengaged).2.2.shown.trans (henter.2 _)))
  rw [Attempt.enrich]
  split
  · rw [ends_bind, ends_guarded]
    refine hasked.mono ?_ fun _ _ h => ?_
    · rintro (rendered | typeName) w' h
      · exact h
      · exact h
    · split
      · exact h
      · exact h
  · exact hshown

end Link.Simulates

/-! ### From juncture to juncture -/

/-- Whether the flow has been started at a juncture. -/
def Juncture.starts : Juncture → Bool
  | .running | .reloaded _ => true
  | _ => false

/-- The journal shows the four files at a juncture, and the start, if there was one. -/
def Footing (p : FilePaths) (flow : σ → SimulatedFlow) (w₀ : World σ) (j : Juncture)
    (w : World σ) : Prop :=
  p.Shown w₀ w ∧ (j.starts = true → p.Started flow w₀ w)

theorem stable_shown (p : FilePaths) (view : σ → β) (w₀ : World σ) :
    p.Stable view fun w => p.Shown w₀ w := fun _ _ hkept h => h.trans hkept.shown

theorem stable_footing (p : FilePaths) (flow : σ → SimulatedFlow) (w₀ : World σ) (j : Juncture) :
    p.Stable (fun s => (flow s).standing) (Footing p flow w₀ j) := fun _ _ hkept h =>
  ⟨h.1.trans hkept.shown, fun hj =>
    (h.2 hj).later h.1.1 hkept.grown (Prod.mk.inj hkept.host).1⟩

/-- An action that shows what it does to the files. -/
def Act.Shows {α : Type} (a : Act σ α) (p : FilePaths) (w : World σ) : Prop :=
  a.Ends w (fun _ w' => p.Shown w w') fun _ w' => p.Shown w w'

theorem Act.Within.shows {α : Type} {a : Act σ α} {F : Fault → Prop} (ha : a.Within p.Shown F)
    (w : World σ) : a.Shows p w := (ha w).mono (fun _ _ h => h) fun _ _ he => he.2

theorem Act.Within.shows_of_discreet {α : Type} {a : Act σ α} {F : Fault → Prop}
    (ha : a.Within (p.Discreet view) F) (hengaged : w.desk.engaged = true) : a.Shows p w :=
  (ha w).mono (fun _ _ h => (h hengaged).2.2.shown) fun _ _ he => (he.2 hengaged).2.2.shown

/-- Where the flow is not started, only the files matter. -/
theorem footing_of_shown {j : Juncture} (h : p.Shown w₀ w) (hj : j.starts = false) :
    Footing p flow w₀ j w :=
  ⟨h, fun hstarts => absurd hstarts (by simp [hj])⟩

section

variable {α : Type} {a : Act σ α} {j j' j'' : Juncture} (ha : a.Shows p w)
  (hfooting : Footing p flow w₀ j w) (hj'' : j''.starts = false)

include ha hfooting hj''

/-- An action that does not start the flow. -/
theorem ends_footing (hj' : j'.starts = false) :
    a.Ends w (fun _ w' => Footing p flow w₀ j' w') fun e w' =>
      if e.interrupts then Footing p flow w₀ .cut w' else Footing p flow w₀ j'' w' := by
  refine Ends.mono ha (fun _ w' h => footing_of_shown (hfooting.1.trans h) hj') fun e w' h => ?_
  split
  · exact footing_of_shown (hfooting.1.trans h) rfl
  · exact footing_of_shown (hfooting.1.trans h) hj''

/-- An action that starts the flow, unless it fails. -/
theorem ends_footing_started
    (hstarted : a.Ends w (fun _ w' => p.Started flow w₀ w') fun _ _ => True) :
    a.Ends w (fun _ w' => Footing p flow w₀ j' w') fun e w' =>
      if e.interrupts then Footing p flow w₀ .cut w' else Footing p flow w₀ j'' w' := by
  refine (Ends.and ha hstarted).mono (fun _ w' h => ⟨hfooting.1.trans h.1, fun _ => h.2⟩)
    fun e w' h => ?_
  split
  · exact footing_of_shown (hfooting.1.trans h.1) rfl
  · exact footing_of_shown (hfooting.1.trans h.1) hj''

end

section

variable (hp : plan.files.Separate) (hlink : link.Simulates plan.files flow)

/-- The outline of the files and the flow, with what the journal shows of them. -/
def startupsOutline (w₀ : World σ) (raw rendered : Bytes) :
    Outline link plan (fun s => (flow s).standing) False raw rendered where
  holds j w := Stance plan.files flow w₀ raw rendered j w ∧ Footing plan.files flow w₀ j w
  stable j := ((agreementOutline hp hlink w₀ raw rendered).stable j).and
    (stable_footing plan.files flow w₀ j)
  backup := (agreementOutline hp hlink w₀ raw rendered).backup.and fun w _ _ hfooting =>
    ends_footing ((FileSet.backup_within (plan.files.handles_shown link) _ trivial).shows w) hfooting rfl
      rfl
  persist := (agreementOutline hp hlink w₀ raw rendered).persist.and fun w _ _ hfooting =>
    ends_footing ((FileSet.persist_within (plan.files.handles_shown link) _ _ _ trivial).shows w)
      hfooting rfl rfl
  drain := (agreementOutline hp hlink w₀ raw rendered).drain.and fun _ hin _ hfooting =>
    ends_footing ((hlink.sparing.drain_within _ _).shows_of_discreet hin.1) hfooting rfl rfl
  load := (agreementOutline hp hlink w₀ raw rendered).load.and fun _ hin _ hfooting =>
    ends_footing (hlink.sparing.loadFlow_within.shows_of_discreet hin.1) hfooting rfl rfl
  start := by
    refine (agreementOutline hp hlink w₀ raw rendered).start.and ?_
    rintro w hin ⟨-, _, hloaded⟩ hfooting
    exact ends_footing_started
      ((hlink.sparing.validateAndStart_within _ _).shows_of_discreet hin.1) hfooting rfl
      (hlink.ends_validateAndStart_started _ _ hin.1 hfooting.1 hloaded)
  revert failed := ((agreementOutline hp hlink w₀ raw rendered).revert failed).and
    fun w _ _ hfooting => ends_footing
      ((Attempt.revertFiles_within (plan.files.handles_shown link) _ trivial).shows w) hfooting
        rfl rfl
  reload failed htouches :=
    ((agreementOutline hp hlink w₀ raw rendered).reload failed htouches).and
      fun _ hin _ hfooting => ends_footing_started
        ((hlink.sparing.reloadReverted_within _).shows_of_discreet hin.1) hfooting rfl
        (hlink.ends_reloadReverted_started _ hin.1 hfooting.1)

/-- The files and the flow of an attempt, with what the journal shows of them, from its
beginning to its end. -/
def startups (w₀ : World σ) (raw : Bytes) :
    Narrative link plan (fun s => (flow s).standing) False raw where
  begun w := (agreement hp hlink w₀ raw).begun w ∧ plan.files.Shown w₀ w
  outline rendered := startupsOutline hp hlink w₀ raw rendered
  stable_begun := (agreement hp hlink w₀ raw).stable_begun.and (stable_shown plan.files _ w₀)
  enrich := by
    have hshows : ∀ w : World σ, w.IsIn .enriching → (agreement hp hlink w₀ raw).begun w →
        plan.files.Shown w₀ w → (Attempt.enrich link plan raw).Ends w
          (fun _ w' => plan.files.Shown w₀ w')
          fun e w' => if e.interrupts then plan.files.Shown w₀ w' else plan.files.Shown w₀ w' := by
      intro w hin _ hshown
      refine (hlink.ends_enrich_shown plan raw hin.1 hshown).mono (fun _ _ h => h) fun e w' h => ?_
      rwa [ite_self]
    refine fun w hin hw => ((agreement hp hlink w₀ raw).enrich.and hshows w hin hw).mono ?_
      fun _ _ h => h
    rintro (_ | rendered) w' ⟨hin', h, hshown⟩
    · exact ⟨hin', h, hshown⟩
    · exact ⟨hin', h, footing_of_shown hshown rfl⟩

end

/-! ### Updates -/

/-- An update that has ended with its candidate running, or with what was there before
reloaded, has started the flow with what the active file held just then. -/
theorem Updater.ends_started (hp : plan.files.Separate) (hlink : link.Simulates plan.files flow)
    (hfree : w.desk.engaged = false) (raw : Bytes) :
    (apply link plan raw).Ends w
      (fun report w' => (report.state = .running ∨ report.state = .reverted ∧
          ∃ phase, report.failedPhase = some phase ∧ phase.touchesRuntime = true) →
        plan.files.Started flow w w')
      fun _ _ => False := by
  refine ((startups hp hlink w raw).ends_apply hp hlink.manners hfree ⟨⟨.start plan.files w, rfl⟩,
    Course.refl w⟩).mono ?_ fun _ _ he => he.1.2
  rintro report w'
    ((⟨hstate, -⟩ | ⟨rendered, j, ⟨w₁, ⟨-, hfooting⟩, hafter⟩, hj⟩) | ⟨hstate, -⟩) hruns
  · rw [hstate] at hruns
    rcases hruns with h | ⟨h, -⟩ <;> cases h
  · have hstarts : j.starts = true := by
      rcases hruns with hstate | ⟨hstate, phase, hphase, htouches⟩
      · rw [hstate] at hj
        rw [hj.eq_running]
        rfl
      · rw [hstate, hphase] at hj
        cases j with
        | running => rfl
        | restored failed =>
          obtain ⟨-, -, -, hfailed, hapart⟩ := hj
          obtain rfl := Option.some.inj hfailed
          rw [hapart] at htouches
          cases htouches
        | reloaded failed => rfl
        | unrestored failed => cases hj.1
        | unreloaded failed => cases hj.1
        | _ => exact hj.elim
    refine (hfooting.2 hstarts).later hfooting.1.1
      ((World.grown_enter w₁ (.began .cleanup)).trans hafter.grown) ?_
    exact (Prod.mk.inj hafter.host).1
  · rw [hstate] at hruns
    rcases hruns with h | ⟨h, -⟩ <;> cases h

end HotSwap
