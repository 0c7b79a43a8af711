/-
Attempts whose backup fails.

A backup overwrites nothing, so that an attempt whose backup fails has nothing to take
back.  The way back still puts the copies that were made into their places again.  Where an
access fails in that, the attempt cannot say that the previous files are back, although they
never were away.

* `Unpersisting` — a stretch in which no persist begins;
* `RevertRefused` — an access of a revert has failed;
* `Harmless` — what is known of the journal from juncture to juncture, if the backup fails;
* `backouts` — the narrative of the files, with this;
* `Updater.ends_apply_backedOut` — how an attempt ends whose backup has failed;
* `Updater.not_reverted_uncopying` — not always reverted.

Design notes: the files come from the narrative of their safekeeping, the calls of the flow
from the journey of the attempt; it is the journey that shows that no fault escapes.
-/
import HotSwap.Proofs.CallSafety
import HotSwap.Proofs.Endings

namespace HotSwap

open Act

variable {σ β α : Type} {view : σ → β} {link : Link σ} {w₀ w w' w'' : World σ} {cuts rough : Prop}
  {plan : UpdatePlan} {raw rendered : Bytes} {p : FilePaths} {j : Juncture} {es : List Entry}

/-! ### What the journal shows -/

/-- The journal has grown, and no persist has begun. -/
def Unpersisting (w w' : World σ) : Prop :=
  w.Grown w' ∧ Entry.began .persist ∉ w.since w'

namespace Unpersisting

theorem of_journal (h : w'.journal = w.journal) : Unpersisting w w' :=
  ⟨World.grown_of_journal h, by simp [World.since_of_journal h]⟩

theorem enter (w : World σ) {e : Entry} (he : e ≠ .began .persist) : Unpersisting w (w.enter e) :=
  ⟨World.grown_enter w e, by rw [World.since_enter]; simpa using he.symm⟩

theorem trans (h : Unpersisting w w') (h' : Unpersisting w' w'') : Unpersisting w w'' := by
  refine ⟨h.1.trans h'.1, ?_⟩
  rw [h.1.since_trans h'.1, List.mem_append, not_or]
  exact ⟨h.2, h'.2⟩

theorem of_kept (h : p.Kept view w w') : Unpersisting w w' :=
  ⟨h.grown, fun he => (h.talk _ he).ne_began _ rfl⟩

end Unpersisting

instance : Course (Unpersisting (σ := σ)) where
  refl _ := .of_journal rfl
  trans := .trans
  log _ _ := .of_journal rfl
  polls _ _ := .of_journal rfl

/-- Of all that is done with files, only a persist begins one. -/
theorem Link.handles_unpersisting (link : Link σ) : link.Handles Unpersisting (· ≠ .persist) := by
  refine Link.handles_of_noted (J := FilePaths.Unnoted) (fun _ _ => rfl) (fun _ _ => rfl) ?_
    (fun _ _ => .of_journal rfl) fun w o ho => .enter w (by simpa using ho)
  intro w w' e hjournal he
  exact Unpersisting.trans (.of_journal hjournal) (.enter w' (Entry.ne_began_of_disk? he _))

/-- An access has failed after a revert had begun. -/
def RevertRefused (es : List Entry) : Prop :=
  ∃ before after, es = before ++ Entry.began .revert :: after ∧ ∃ e ∈ after, e.failed = true

theorem RevertRefused.append (h : RevertRefused es) (es' : List Entry) :
    RevertRefused (es ++ es') := by
  obtain ⟨before, after, rfl, e, he, hfailed⟩ := h
  exact ⟨before, after ++ es', by simp, e, List.mem_append_left _ he, hfailed⟩

/-! ### From juncture to juncture -/

/-- What the journal shows on the way to a failed backup, and back from it. -/
structure Harmless (w₀ w : World σ) (j : Juncture) : Prop where
  unpersisted : j ∈ [.rendered, .broken .backingUp, .restored .backingUp, .unrestored .backingUp] →
    Entry.began .persist ∉ w₀.since w
  refused : j = .unrestored .backingUp → RevertRefused (w₀.since w)
  unreached : j ∉ [.reloaded .backingUp, .unreloaded .backingUp]

namespace Harmless

/-- Away from the backup there is nothing to know. -/
theorem of_apart (hj : j ∉ [.rendered, .broken .backingUp, .restored .backingUp,
      .unrestored .backingUp, .reloaded .backingUp, .unreloaded .backingUp]) :
    Harmless w₀ w j := by
  simp only [List.mem_cons, List.not_mem_nil, or_false, not_or] at hj
  obtain ⟨h₁, h₂, h₃, h₄, h₅, h₆⟩ := hj
  exact ⟨by simp [h₁, h₂, h₃, h₄], fun h => absurd h h₄, by simp [h₅, h₆]⟩

theorem later (h : Harmless w₀ w j) (hgrown : w₀.Grown w) (h' : Unpersisting w w') :
    Harmless w₀ w' j where
  unpersisted hj := (Unpersisting.trans ⟨hgrown, h.unpersisted hj⟩ h').2
  refused hj := by
    rw [hgrown.since_trans h'.1]
    exact (h.refused hj).append _
  unreached := h.unreached

end Harmless

/-- An action from which on there is nothing to know. -/
theorem ends_harmless_of_apart {a : Act σ α} {j' j'' : Juncture}
    (hj' : ∀ w' : World σ, Harmless w₀ w' j') (hj'' : ∀ w' : World σ, Harmless w₀ w' j'') :
    a.Ends w (fun _ w' => Harmless w₀ w' j') fun e w' =>
      if e.interrupts then Harmless w₀ w' .cut else Harmless w₀ w' j'' := by
  refine .of_forall (fun _ w' => hj' w') fun e w' => ?_
  split
  · exact .of_apart (by simp)
  · exact hj'' w'

/-- A backup that fails has not been persisted. -/
theorem ends_backup_harmless (p : FilePaths) (hgrown : w₀.Grown w)
    (hw : Harmless w₀ w .rendered) : (FileSet.backup link p).Ends w
      (fun _ w' => Harmless w₀ w' .backedUp) fun e w' =>
        if e.interrupts then Harmless w₀ w' .cut else Harmless w₀ w' (.broken .backingUp) := by
  have hbackup := FileSet.backup_within link.handles_unpersisting p (by simp) w
  refine Ends.mono hbackup (fun _ w' _ => .of_apart (by simp)) fun e w' he => ?_
  split
  · exact .of_apart (by simp)
  · have h := Unpersisting.trans ⟨hgrown, hw.unpersisted (by simp)⟩ he.2
    exact ⟨fun _ => h.2, by simp, by simp⟩

/-- A revert that fails has been refused an access. -/
theorem ends_revertFiles_harmless (hp : p.Separate) (hlink : link.Steady view) {failed : Phase}
    (hsafe : Safe p w₀ raw rendered (.broken failed) w) (hw : Harmless w₀ w (.broken failed)) :
    (Attempt.revertFiles link p).Ends w (fun _ w' => Harmless w₀ w' (.restored failed))
      fun e w' => if e.interrupts then Harmless w₀ w' .cut
        else Harmless w₀ w' (.unrestored failed) := by
  have hgrown := hsafe.chronicle.grown
  -- after another phase than the backup there is nothing to know
  by_cases hfailed : failed = .backingUp
  · subst hfailed
    rw [Attempt.revertFiles]
    refine ((FileSet.ends_revert hp hlink (hsafe.custody rfl)).and
      (FileSet.revert_within (F := fun _ => True) link.handles_unpersisting p (by simp) w)).bind ?_
      fun _ _ he => he.1.elim
    rintro reverted w' ⟨⟨hguarded, hend⟩, hunpersisting⟩
    have h := Unpersisting.trans ⟨hgrown, hw.unpersisted (by simp)⟩ hunpersisting
    cases reverted with
    | true => exact ⟨fun _ => h.2, by simp, by simp⟩
    | false =>
      refine ⟨fun _ => h.2, fun _ => ⟨w₀.since w, _, ?_, hend⟩, by simp⟩
      rw [(hgrown.trans (World.grown_enter w _)).since_trans hguarded.grown,
        hgrown.since_trans (World.grown_enter w _), World.since_enter, List.append_assoc,
        List.singleton_append]
  · exact ends_harmless_of_apart (fun _ => .of_apart (by simp [hfailed]))
      fun _ => .of_apart (by simp [hfailed])

/-- An enrichment persists nothing. -/
theorem Link.Sparing.ends_enrich_unpersisting
    (hlink : link.Sparing plan.files view cuts rough) (raw : Bytes)
    (hengaged : w.desk.engaged = true) : (Attempt.enrich link plan raw).Ends w
      (fun _ w' => Unpersisting w w') fun _ w' => Unpersisting w w' := by
  have hasked : (link.ask (.enrich raw)).Ends w (fun _ w' => Unpersisting w w')
      fun _ w' => Unpersisting w w' := by
    have henter := Unpersisting.enter w (e := .asked (.enrich raw)) (by simp)
    refine (hlink.enrich raw w).mono ?_ ?_
    · rintro payload w' ⟨w₁, h₁, rfl⟩
      exact henter.trans ((Unpersisting.of_kept (h₁ hengaged).2.2).trans (.enter w₁ (by simp)))
    · rintro e w' ⟨-, w₁, h₁, rfl⟩
      exact henter.trans ((Unpersisting.of_kept (h₁ hengaged).2.2).trans (.enter w₁ (by simp)))
  rw [Attempt.enrich]
  split
  · rw [ends_bind, ends_guarded]
    refine hasked.mono ?_ fun _ _ h => ?_
    · rintro (rendered | typeName) w' h
      · exact h
      · exact h
    · split
      · exact h
      · exact h
  · exact (.of_journal rfl : Unpersisting w w)

/-! ### The narrative -/

section

variable (hp : plan.files.Separate) (hlink : link.Sparing plan.files view cuts rough)

/-- The files of an attempt, with what its journal shows if the backup fails. -/
def backoutsOutline (w₀ : World σ) (raw rendered : Bytes) :
    Outline link plan view cuts raw rendered where
  holds j w := Safe plan.files w₀ raw rendered j w ∧ Harmless w₀ w j
  stable j w w' hkept h := ⟨stable_safe plan.files view w₀ raw rendered j w w' hkept h.1,
    h.2.later h.1.chronicle.grown (.of_kept hkept)⟩
  backup := (safekeepingOutline hp hlink w₀ raw rendered).backup.and fun _ _ hsafe hw =>
    ends_backup_harmless plan.files (Safe.chronicle hsafe).grown hw
  persist := (safekeepingOutline hp hlink w₀ raw rendered).persist.and fun _ _ _ _ =>
    ends_harmless_of_apart (fun _ => .of_apart (by simp)) fun _ => .of_apart (by simp)
  drain := (safekeepingOutline hp hlink w₀ raw rendered).drain.and fun _ _ _ _ =>
    ends_harmless_of_apart (fun _ => .of_apart (by simp)) fun _ => .of_apart (by simp)
  load := (safekeepingOutline hp hlink w₀ raw rendered).load.and fun _ _ _ _ =>
    ends_harmless_of_apart (fun _ => .of_apart (by simp)) fun _ => .of_apart (by simp)
  start := (safekeepingOutline hp hlink w₀ raw rendered).start.and fun _ _ _ _ =>
    ends_harmless_of_apart (fun _ => .of_apart (by simp)) fun _ => .of_apart (by simp)
  revert failed := ((safekeepingOutline hp hlink w₀ raw rendered).revert failed).and
    fun _ _ hsafe hw => ends_revertFiles_harmless hp hlink.manners.steady hsafe hw
  reload failed htouches :=
    ((safekeepingOutline hp hlink w₀ raw rendered).reload failed htouches).and fun _ _ _ _ => by
      -- a failed backup has not touched the flow
      have hfailed : failed ≠ .backingUp := by
        rintro rfl
        cases htouches
      exact ends_harmless_of_apart (fun _ => .of_apart (by simp [hfailed]))
        fun _ => .of_apart (by simp [hfailed])

/-- The same, from its beginning to its end. -/
def backouts (w₀ : World σ) (raw : Bytes) : Narrative link plan view cuts raw where
  begun w := Unopened plan.files w₀ w ∧ Entry.began .persist ∉ w₀.since w
  outline rendered := backoutsOutline hp hlink w₀ raw rendered
  stable_begun _ _ hkept h := ⟨h.1.kept hkept,
    (Unpersisting.trans ⟨h.1.chronicle.grown, h.2⟩ (.of_kept hkept)).2⟩
  enrich := by
    have hquiet : ∀ w : World σ, w.IsIn .enriching → Unopened plan.files w₀ w →
        Entry.began .persist ∉ w₀.since w → (Attempt.enrich link plan raw).Ends w
          (fun _ w' => Entry.began .persist ∉ w₀.since w') fun e w' =>
            if e.interrupts then Entry.began .persist ∉ w₀.since w'
            else Entry.began .persist ∉ w₀.since w' := by
      intro w hin hw hnot
      refine (hlink.ends_enrich_unpersisting raw hin.1).mono ?_ ?_
      · exact fun _ _ h => (Unpersisting.trans ⟨hw.chronicle.grown, hnot⟩ h).2
      · intro e w' h
        rw [ite_self]
        exact (Unpersisting.trans ⟨hw.chronicle.grown, hnot⟩ h).2
    refine fun w hin hw => ((turn_enrich hlink).and hquiet w hin hw).mono ?_ fun _ _ h => h
    rintro (_ | rendered) w' ⟨hin', h, hnot⟩
    · exact ⟨hin', h, hnot⟩
    · exact ⟨hin', h, fun _ => hnot, by simp, by simp⟩

end

/-! ### Attempts -/

/-- How an attempt ends whose backup has failed. -/
structure FilePaths.BackedOut (p : FilePaths) (report : UpdateReport) (w w' : World σ) : Prop where
  unpersisted : Entry.began .persist ∉ w.since w'
  unchanged : Unchanged (p.contents w.disk) (p.contents w'.disk)
  uncalled : callsOf (w.since w') = []
  state : report.state = .reverted ∨ report.state = .degradedNoReload ∧
    report.failureKind = some .fileOperation ∧ RevertRefused (w.untilCleanup w')

/-- A phase fails with a failure of its own kind. -/
theorem Passes.kind_of_failed {phases : List Phase} {passages : List Passage}
    {failed : Option PhaseFailure} (h : Passes phases passages failed) {f : PhaseFailure}
    (hf : failed = some f) : f.phase.failureKind? = some f.failure.kind := by
  induction h with
  | nil => cases hf
  | fails phases hkind =>
    obtain rfl := Option.some.inj hf
    exact hkind
  | next _ ih => exact ih hf

/-- The failure of a sound journey is that of one of its phases, and so not an unexpected
one. -/
theorem Journey.Sound.failureKind_ne_unexpected {j : Journey} (hsound : j.Sound) :
    j.outcome.failureKind ≠ some .unexpected := by
  have hown : ∀ {phases passages failed}, Passes phases passages failed → ∀ f : PhaseFailure,
      failed = some f → f.failure.kind ≠ .unexpected := fun h f hf hkind =>
    f.phase.failureKind?_ne_unexpected (by rw [h.kind_of_failed hf, hkind])
  rw [j.failureKind_outcome]
  cases hback : j.rollbackFailed with
  | some g => simpa using hown hsound.back g hback
  | none =>
    cases hfailed : j.failed with
    | some f => simpa using hown hsound.there f hfailed
    | none => simp

/-- Where the backup has failed and nothing unexpected has happened, what is told is what
the journal shows. -/
theorem backedOut_of_told {hp : plan.files.Separate}
    {hlink : link.Sparing plan.files view cuts rough} {report : UpdateReport}
    (h : (backouts hp hlink w raw).Told report.state report.failureKind report.failedPhase w')
    (hfailed : report.failedPhase = some .backingUp) (hcalls : callsOf (w.since w') = []) :
    plan.files.BackedOut report w w' := by
  rw [hfailed] at h
  rcases h with ⟨-, -, hphase, -⟩ | ⟨rendered, j, ⟨w₁, ⟨hsafe, hharmless⟩, hafter⟩, hj⟩
  · cases hphase
  · have hgrown := hsafe.chronicle.grown
    have hof : j ∈ [Juncture.rendered, .broken .backingUp, .restored .backingUp,
        .unrestored .backingUp] → Entry.began .persist ∉ w.since w' ∧
          Unchanged (plan.files.contents w.disk) (plan.files.contents w'.disk) := fun hmem => by
      have hbegan := hharmless.unpersisted hmem
      exact ⟨fun hpersist => hbegan ((hafter.began_iff hgrown (by simp)).mp hpersist),
        fun f => (hafter.contents f).trans (hsafe.untouched hbegan f)⟩
    cases j with
    | restored phase =>
      obtain ⟨hstate, -, -, hphase, -⟩ := hj
      obtain rfl : Phase.backingUp = phase := Option.some.inj hphase
      obtain ⟨hpersist, hunchanged⟩ := hof (by simp)
      exact ⟨hpersist, hunchanged, hcalls, .inl hstate⟩
    | unrestored phase =>
      obtain ⟨hstate, hkind, hphase⟩ := hj
      obtain rfl : Phase.backingUp = phase := Option.some.inj hphase
      obtain ⟨hpersist, hunchanged⟩ := hof (by simp)
      refine ⟨hpersist, hunchanged, hcalls, .inr ⟨hstate, hkind, ?_⟩⟩
      rw [hsafe.untilCleanup_eq hafter]
      exact hharmless.refused rfl
    | reloaded phase =>
      obtain rfl : Phase.backingUp = phase := Option.some.inj hj.2.2.2
      exact absurd (by simp) hharmless.unreached
    | unreloaded phase =>
      obtain rfl : Phase.backingUp = phase := Option.some.inj hj.2.2
      exact absurd (by simp) hharmless.unreached
    | running => cases hj.2.2
    | _ => exact hj.elim

namespace Updater

variable {h : Host σ} {file directory : Path} {backupSuffix rawExtension : String}

/-- An attempt whose backup has failed persists nothing, calls nothing, and leaves both
current files as they were.  It has been reverted, unless an access has failed in the
revert as well.  Nothing interrupts, and no request about a span fails. -/
theorem ends_apply_backedOut
    (hderive : FilePaths.derive file directory backupSuffix rawExtension = .ok plan.files)
    (hdistinct : plan.files.all.Nodup) (hspares : h.Spares plan.files)
    (hraises : h.Raises fun r e => e.interrupts = false ∧ r.isSpan = false)
    (henriches : plan.enriches = true) (depth : Nat) (raw : Bytes) (w : World σ) :
    (apply (h.link (console plan) depth) plan raw).Ends w
      (fun report w' => report.failedPhase = some .backingUp → plan.files.BackedOut report w w')
      fun _ _ => False := by
  have hp := FilePaths.separate_of_derive hderive hdistinct
  have hhears := (hraises.abides (· = true)).hears_console (fun _ _ hb => hb)
    (fun _ => Entry.isTraced_of_murmur) plan depth
  have hlink : (h.link (console plan) depth).Sparing plan.files (fun _ => ()) False False :=
    hspares.sparing_link hraises plan depth
      ⟨fun _ _ he => Fault.ordinary he.1, fun _ _ he => by simp [Request.isSpan] at he,
        fun _ _ _ he => by simp [Request.isSpan] at he, id⟩
  generalize h.link (console plan) depth = link at hhears hlink
  cases hdesk : w.desk.engaged with
  | false =>
    have hobserved := Attempt.observed_orderly (a := newAttempt link raw w) hhears
      (fun r e he => (he e rfl).1) (fun r hr e he => by simp [(he e rfl).2] at hr) henriches
    refine ((ends_apply_travelled hdesk hobserved rfl).and
      ((backouts hp hlink w raw).ends_apply hp hlink.manners hdesk
        ⟨.start plan.files w, by simp [World.since_self]⟩)).mono ?_ fun _ _ he => he.1
    rintro report w' ⟨⟨j, legs, drained, completedAt, hsound, hlegs, horderly, rfl, -, hes⟩,
      hends⟩ hfailed
    -- a journey that ends with the backup makes no calls
    have hcalls : callsOf (w.since w') = [] := by
      obtain ⟨f, hf, hphase⟩ := Option.map_eq_some_iff.mp
        (show j.failed.map (·.phase) = some .backingUp from hfailed)
      have hseries := hsound.series hlegs horderly
      rw [hf] at hseries
      rw [UpdatePlan.conclusion_filter, List.append_nil] at hes
      rw [← callsOf_filter, hes, callsOf_append, callsOf_legs _ horderly,
        hseries.eq_nil (by rw [hphase]; rfl)]
      rfl
    rcases hends with htold | ⟨-, hkind, -⟩
    · exact backedOut_of_told htold hfailed hcalls
    · exact absurd hkind hsound.failureKind_ne_unexpected
  | true =>
    rw [ends_apply_of_engaged hdesk, ends_bind, Attempt.say, Act.say, ends_record]
    refine ((hhears.finish_yields (fun r _ e he => (he e rfl).1) ((watches_isTraced "").told)
      (newAttempt link raw w) refused none).ends _).mono ?_ fun _ _ he => he
    rintro report w' ⟨l, ⟨completedAt, rfl, rfl⟩, -⟩ hfailed
    -- a refused attempt has failed before its phases
    cases hfailed

end Updater

/-! ### A revert that is refused -/

namespace Sample

/-- A host under which neither the backup of the raw file nor the active file can be
replaced. -/
def uncopying : Host Nat :=
  Host.plain (fun _ => none) fun a _ =>
    match a with
    | .replace _ target => if target = files.backupRaw ∨ target = files.active then some 28 else none
    | _ => none

/-- A world with a raw configuration as well. -/
def rawWorld : World Nat where
  disk := { entries := world.disk.entries ++ [(["conf", "flow.raw"], .file [3])] }
  host := 0

/-- The end of an attempt in it, under this host. -/
def uncopied : Except Fault UpdateReport × World Nat :=
  (Updater.apply (uncopying.link (Updater.console Sample.plan) 0) Sample.plan [2]).run rawWorld

theorem uncopied_eq :
    (Updater.apply (uncopying.link (Updater.console Sample.plan) 0) Sample.plan [2]).run rawWorld =
      uncopied :=
  rfl

end Sample

namespace Updater

attribute [local irreducible] Act.Ends Sample.uncopied in
/-- The raw file cannot be backed up, and the active one not put back. -/
theorem ends_apply_backedOut_uncopying :
    ∃ report, Sample.uncopied.1 = .ok report ∧ report.failedPhase = some .backingUp ∧
      Sample.plan.files.BackedOut report Sample.rawWorld Sample.uncopied.2 := by
  have hfailed : Sample.uncopied.1.toOption.map (fun report => report.failedPhase) =
      some (some .backingUp) := by
    decide +kernel
  cases hreport : Sample.uncopied.1 with
  | error e =>
    rw [hreport] at hfailed
    cases hfailed
  | ok report =>
    have hphase : report.failedPhase = some .backingUp := by
      simpa [hreport, Except.toOption] using hfailed
    exact ⟨report, rfl, hphase, (ends_apply_backedOut Sample.derive_eq Sample.nodup_files
      (Host.plain_spares _) (Host.plain_raises fun _ _ he => by cases he) rfl 0 [2]
      Sample.rawWorld).ok (Sample.uncopied_eq.trans (Prod.ext hreport rfl)) hphase⟩

/-- An attempt whose backup has failed has not always been reverted, although no span was
opened and nothing was raised. -/
theorem not_reverted_uncopying : ∃ report, Sample.uncopied.1 = .ok report ∧
    report.failedPhase = some .backingUp ∧ report.state = .degradedNoReload := by
  have h : Sample.uncopied.1.toOption.map (fun report => (report.failedPhase, report.state)) =
      some (some .backingUp, .degradedNoReload) := by
    decide +kernel
  cases hreport : Sample.uncopied.1 with
  | error e =>
    rw [hreport] at h
    cases h
  | ok report =>
    rw [hreport] at h
    obtain ⟨hfailed, hstate⟩ := Prod.mk.inj (Option.some.inj h)
    exact ⟨report, rfl, hfailed, hstate⟩

end Updater
end HotSwap
