/-
The active file and the running flow agree.

Attempts on a free desk, one after the other, keep the configuration that the flow
has loaded equal to the one in the active file, and the flow processing, as long as
none of them ends degraded; and an attempt whose candidate runs makes it so again,
whatever was before.

* `Juncture.Stands` — how the flow stands at a juncture;
* `agreement` — the narrative of the files and the flow together;
* `Updater.Attempts` — attempts one after the other, with whatever the others do in
  between;
* `Updater.agrees_of_attempts` — the result.

Design notes: the way back reloads the flow only if a phase has failed that may have
touched it; before that the flow stands as it did, and the outline carries this from
juncture to juncture.
-/
import HotSwap.Proofs.Endings
import HotSwap.Proofs.SimulatedHosts

namespace HotSwap

open Act

variable {σ : Type} {link : Link σ} {flow : σ → SimulatedFlow} {w₀ w₁ w w' : World σ}
  {plan : UpdatePlan} {raw rendered : Bytes} {p : FilePaths} {c : Bytes}

/-! ### Bringing a configuration to run -/

namespace Link.Simulates

variable (hlink : link.Simulates p flow)

include hlink

/-- An enrichment leaves the flow alone. -/
theorem ends_enrich (plan : UpdatePlan) (raw : Bytes) (hengaged : w.desk.engaged = true) :
    (Attempt.enrich link plan raw).Ends w
      (fun _ w' => (flow w'.host).standing = (flow w.host).standing)
      (fun _ w' => (flow w'.host).standing = (flow w.host).standing) := by
  rw [Attempt.enrich]
  split
  · rw [ends_bind, ends_guarded]
    refine (hlink.enrich raw w).mono ?_ ?_
    · rintro (rendered | typeName) w' h
      · exact h hengaged
      · exact h hengaged
    · intro e w' h
      split
      · exact h hengaged
      · exact h hengaged
  · exact rfl

/-- A load that succeeds leaves the flow with what the active file holds. -/
theorem ends_loadFlow (hengaged : w.desk.engaged = true) :
    (loadFlow link).Ends w (fun _ w' => w'.desk.engaged = true ∧ ∃ c, p.Loaded flow c w')
      fun _ _ => True := by
  refine (HotSwap.ends_loadFlow (fun _ => Fault.ordinary) (hlink.manners.keeps.ask .rebuild rfl)
    hlink.load w).mono ?_ fun _ _ _ => trivial
  rintro - w' ⟨w₁, w₂, h₁, h₂, h₃⟩
  obtain ⟨hengaged₂, c, hloaded⟩ := h₂ (h₁ hengaged).1
  obtain ⟨hengaged', -, hkept⟩ := h₃ hengaged₂
  exact ⟨hengaged', c, hloaded.congr (congrFun hkept.contents _) (Prod.mk.inj hkept.host).1⟩

/-- A start that succeeds leaves a loaded flow processing. -/
theorem ends_validateAndStart (budget : Budget) (listens : Bool)
    (hengaged : w.desk.engaged = true) (hloaded : p.Loaded flow c w) :
    (validateAndStart link budget listens).Ends w (fun _ w' => p.Agrees flow c w')
      fun _ _ => True := by
  refine (HotSwap.ends_validateAndStart (fun _ => Fault.ordinary)
    (hlink.manners.keeps.mono fun _ => Request.isQuiet_of_isValidation) budget listens
    hlink.start w).mono ?_ fun _ _ _ => trivial
  rintro - w' ⟨w₁, w₂, h₁, h₂, h₃⟩
  obtain ⟨hengaged₁, -, hkept₁⟩ := h₁ hengaged
  obtain ⟨hengaged₂, hcontents₂, hstanding₂⟩ := h₂ hengaged₁
  obtain ⟨-, -, hkept₃⟩ := h₃ hengaged₂
  obtain ⟨hloaded₂, hprocessing₂⟩ := Prod.mk.inj hstanding₂
  have hloaded₁ := hloaded.congr (congrFun hkept₁.contents _) (Prod.mk.inj hkept₁.host).1
  have hagrees₂ : p.Agrees flow c w₂ :=
    ⟨hloaded₁.congr (congrFun hcontents₂ _) hloaded₂, hprocessing₂⟩
  exact hagrees₂.congr (congrFun hkept₃.contents _) hkept₃.host

omit hlink in
/-- Where it does not matter how a reload of the restored files fails. -/
theorem ends_reloadReverted_of {Q : World σ → Prop} (budget : Budget)
    (hreload : (reloadFlow link budget false).Ends w (fun _ => Q) fun _ _ => True) :
    (Attempt.reloadReverted link budget).Ends w (fun _ => Q) fun _ _ => True := by
  rw [Attempt.reloadReverted, ends_bind, ends_guarded]
  refine hreload.mono (fun _ _ h => h) fun e w' _ => ?_
  split
  · trivial
  · dsimp only
    split
    · exact trivial
    · exact trivial

/-- A reload of the restored files that succeeds leaves the flow in agreement. -/
theorem ends_reloadReverted (budget : Budget) (hengaged : w.desk.engaged = true) :
    (Attempt.reloadReverted link budget).Ends w (fun _ w' => ∃ c, p.Agrees flow c w')
      fun _ _ => True := by
  refine ends_reloadReverted_of budget ((hlink.ends_loadFlow hengaged).bind ?_ fun _ _ _ => trivial)
  rintro - w₁ ⟨hengaged₁, c, hloaded⟩
  exact (hlink.ends_validateAndStart budget false hengaged₁ hloaded).mono (fun _ _ h => ⟨c, h⟩)
    fun _ _ _ => trivial

end Link.Simulates

/-! ### From juncture to juncture -/

/-- How the flow stands at a juncture of an attempt that began in `w₀`. -/
def Juncture.Stands (p : FilePaths) (flow : σ → SimulatedFlow) (w₀ w : World σ) : Juncture → Prop
  | .rendered | .backedUp => (flow w.host).standing = (flow w₀.host).standing
  | .broken failed | .restored failed =>
    failed.touchesRuntime = false → (flow w.host).standing = (flow w₀.host).standing
  | .loaded => ∃ c, p.Loaded flow c w
  | .running | .reloaded _ => ∃ c, p.Agrees flow c w
  | _ => True

theorem stable_stands (p : FilePaths) (flow : σ → SimulatedFlow) (w₀ : World σ) (j : Juncture) :
    p.Stable (fun s => (flow s).standing) fun w => j.Stands p flow w₀ w := by
  intro w w' hkept h
  have hcontents := congrFun hkept.contents (.current .rendered)
  cases j with
  | rendered | backedUp => exact Eq.trans hkept.host h
  | broken failed | restored failed => exact fun htouches => Eq.trans hkept.host (h htouches)
  | loaded =>
    obtain ⟨c, hc⟩ := h
    exact ⟨c, hc.congr hcontents (Prod.mk.inj hkept.host).1⟩
  | running | reloaded failed =>
    obtain ⟨c, hc⟩ := h
    exact ⟨c, hc.congr hcontents hkept.host⟩
  | _ => trivial

/-- Nothing is said of the flow where a phase that touches it has failed. -/
theorem stands_broken {failed : Phase} (htouches : failed.touchesRuntime = true) :
    (Juncture.broken failed).Stands p flow w₀ w := fun h => by
  rw [htouches] at h
  cases h

/-- Where it does not matter for the flow how an action ends. -/
private theorem ends_failing {α : Type} {a : Act σ α} {Q : α → World σ → Prop} {failed : Phase}
    (htouches : failed.touchesRuntime = true) (h : a.Ends w Q fun _ _ => True) :
    a.Ends w Q fun e w' =>
      if e.interrupts then Juncture.cut.Stands p flow w₀ w'
      else (Juncture.broken failed).Stands p flow w₀ w' := by
  refine h.mono (fun _ _ h => h) fun e w' _ => ?_
  split
  · trivial
  · exact stands_broken htouches

/-- An enrichment leaves the files unopened or brings a candidate, and leaves the flow
as it stood. -/
theorem turn_enrich_standing (hlink : link.Simulates plan.files flow) :
    Turn (Attempt.enrich link plan raw) .enriching False
    (fun w => Unopened plan.files w₀ w ∧ (flow w.host).standing = (flow w₀.host).standing)
    (fun v w => (match v with
      | none => Unopened plan.files w₀ w
      | some rendered => Safe plan.files w₀ raw rendered .rendered w) ∧
      (flow w.host).standing = (flow w₀.host).standing)
    (fun w => Unopened plan.files w₀ w ∧ (flow w.host).standing = (flow w₀.host).standing)
    (fun w => Unopened plan.files w₀ w ∧ (flow w.host).standing = (flow w₀.host).standing) := by
  refine (turn_enrich hlink.sparing).and fun w hin _ hstanding => ?_
  refine (hlink.ends_enrich plan raw hin.1).mono (fun _ _ h => h.trans hstanding) fun _ _ h => ?_
  rw [ite_self]
  exact h.trans hstanding

section

variable (hp : plan.files.Separate) (hlink : link.Simulates plan.files flow)

/-- What holds of the files and the flow at a juncture. -/
def Stance (p : FilePaths) (flow : σ → SimulatedFlow) (w₀ : World σ) (raw rendered : Bytes)
    (j : Juncture) (w : World σ) : Prop :=
  Safe p w₀ raw rendered j w ∧ j.Stands p flow w₀ w

/-- The files and the flow of an attempt, from juncture to juncture. -/
def agreementOutline (w₀ : World σ) (raw rendered : Bytes) :
    Outline link plan (fun s => (flow s).standing) False raw rendered where
  holds := Stance plan.files flow w₀ raw rendered
  stable j := (stable_safe plan.files _ w₀ raw rendered j).and (stable_stands plan.files flow w₀ j)
  backup := by
    refine (safekeepingOutline hp hlink.sparing w₀ raw rendered).backup.and
      fun w _ (hw : Safe _ _ _ _ _ w) (hstands : _ = _) => ?_
    refine (FileSet.ends_backup hp hlink.manners.steady (plan.files.wanted rendered raw)
      hw.shows).mono ?_ ?_
    · exact fun _ w' h => Eq.trans h.1.host hstands
    · rintro e w' ⟨he, hguarded, -⟩
      rw [he]
      exact fun _ => Eq.trans hguarded.host hstands
  persist := by
    -- from here on the flow may differ from the files, until the candidate is loaded
    refine (safekeepingOutline hp hlink.sparing w₀ raw rendered).persist.and
      fun w _ (hw : Safe _ _ _ _ _ w) (hstands : _ = _) => ?_
    refine (FileSet.ends_persist hp hlink.manners.steady (hw.custody rfl)
      (hw.covers rfl)).mono ?_ ?_
    · exact fun _ _ _ => trivial
    · rintro e w' ⟨he, hguarded, -⟩
      rw [he]
      exact fun _ => Eq.trans hguarded.host hstands
  drain := (safekeepingOutline hp hlink.sparing w₀ raw rendered).drain.and fun _ _ _ _ =>
    ends_failing rfl (.of_forall (fun _ _ => trivial) fun _ _ => trivial)
  load := (safekeepingOutline hp hlink.sparing w₀ raw rendered).load.and fun _ hin _ _ =>
    ends_failing rfl ((hlink.ends_loadFlow hin.1).mono (fun _ _ h => h.2) fun _ _ h => h)
  start := (safekeepingOutline hp hlink.sparing w₀ raw rendered).start.and
    fun _ hin _ ⟨c, hloaded⟩ => ends_failing rfl
      ((hlink.ends_validateAndStart _ _ hin.1 hloaded).mono (fun _ _ h => ⟨c, h⟩) fun _ _ h => h)
  revert failed := by
    refine ((safekeepingOutline hp hlink.sparing w₀ raw rendered).revert failed).and
      fun w _ (hw : Safe _ _ _ _ _ w) hstands => ?_
    rw [Attempt.revertFiles]
    refine (FileSet.ends_revert hp hlink.manners.steady (hw.custody rfl)).bind ?_
      fun _ _ he => he.elim
    rintro (_ | _) w' ⟨hguarded, -⟩
    · trivial
    · exact fun htouches => Eq.trans hguarded.host (hstands htouches)
  reload failed htouches := by
    refine ((safekeepingOutline hp hlink.sparing w₀ raw rendered).reload failed htouches).and
      fun w hin _ _ => ?_
    refine (hlink.ends_reloadReverted _ hin.1).mono (fun _ _ h => h) fun e w' _ => ?_
    split
    · trivial
    · trivial

/-- The files and the flow of an attempt, from its beginning to its end. -/
def agreement (w₀ : World σ) (raw : Bytes) :
    Narrative link plan (fun s => (flow s).standing) False raw where
  begun w := Unopened plan.files w₀ w ∧ (flow w.host).standing = (flow w₀.host).standing
  outline rendered := agreementOutline hp hlink w₀ raw rendered
  stable_begun _ _ hkept h := ⟨h.1.kept hkept, Eq.trans hkept.host h.2⟩
  enrich := by
    refine fun w hin hw => (turn_enrich_standing hlink w hin hw).mono ?_ fun _ _ h => h
    rintro (_ | rendered) w' h
    · exact h
    · exact h

end

/-! ### Reports -/

section

variable {hp : plan.files.Separate} {hlink : link.Simulates plan.files flow}
  {kind : Option FailureKind} {failed : Option Phase} {state : Phase}

/-- Where the candidate runs, the flow agrees with it. -/
theorem agrees_of_running (h : (agreement hp hlink w raw).Told .running kind failed w') :
    ∃ rendered, renderings (w.since w') = [rendered] ∧ plan.files.Agrees flow rendered w' := by
  rcases h with ⟨hstate, -⟩ | ⟨rendered, j, ⟨w₁, ⟨hsafe, hstands⟩, hafter⟩, hj⟩
  · cases hstate
  · obtain rfl := hj.eq_running
    obtain ⟨c, hagrees⟩ := hstands
    have hholds : plan.files.Holds w₁.disk rendered :=
      ⟨plan.files.encode rendered, hsafe.shows .rendered, FilePaths.decodeAt_encode rendered⟩
    -- the candidate is the only configuration that the active file holds
    obtain rfl := hagrees.1.1.unique hholds
    exact ⟨c, hsafe.renderings_eq hafter, hagrees.congr (hafter.contents .rendered) hafter.host⟩

/-- Where an attempt has ended otherwise, but not degraded, the flow agrees with the
configuration from before. -/
theorem agrees_of_kept (h : (agreement hp hlink w raw).Told state kind failed w')
    (hrunning : state ≠ .running) (hdegraded : state ≠ .degradedNoReload)
    (hagrees : plan.files.Agrees flow c w) : plan.files.Agrees flow c w' := by
  rcases h with ⟨-, -, -, hopen, hstanding⟩ | ⟨rendered, j, ⟨w₁, ⟨hsafe, hstands⟩, hafter⟩, hj⟩
  · exact hagrees.congr (hopen.shows .rendered) hstanding
  · suffices plan.files.Agrees flow c w₁ from this.congr (hafter.contents .rendered) hafter.host
    cases j with
    | running => exact absurd hj.1 hrunning
    | unrestored phase => exact absurd hj.1 hdegraded
    | unreloaded phase => exact absurd hj.1 hdegraded
    | restored phase => exact hagrees.congr (hsafe.shows .rendered) (hstands hj.2.2.2.2)
    | reloaded phase =>
      -- the reload has loaded what the file holds, and that is what it held before
      obtain ⟨c', hagrees'⟩ := hstands
      obtain rfl := hagrees'.1.1.unique (hagrees.1.1.congr (hsafe.shows .rendered))
      exact hagrees'
    | _ => exact hj.elim

end

/-! ### One attempt after the other -/

/-- An attempt that has ended: its report, and the candidate that was enriched for
it. -/
structure Attempted where
  report : UpdateReport
  enriched : Option Bytes

/-- The configuration of the last attempt whose candidate runs, or the one from
before them all. -/
def lastRunning (c : Bytes) (attempts : List Attempted) : Bytes :=
  attempts.foldl
    (fun c a => if a.report.state = .running then a.enriched.getD c else c) c

namespace Updater

/-- Attempts on a free desk, one after the other.  In between the four files and the
flow stay as they are, whatever else happens. -/
inductive Attempts (link : Link σ) (plan : UpdatePlan) (flow : σ → SimulatedFlow) :
    World σ → List Attempted → World σ → Prop
  | start (w : World σ) : Attempts link plan flow w [] w
  | meanwhile {w w₁ w₂ : World σ} {attempts : List Attempted}
      (before : Attempts link plan flow w attempts w₁)
      (hdisk : plan.files.contents w₂.disk = plan.files.contents w₁.disk)
      (hhost : (flow w₂.host).standing = (flow w₁.host).standing) :
      Attempts link plan flow w attempts w₂
  | attempt {w w₁ w₂ : World σ} {attempts : List Attempted} {raw : Bytes} {report : UpdateReport}
      (before : Attempts link plan flow w attempts w₁) (hfree : w₁.desk.engaged = false)
      (hrun : (apply link plan raw).run w₁ = (.ok report, w₂)) :
      Attempts link plan flow w
        (attempts ++ [{ report, enriched := (renderings (w₁.since w₂)).head? }]) w₂

variable {h : Host σ} {file directory : Path} {backupSuffix rawExtension : String}

/-- One attempt inside a host with a simulated flow: it ends with a report; if its
candidate runs, the flow agrees with it, whatever was before, and if it ends neither
running nor degraded, the flow agrees with the configuration from before, if it did. -/
theorem ends_agrees (hp : plan.files.Separate)
    (hlink : link.Simulates plan.files flow) (hfree : w.desk.engaged = false) (raw : Bytes) :
    (apply link plan raw).Ends w
      (fun report w' =>
        (report.state = .running → ∃ rendered, renderings (w.since w') = [rendered] ∧
          plan.files.Agrees flow rendered w') ∧
        (report.state ≠ .running → report.state ≠ .degradedNoReload →
          ∀ c, plan.files.Agrees flow c w → plan.files.Agrees flow c w'))
      (fun _ _ => False) := by
  refine ((agreement hp hlink w raw).ends_apply hp hlink.manners hfree
    ⟨.start plan.files w, rfl⟩).mono ?_ fun _ _ he => he.1.2
  rintro report w' (htold | ⟨hstate, -⟩)
  · refine ⟨fun hrunning => ?_, fun hrunning hdegraded c hagrees => ?_⟩
    · rw [hrunning] at htold
      exact agrees_of_running htold
    · exact agrees_of_kept htold hrunning hdegraded hagrees
  · rw [hstate]
    exact ⟨(fun h => by cases h), fun _ h => absurd rfl h⟩

/-- Inside a host with a simulated flow, attempts of which none ends degraded keep
the flow in agreement with the active file, on the configuration of the last one
whose candidate runs.  Each attempt ends with a report, and one whose candidate runs
makes the flow agree with it, whatever was before. -/
theorem agrees_of_attempts (hderive : FilePaths.derive file directory backupSuffix rawExtension =
      .ok plan.files) (hdistinct : plan.files.all.Nodup)
    (hsimulates : h.Simulates plan.files flow) (depth : Nat) :
    (∀ w attempts w' c, Attempts (h.link (console plan) depth) plan flow w attempts w' →
      plan.files.Agrees flow c w → (∀ a ∈ attempts, a.report.state ≠ .degradedNoReload) →
      plan.files.Agrees flow (lastRunning c attempts) w') ∧
    (∀ w raw, w.desk.engaged = false → (apply (h.link (console plan) depth) plan raw).Ends w
      (fun report w' => report.state = .running → ∃ rendered,
        renderings (w.since w') = [rendered] ∧ plan.files.Agrees flow rendered w')
      (fun _ _ => False)) := by
  have hp := FilePaths.separate_of_derive hderive hdistinct
  have hends := fun w (hfree : w.desk.engaged = false) raw =>
    ends_agrees (w := w) hp (hsimulates.link plan depth) hfree raw
  refine ⟨fun w attempts w' c hattempts hagrees => ?_, fun w raw hfree =>
    (hends w hfree raw).mono (fun _ _ h => h.1) fun _ _ he => he⟩
  -- the induction is on the attempts, the last one first
  induction hattempts with
  | start => exact fun _ => hagrees
  | meanwhile before hdisk hhost ih =>
    exact fun hdegraded => (ih hdegraded).congr (congrFun hdisk _) hhost
  | attempt before hfree hrun ih =>
    intro hdegraded
    have hbefore := ih fun a ha => hdegraded a (List.mem_append_left _ ha)
    have hdegraded' := hdegraded _ (List.mem_append_right _ (List.mem_singleton_self _))
    obtain ⟨hrunning, hkept⟩ := (hends _ hfree _).ok hrun
    rw [lastRunning, List.foldl_append, List.foldl_cons, List.foldl_nil]
    split
    · next hstate =>
      obtain ⟨rendered, hrendered, hagrees'⟩ := hrunning hstate
      rw [hrendered]
      exact hagrees'
    · next hstate => exact hkept hstate hdegraded' _ hbefore

attribute [local irreducible] Act.Ends Sample.replaced in
/-- A running configuration of one byte is replaced by another one. -/
theorem agrees_of_attempts_sample :
    ∃ report, Sample.replaced.1 = .ok report ∧ report.state = .running ∧
      Sample.plan.files.Agrees id [2] Sample.replaced.2 := by
  have hstate : Sample.replaced.1.toOption.map (fun report => report.state) = some .running := by
    decide +kernel
  have hcandidate : (renderings (Sample.running.since Sample.replaced.2)).head? = some [2] := by
    decide +kernel
  cases hreport : Sample.replaced.1 with
  | error e =>
    rw [hreport] at hstate
    cases hstate
  | ok report =>
    have hrunning : report.state = .running := by simpa [hreport, Except.toOption] using hstate
    have hattempts : Attempts ((Host.simulated Sample.plan.files.active).link (console Sample.plan)
        0) Sample.plan id Sample.running [{ report, enriched := some [2] }] Sample.replaced.2 := by
      have hend : Sample.replaced = (.ok report, Sample.replaced.2) := Prod.ext hreport rfl
      rw [← hcandidate]
      exact .attempt (.start _) rfl (Sample.replaced_eq.trans hend)
    have hagrees : Sample.plan.files.Agrees id [1] Sample.running :=
      ⟨⟨⟨[1], by decide +kernel, if_neg (by decide +kernel)⟩, rfl⟩, rfl⟩
    have hend := (agrees_of_attempts Sample.derive_eq Sample.nodup_files
      (Host.simulated_simulates Sample.plan.files) 0).1
      _ _ _ _ hattempts hagrees (by simp [hrunning])
    exact ⟨report, rfl, hrunning, by simpa [lastRunning, hrunning] using hend⟩

end Updater
end HotSwap
