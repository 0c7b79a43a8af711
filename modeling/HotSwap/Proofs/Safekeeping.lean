/-
The files of an attempt, from juncture to juncture.

* `FilePaths.Chronicle` — what the journal shows of an attempt before its closing
  cleanup: every disk is intact, and the host has enriched so many candidates;
* `Juncture.Shows` — what the current files hold at a juncture;
* `Safe` — both, with the custody of the files, for each juncture;
* `Link.Sparing` — a link behind which nobody writes to the four files;
* `safekeeping` — the narrative of the files.
-/
import HotSwap.Proofs.Attempts

namespace HotSwap

open Act

variable {σ β : Type} {view : σ → β} {link : Link σ} {w₀ w w' : World σ} {cuts rough : Prop}
  {plan : UpdatePlan} {raw rendered : Bytes} {p : FilePaths} {prior c : Contents}
  {rs : List Bytes} {j j' : Juncture}

/-! ### What the journal shows -/

/-- What the journal shows of an attempt that began in `w₀`: every disk has been
intact, no cleanup has begun, and `rs` are the enriched candidates. -/
structure FilePaths.Chronicle (p : FilePaths) (prior : Contents) (w₀ : World σ) (rs : List Bytes)
    (w : World σ) : Prop where
  grown : w₀.Grown w
  rendered : renderings (w₀.since w) = rs
  intact : ∀ e ∈ w₀.since w, ∀ disk, e.disk? = some disk → Intact prior (p.contents disk)
  opened : Entry.began .cleanup ∉ w₀.since w

namespace FilePaths.Chronicle

theorem start (p : FilePaths) (prior : Contents) (w : World σ) : p.Chronicle prior w [] w where
  grown := .refl w
  rendered := by rw [World.since_self]; rfl
  intact := by simp [World.since_self]
  opened := by simp [World.since_self]

/-- What happens next, if each entry of it keeps to the chronicle. -/
theorem next (h : p.Chronicle prior w₀ rs w) (hgrown : w.Grown w') {rs' : List Bytes}
    (hrendered : renderings (w.since w') = rs')
    (hintact : ∀ e ∈ w.since w', ∀ disk, e.disk? = some disk → Intact prior (p.contents disk))
    (hopened : Entry.began .cleanup ∉ w.since w') : p.Chronicle prior w₀ (rs ++ rs') w' where
  grown := h.grown.trans hgrown
  rendered := by rw [h.grown.since_trans hgrown, renderings_append, h.rendered, hrendered]
  intact e he := by
    rw [h.grown.since_trans hgrown] at he
    exact (List.mem_append.mp he).elim (h.intact e) (hintact e)
  opened he := by
    rw [h.grown.since_trans hgrown] at he
    exact (List.mem_append.mp he).elim h.opened hopened

theorem kept (h : p.Chronicle prior w₀ rs w) (h' : p.Kept view w w') :
    p.Chronicle prior w₀ rs w' := by
  have hnone : renderings (w.since w') = [] :=
    renderings_eq_nil fun e he => (h'.talk e he).rendering?_eq
  have := h.next h'.grown hnone
    (fun e he disk hdisk => by rw [(h'.talk e he).disk?_eq] at hdisk; cases hdisk)
    fun he => (h'.talk _ he).ne_began _ rfl
  rwa [List.append_nil] at this

/-- One entry that shows no disk. -/
theorem enter (h : p.Chronicle prior w₀ rs w) {e : Entry} (hdisk : e.disk? = none)
    (hcleanup : e ≠ .began .cleanup) :
    p.Chronicle prior w₀ (rs ++ renderings [e]) (w.enter e) := by
  refine h.next (World.grown_enter w e) (by rw [World.since_enter]) ?_ ?_
  · intro e' he' disk hdisk'
    rw [World.since_enter, List.mem_singleton] at he'
    rw [he', hdisk] at hdisk'
    cases hdisk'
  · rw [World.since_enter, List.mem_singleton]
    exact hcleanup.symm

/-- An operation on the files, other than the cleanup. -/
theorem operation {o : FileOperation} (h : p.Chronicle prior w₀ rs w) (ho : o ≠ .cleanup)
    (h' : p.Trail view (Intact prior) (w.enter (.began o)) w') :
    p.Chronicle prior w₀ rs w' := by
  have hbegan := h.enter (e := .began o) rfl (by simpa using ho)
  have hquiet : renderings ((w.enter (.began o)).since w') = [] := renderings_eq_nil fun e he => by
    obtain ⟨disk, hdisk, -⟩ := h'.shows e he
    exact Entry.rendering?_of_disk? hdisk
  have := hbegan.next h'.grown hquiet
    (fun e he disk hdisk => by
      obtain ⟨disk', hdisk', hintact⟩ := h'.shows e he
      obtain rfl : disk = disk' := by simpa [hdisk] using hdisk'
      exact hintact)
    (fun he => by
      obtain ⟨disk, hdisk, -⟩ := h'.shows _ he
      exact Entry.ne_began_of_disk? hdisk _ rfl)
  have hnone : renderings [Entry.began o] = [] := rfl
  rwa [hnone, List.append_nil, List.append_nil] at this

end FilePaths.Chronicle

/-- A trail of accesses begins no operation. -/
theorem FilePaths.Trail.began_iff {φ : Contents → Prop} {o o' : FileOperation}
    (h : p.Trail view φ (w.enter (.began o)) w') (hgrown : w₀.Grown w) :
    Entry.began o' ∈ w₀.since w' ↔ Entry.began o' ∈ w₀.since w ∨ o' = o := by
  rw [(hgrown.trans (World.grown_enter w _)).since_trans h.grown,
    hgrown.since_trans (World.grown_enter w _), World.since_enter, List.mem_append,
    List.mem_append, List.mem_singleton]
  constructor
  · rintro ((hbegan | hbegan) | hbegan)
    · exact .inl hbegan
    · exact .inr (by simpa using hbegan)
    · obtain ⟨disk, hdisk, -⟩ := h.shows _ hbegan
      exact absurd rfl (Entry.ne_began_of_disk? hdisk o')
  · rintro (hbegan | rfl)
    · exact .inl (.inl hbegan)
    · exact .inl (.inr rfl)

theorem FilePaths.Kept.began_iff {o : FileOperation} (h : p.Kept view w w')
    (hgrown : w₀.Grown w) : Entry.began o ∈ w₀.since w' ↔ Entry.began o ∈ w₀.since w := by
  rw [hgrown.since_trans h.grown, List.mem_append]
  exact or_iff_left fun hbegan => (h.talk _ hbegan).ne_began o rfl

/-! ### What holds at a juncture -/

namespace Juncture

/-- What the current files hold at a juncture. -/
def Shows (prior wanted c : Contents) : Juncture → Prop
  | .rendered | .backedUp | .restored _ | .reloaded _ | .unreloaded _ => Unchanged prior c
  | .persisted | .drained | .loaded | .running => ∀ f, c (.current f) = wanted (.current f)
  | .broken _ | .unrestored _ | .cut =>
    ∀ f, c (.current f) = prior (.current f) ∨ c (.current f) = wanted (.current f)

/-- At every juncture a file is as before, or holds what is wanted there. -/
theorem Shows.either {wanted : Contents} (h : j.Shows prior wanted c) (f : Form) :
    c (.current f) = prior (.current f) ∨ c (.current f) = wanted (.current f) := by
  cases j <;> first
    | exact .inl (h f)
    | exact .inr (h f)
    | exact h f

/-- Whether a revert has begun, where that is certain. -/
def reverts? : Juncture → Option Bool
  | .restored _ | .unrestored _ | .reloaded _ | .unreloaded _ => some true
  | .cut => none
  | _ => some false

/-- Whether the juncture is reached only by an access that failed. -/
def failsAccess : Juncture → Bool
  | .broken .backingUp | .broken .persisting | .unrestored _ => true
  | _ => false

/-- Whether the files can be taken back from there. -/
def inCustody : Juncture → Bool
  | .rendered => false
  | _ => true

end Juncture

/-- How the files of an attempt stand at a juncture. -/
structure Safe (p : FilePaths) (w₀ : World σ) (raw rendered : Bytes) (j : Juncture)
    (w : World σ) : Prop where
  chronicle : p.Chronicle (p.contents w₀.disk) w₀ [rendered] w
  shows : j.Shows (p.contents w₀.disk) (p.wanted rendered raw) (p.contents w.disk)
  custody : j.inCustody = true → Custody p (p.contents w₀.disk) (p.wanted rendered raw) w.books
    (p.contents w.disk)
  covers : j = .backedUp → ∀ f, w.books.Covers p f
  reverts : ∀ b, j.reverts? = some b → (Entry.began .revert ∈ w₀.since w ↔ b = true)
  untouched : Entry.began .persist ∉ w₀.since w →
    Unchanged (p.contents w₀.disk) (p.contents w.disk)
  reverted : Reverted (w₀.since w) → Unchanged (p.contents w₀.disk) (p.contents w.disk)
  started : j = .running → Entry.answered .startProcessing (.ok ()) ∈ w₀.since w
  fails : j.failsAccess = true → w₀.Fails w

theorem stable_safe (p : FilePaths) (view : σ → β) (w₀ : World σ) (raw rendered : Bytes)
    (j : Juncture) : p.Stable view (Safe p w₀ raw rendered j) := by
  intro w w' hkept h
  constructor
  · exact h.chronicle.kept hkept
  · rw [hkept.contents]
    exact h.shows
  · rw [hkept.books, hkept.contents]
    exact h.custody
  · rw [hkept.books]
    exact h.covers
  · intro b hb
    rw [hkept.began_iff h.chronicle.grown]
    exact h.reverts b hb
  · rw [hkept.began_iff h.chronicle.grown, hkept.contents]
    exact h.untouched
  · intro hreverted
    rw [h.chronicle.grown.since_trans hkept.grown] at hreverted
    rw [hkept.contents]
    exact h.reverted (hreverted.of_append fun he => (hkept.talk _ he).ne_began _ rfl)
  · intro hj
    rw [h.chronicle.grown.since_trans hkept.grown]
    exact List.mem_append_left _ (h.started hj)
  · exact fun hfails => (h.fails hfails).later h.chronicle.grown hkept.grown

namespace Safe

theorem not_reverts (h : Safe p w₀ raw rendered j w) (hj : j.reverts? = some false) :
    Entry.began .revert ∉ w₀.since w := by
  rw [h.reverts false hj]
  simp

/-- An operation on the files leads from one juncture to another. -/
theorem operation {o : FileOperation} (h : Safe p w₀ raw rendered j w) (ho : o ≠ .cleanup)
    (hguarded : p.Guarded view (p.contents w₀.disk) (p.wanted rendered raw)
      (w.enter (.began o)) w')
    (hshows : j'.Shows (p.contents w₀.disk) (p.wanted rendered raw) (p.contents w'.disk))
    (hcovers : j' = .backedUp → ∀ f, w'.books.Covers p f) (hstarted : j' ≠ .running)
    (hbefore : j.reverts? = some false)
    (hreverts : ∀ b, j'.reverts? = some b → (o = .revert ↔ b = true))
    (hreverted : o = .revert → Unchanged (p.contents w₀.disk) (p.contents w'.disk) ∨
      (w.enter (.began o)).Fails w')
    (huntouched : o ≠ .persist → Unchanged (p.contents w₀.disk) (p.contents w.disk) →
      Unchanged (p.contents w₀.disk) (p.contents w'.disk))
    (hfails : j'.failsAccess = true → (w.enter (.began o)).Fails w') :
    Safe p w₀ raw rendered j' w' where
  chronicle := h.chronicle.operation ho hguarded.toTrail
  shows := hshows
  custody _ := hguarded.custody
  covers := hcovers
  reverts b hb := by
    rw [hguarded.toTrail.began_iff h.chronicle.grown, or_iff_right (h.not_reverts hbefore), eq_comm]
    exact hreverts b hb
  reverted hclean := by
    have hnew := hclean.mem
    rw [hguarded.toTrail.began_iff h.chronicle.grown, or_iff_right (h.not_reverts hbefore)] at hnew
    subst hnew
    rcases hreverted rfl with hunchanged | ⟨e, he, hfailed⟩
    · exact hunchanged
    · -- the access that failed stands behind the only revert
      rw [(h.chronicle.grown.trans (World.grown_enter w _)).since_trans hguarded.grown,
        h.chronicle.grown.since_trans (World.grown_enter w _), World.since_enter,
        List.append_assoc, List.singleton_append] at hclean
      have := hclean.not_failed (h.not_reverts hbefore) (fun he => by
        obtain ⟨disk, hdisk, -⟩ := hguarded.shows _ he
        exact Entry.ne_began_of_disk? hdisk _ rfl) e he
      rw [hfailed] at this
      cases this
  untouched hbegan := by
    rw [hguarded.toTrail.began_iff h.chronicle.grown, not_or] at hbegan
    exact huntouched (Ne.symm hbegan.2) (h.untouched hbegan.1)
  started heq := absurd heq hstarted
  fails hj' := (hfails hj').earlier (h.chronicle.grown.trans (World.grown_enter w _))
    hguarded.grown

/-- The same world seen at another juncture. -/
theorem pass (h : Safe p w₀ raw rendered j w) (hj : j.inCustody = true)
    (hshows : ∀ prior wanted c, j.Shows prior wanted c → j'.Shows prior wanted c)
    (hcovers : j' ≠ .backedUp)
    (hstarted : j' = .running → Entry.answered .startProcessing (.ok ()) ∈ w₀.since w)
    (hreverts : j'.reverts? = none ∨ j'.reverts? = j.reverts?)
    (hfails : j'.failsAccess = false) : Safe p w₀ raw rendered j' w where
  chronicle := h.chronicle
  shows := hshows _ _ _ h.shows
  custody _ := h.custody hj
  covers heq := absurd heq hcovers
  reverts b hb := by
    rcases hreverts with hnone | hsame
    · rw [hnone] at hb
      cases hb
    · exact h.reverts b (hsame ▸ hb)
  untouched := h.untouched
  reverted := h.reverted
  started := hstarted
  fails hj' := by
    rw [hfails] at hj'
    cases hj'

/-- The juncture at which a phase with no action on files has failed. -/
theorem broken (h : Safe p w₀ raw rendered j w) (hj : j.inCustody = true)
    (hreverts : j.reverts? = some false) {failed : Phase}
    (hfails : (Juncture.broken failed).failsAccess = false) :
    Safe p w₀ raw rendered (.broken failed) w :=
  h.pass hj (fun _ _ _ h => h.either) (by simp) (by simp) (.inr hreverts.symm) hfails

/-- The juncture of an interrupted action. -/
theorem cut (h : Safe p w₀ raw rendered j w) (hj : j.inCustody = true) :
    Safe p w₀ raw rendered .cut w :=
  h.pass hj (fun _ _ _ h => h.either) (by simp) (by simp) (.inl rfl) rfl

end Safe

theorem Custody.shows_broken {candidate : Contents} {books : Bookkeeping}
    (h : Custody p prior candidate books c) (failed : Phase) :
    (Juncture.broken failed).Shows prior candidate c :=
  fun f => (h.current f).imp_right And.left

/-! ### The actions on the files -/

section

variable (hp : plan.files.Separate) (hlink : link.Steady view)

include hp hlink

theorem turn_backup : Turn (FileSet.backup link plan.files) .backingUp cuts
    (Safe plan.files w₀ raw rendered .rendered)
    (fun _ => Safe plan.files w₀ raw rendered .backedUp)
    (Safe plan.files w₀ raw rendered (.broken .backingUp))
    (Safe plan.files w₀ raw rendered .cut) := by
  intro w hin hw
  refine (FileSet.ends_backup hp hlink (plan.files.wanted rendered raw) hw.shows).mono ?_ ?_
  · rintro - w' ⟨hguarded, hprior, hcovers⟩
    refine ⟨hin.congr hguarded.desk, hw.operation (by simp) hguarded hprior
      (fun _ => hcovers) (by simp) rfl ?_ (by simp) (fun _ _ => hprior)
      (by simp [Juncture.failsAccess])⟩
    simp [Juncture.reverts?]
  · rintro e w' ⟨he, hguarded, hprior, hfails⟩
    refine ⟨Fault.ordinary he, hin.congr hguarded.desk, ?_⟩
    rw [he, if_neg (by simp)]
    refine hw.operation (by simp) hguarded (fun f => .inl (hprior f)) (by simp)
      (by simp) rfl ?_ (by simp) (fun _ _ => hprior) fun _ => hfails
    simp [Juncture.reverts?]

theorem turn_persist : Turn (FileSet.persist link plan.files rendered raw) .persisting cuts
    (Safe plan.files w₀ raw rendered .backedUp)
    (fun _ => Safe plan.files w₀ raw rendered .persisted)
    (Safe plan.files w₀ raw rendered (.broken .persisting))
    (Safe plan.files w₀ raw rendered .cut) := by
  intro w hin hw
  refine (FileSet.ends_persist hp hlink (hw.custody rfl) (hw.covers rfl)).mono ?_ ?_
  · rintro - w' ⟨hguarded, hwanted⟩
    refine ⟨hin.congr hguarded.desk, hw.operation (by simp) hguarded hwanted
      (by simp) (by simp) rfl ?_ (by simp) (by simp) (by simp [Juncture.failsAccess])⟩
    simp [Juncture.reverts?]
  · rintro e w' ⟨he, hguarded, hfails⟩
    refine ⟨Fault.ordinary he, hin.congr hguarded.desk, ?_⟩
    rw [he, if_neg (by simp)]
    refine hw.operation (by simp) hguarded (hguarded.custody.shows_broken _) (by simp)
      (by simp) rfl ?_ (by simp) (by simp) fun _ => hfails
    simp [Juncture.reverts?]

theorem turn_revert (failed : Phase) : Turn (Attempt.revertFiles link plan.files) .revertingFiles
    cuts (Safe plan.files w₀ raw rendered (.broken failed))
    (fun _ => Safe plan.files w₀ raw rendered (.restored failed))
    (Safe plan.files w₀ raw rendered (.unrestored failed))
    (Safe plan.files w₀ raw rendered .cut) := by
  intro w hin hw
  rw [Attempt.revertFiles]
  have hcustody := hw.custody rfl
  refine ((FileSet.ends_revert hp hlink hcustody).and
    (FileSet.ends_revert_unchanged hp hlink hcustody)).bind ?_ fun _ _ he => he.1.elim
  rintro reverted w' ⟨⟨hguarded, h⟩, huntouched⟩
  have hin' : w'.IsIn .revertingFiles := hin.congr hguarded.desk
  cases reverted with
  | true =>
    refine ⟨hin', hw.operation (by simp) hguarded h (by simp) (by simp) rfl ?_
      (fun _ => .inl h) (fun _ => huntouched) (by simp [Juncture.failsAccess])⟩
    simp [Juncture.reverts?]
  | false =>
    refine ⟨(fun hi => by cases hi), hin', hw.operation (by simp) hguarded
      (hguarded.custody.shows_broken failed) (by simp) (by simp) rfl ?_ (fun _ => .inr h)
      (fun _ => huntouched) fun _ => h⟩
    simp [Juncture.reverts?]

end

/-! ### Enrichment -/

/-- The flow has been started, and said so. -/
def FilePaths.Starts (p : FilePaths) (view : σ → β) (w w' : World σ) : Prop :=
  p.Discreet view w w' ∧
    (w.desk.engaged = true → Entry.answered .startProcessing (.ok ()) ∈ w.since w')

/-- A link behind which nobody writes to the four files. -/
structure Link.Sparing (link : Link σ) (p : FilePaths) (view : σ → β) (cuts rough : Prop) :
    Prop where
  manners : link.Manners p view cuts rough
  keeps : link.Keeps (p.Discreet view) (fun e => e.interrupts = true → cuts)
    fun r => r.isEnrich = false
  start : ∀ w, (link.ask .startProcessing).Ends w
    (fun _ w' => p.Starts view w w')
    (fun e w' => (e.interrupts = true → cuts) ∧ p.Discreet view w w')
  enrich : ∀ raw w, (link.ask (.enrich raw)).Ends w
    (fun payload w' => ∃ w₁, p.Discreet view (w.enter (.asked (.enrich raw))) w₁ ∧
      w' = w₁.enter (.answered (.enrich raw) (.ok payload)))
    (fun e w' => (e.interrupts = true → cuts) ∧
      ∃ w₁, p.Discreet view (w.enter (.asked (.enrich raw))) w₁ ∧
        w' = w₁.enter (.answered (.enrich raw) (.error e)))

namespace Link.Sparing

variable (hlink : link.Sparing p view cuts rough)

include hlink

theorem drain_within (plan : DrainPlan) (listens : Bool) :
    (drain link plan listens).Within (p.Discreet view) fun e => e.interrupts = true → cuts :=
  HotSwap.drain_within (hlink.keeps.mono fun _ => Request.isEnrich_of_isDrain) plan listens

theorem loadFlow_within :
    (loadFlow link).Within (p.Discreet view) fun e => e.interrupts = true → cuts :=
  HotSwap.loadFlow_within (hlink.keeps.ask .loadConfiguration rfl) (hlink.keeps.ask .rebuild rfl)
    fun _ => Fault.ordinary

theorem validateAndStart_within (budget : Budget) (listens : Bool) :
    (validateAndStart link budget listens).Within (p.Discreet view)
      fun e => e.interrupts = true → cuts :=
  HotSwap.validateAndStart_within (fun _ => Fault.ordinary)
    (hlink.manners.keeps.mono fun _ => Request.isQuiet_of_isValidation) budget listens
    (hlink.keeps.ask .startProcessing rfl)

theorem reloadReverted_within (budget : Budget) :
    (Attempt.reloadReverted link budget).Within (p.Discreet view)
      fun e => e.interrupts = true → cuts :=
  Attempt.reloadReverted_within hlink.loadFlow_within (hlink.validateAndStart_within budget false)
    fun _ => Fault.ordinary

end Link.Sparing

/-- How the files of an attempt stand as long as there is no enriched candidate. -/
structure Unopened (p : FilePaths) (w₀ w : World σ) : Prop where
  chronicle : p.Chronicle (p.contents w₀.disk) w₀ [] w
  shows : Unchanged (p.contents w₀.disk) (p.contents w.disk)
  reverts : Entry.began .revert ∉ w₀.since w

namespace Unopened

theorem start (p : FilePaths) (w : World σ) : Unopened p w w where
  chronicle := .start p _ w
  shows _ := rfl
  reverts := by simp [World.since_self]

theorem kept (h : Unopened p w₀ w) (h' : p.Kept view w w') : Unopened p w₀ w' where
  chronicle := h.chronicle.kept h'
  shows f := (congrFun h'.contents _).trans (h.shows f)
  reverts := by
    rw [h'.began_iff h.chronicle.grown]
    exact h.reverts

/-- An exchange with the host about an enrichment that brings nothing. -/
theorem enter (h : Unopened p w₀ w) {e : Entry} (hdisk : e.disk? = none)
    (hbegan : ∀ o, e ≠ .began o) (hrendering : e.rendering? = none) :
    Unopened p w₀ (w.enter e) where
  chronicle := by
    have := h.chronicle.enter hdisk (hbegan .cleanup)
    rwa [List.nil_append, renderings_eq_nil (by simpa using hrendering)] at this
  shows := h.shows
  reverts := by
    rw [h.chronicle.grown.since_trans (World.grown_enter w e), World.since_enter,
      List.mem_append, List.mem_singleton]
    exact fun he => he.elim h.reverts fun heq => hbegan .revert heq.symm

/-- An enrichment that brings a candidate. -/
theorem answer (h : Unopened p w₀ w) {request : Bytes} (raw : Bytes) :
    Safe p w₀ raw rendered .rendered
      (w.enter (.answered (.enrich request) (.ok (.bytes rendered)))) where
  chronicle := h.chronicle.enter (e := .answered (.enrich request) (.ok (.bytes rendered))) rfl
    (by simp)
  shows := h.shows
  custody hj := by cases hj
  covers hj := by cases hj
  reverts b hb := by
    obtain rfl : false = b := by simpa [Juncture.reverts?] using hb
    rw [h.chronicle.grown.since_trans (World.grown_enter w _), World.since_enter,
      List.mem_append, List.mem_singleton]
    simpa using h.reverts
  untouched _ := h.shows
  reverted _ := h.shows
  started hj := by cases hj
  fails hj := by cases hj

end Unopened

theorem turn_enrich (hlink : link.Sparing plan.files view cuts rough) :
    Turn (Attempt.enrich link plan raw) .enriching cuts (Unopened plan.files w₀)
      (fun v w => match v with
        | none => Unopened plan.files w₀ w
        | some rendered => Safe plan.files w₀ raw rendered .rendered w)
      (Unopened plan.files w₀) (Unopened plan.files w₀) := by
  intro w hin hw
  rw [Attempt.enrich]
  split
  · have hasked : ∀ w₁, plan.files.Discreet view (w.enter (.asked (.enrich raw))) w₁ →
        w₁.IsIn .enriching ∧ Unopened plan.files w₀ w₁ := fun w₁ h₁ => by
      obtain ⟨hengaged, hphase, hkept⟩ := h₁ hin.1
      refine ⟨⟨hengaged, hphase.trans hin.2⟩, Unopened.kept (hw.enter rfl ?_ rfl) hkept⟩
      simp
    rw [ends_bind, ends_guarded]
    refine (hlink.enrich raw w).mono ?_ ?_
    · rintro payload w' ⟨w₁, h₁, rfl⟩
      obtain ⟨hin₁, hw₁⟩ := hasked w₁ h₁
      -- only a byte string is a candidate
      cases payload with
      | bytes rendered => exact ⟨hin₁, hw₁.answer raw⟩
      | other typeName => exact ⟨(fun hi => by cases hi), hin₁, hw₁.enter rfl (by simp) rfl⟩
    · rintro e w' ⟨hcuts, w₁, h₁, rfl⟩
      obtain ⟨hin₁, hw₁⟩ := hasked w₁ h₁
      have hw' := hw₁.enter (e := .answered (.enrich raw) (.error e)) rfl (by simp) rfl
      split
      · exact ⟨hcuts, hin₁, hw'⟩
      · exact ⟨(fun hi => by cases hi), hin₁, hw'⟩
  · exact ⟨hin, hw⟩

/-! ### The narrative of the files -/

/-- A start that succeeds is noted before the attempt goes on. -/
theorem turn_start (hlink : link.Sparing plan.files view cuts rough) :
    Turn (validateAndStart link plan.validation true) .validating cuts
      (Safe plan.files w₀ raw rendered .loaded)
      (fun _ => Safe plan.files w₀ raw rendered .running)
      (Safe plan.files w₀ raw rendered (.broken .validating))
      (Safe plan.files w₀ raw rendered .cut) := by
  intro w hin hw
  have hlasts := (stable_safe plan.files view w₀ raw rendered .loaded).lasts_in .validating
  refine (ends_validateAndStart (fun _ => Fault.ordinary)
    (hlink.manners.keeps.mono fun _ => Request.isQuiet_of_isValidation)
    plan.validation true hlink.start w).mono ?_ ?_
  · rintro - w' ⟨w₁, w₂, h₁, ⟨h₂, hstarted⟩, h₃⟩
    obtain ⟨hin₁, hw₁⟩ := hlasts w w₁ hin.1 h₁ ⟨hin, hw⟩
    obtain ⟨hin₂, hw₂⟩ := hlasts w₁ w₂ hin₁.1 h₂ ⟨hin₁, hw₁⟩
    have hkept := (h₂ hin₁.1).2.2
    -- the answer of the host is what the journal shows of the start
    have hnoted : Entry.answered .startProcessing (.ok ()) ∈ w₀.since w₂ := by
      rw [hw₁.chronicle.grown.since_trans hkept.grown]
      exact List.mem_append_right _ (hstarted hin₁.1)
    have hrunning := (stable_safe plan.files view w₀ raw rendered .running).lasts_in .validating
    refine hrunning w₂ w' hin₂.1 h₃ ⟨hin₂, ?_⟩
    exact hw₂.pass rfl (fun _ _ _ h => h) (by simp) (fun _ => hnoted) (.inr rfl) rfl
  · rintro e w' ⟨hcuts, h'⟩
    obtain ⟨hin', hw'⟩ := hlasts w w' hin.1 h' ⟨hin, hw⟩
    refine ⟨hcuts, hin', ?_⟩
    split
    · exact hw'.cut rfl
    · exact hw'.broken rfl rfl rfl

/-- The files of an attempt, from juncture to juncture. -/
def safekeepingOutline (hp : plan.files.Separate)
    (hlink : link.Sparing plan.files view cuts rough) (w₀ : World σ) (raw rendered : Bytes) :
    Outline link plan view cuts raw rendered where
  holds := Safe plan.files w₀ raw rendered
  stable := stable_safe plan.files view w₀ raw rendered
  backup := turn_backup hp hlink.manners.steady
  persist := turn_persist hp hlink.manners.steady
  drain := turn_of_within (hlink.drain_within plan.drain true)
    (stable_safe plan.files view w₀ raw rendered _)
    (fun _ h => h.pass rfl (fun _ _ _ h => h) (by simp) (by simp) (.inr rfl) rfl)
    (fun _ h => h.broken rfl rfl rfl) (fun _ h => h.cut rfl)
  load := turn_of_within hlink.loadFlow_within
    (stable_safe plan.files view w₀ raw rendered _)
    (fun _ h => h.pass rfl (fun _ _ _ h => h) (by simp) (by simp) (.inr rfl) rfl)
    (fun _ h => h.broken rfl rfl rfl) (fun _ h => h.cut rfl)
  start := turn_start hlink
  revert := turn_revert hp hlink.manners.steady
  reload failed _ := turn_of_within (hlink.reloadReverted_within plan.validation)
    (stable_safe plan.files view w₀ raw rendered _)
    (fun _ h => h.pass rfl (fun _ _ _ h => h) (by simp) (by simp) (.inr rfl) rfl)
    (fun _ h => h.pass rfl (fun _ _ _ h => h) (by simp) (by simp) (.inr rfl) rfl)
    (fun _ h => h.cut rfl)

/-- The files of an attempt, from its beginning to its end. -/
def safekeeping (hp : plan.files.Separate) (hlink : link.Sparing plan.files view cuts rough)
    (w₀ : World σ) (raw : Bytes) : Narrative link plan view cuts raw where
  begun := Unopened plan.files w₀
  outline rendered := safekeepingOutline hp hlink w₀ raw rendered
  stable_begun _ _ hkept h := h.kept hkept
  enrich := turn_enrich hlink

end HotSwap
