/-
Backups are transient.

A transaction on the files ends with their cleanup, whichever way it ends: both backups
are removed, or their removal is refused, and nothing touches the files afterwards.  An
attempt that never enters its transaction does not touch them at all.

* `World.Spends` — the frame of a running attempt, with a view of the disk and the entries
  that may come;
* `FilePaths.sweep`, `FilePaths.Swept` — what a cleanup leaves in the journal, and that it
  has come once and last;
* `FileSet.ends_transaction_swept` — every transaction ends so, and its end is that of its
  body;
* `Updater.ends_apply_transient` — every update leaves the files untouched or swept.
-/
import HotSwap.Proofs.Completions
import HotSwap.Proofs.Scopes

namespace HotSwap

open Act

variable {σ α β : Type} {view : Disk → β} {Z : Entry → Prop} {w w' w'' : World σ}

/-! ### The frame -/

namespace World

/-- While an attempt is running, it goes on, a view of the disk stays as it is, and the
journal grows by entries of `Z`. -/
def Spends (view : Disk → β) (Z : Entry → Prop) (w w' : World σ) : Prop :=
  w.desk.engaged = true → w'.desk.engaged = true ∧ view w'.disk = view w.disk ∧ w.Grown w' ∧
    ∀ e ∈ w.since w', Z e

theorem spends_of_journal (hengaged : w'.desk.engaged = w.desk.engaged)
    (hdisk : view w'.disk = view w.disk) (hjournal : w'.journal = w.journal) :
    w.Spends view Z w' := fun h =>
  ⟨hengaged.trans h, hdisk, grown_of_journal hjournal,
    fun e he => by simp [since_of_journal hjournal] at he⟩

theorem Spends.trans (h : w.Spends view Z w') (h' : w'.Spends view Z w'') :
    w.Spends view Z w'' := by
  intro hengaged
  obtain ⟨hengaged', hdisk, hgrown, hentries⟩ := h hengaged
  obtain ⟨hengaged'', hdisk', hgrown', hentries'⟩ := h' hengaged'
  refine ⟨hengaged'', hdisk'.trans hdisk, hgrown.trans hgrown', fun e he => ?_⟩
  rw [hgrown.since_trans hgrown'] at he
  exact (List.mem_append.mp he).elim (hentries e) (hentries' e)

theorem spends_enter (w : World σ) {e : Entry} (he : Z e) : w.Spends view Z (w.enter e) := by
  intro h
  refine ⟨h, rfl, grown_enter w e, fun e' he' => ?_⟩
  rw [since_enter] at he'
  rwa [List.mem_singleton.mp he']

theorem Waits.spends {cuts : Prop} (h : w.Waits view Z cuts w') : w.Spends view Z w' :=
  fun hengaged => ⟨(h hengaged).engaged, (h hengaged).disk, (h hengaged).grown, (h hengaged).entries⟩

end World

instance : Course (World.Spends (σ := σ) view Z) where
  refl _ := World.spends_of_journal rfl rfl rfl
  trans := World.Spends.trans
  log _ _ := World.spends_of_journal rfl rfl rfl
  polls _ _ := World.spends_of_journal rfl rfl rfl

/-! ### The cleanup -/

/-- What a cleanup leaves in the journal: how the two removals ended, and the disks that
they left. -/
def FilePaths.sweep (p : FilePaths) (f : Option Fault) (d : Disk) (g : Option Fault) (d' : Disk) :
    List Entry :=
  [.began .cleanup, .accessed (.remove p.backup) f d, .accessed (.remove p.backupRaw) g d']

/-- Between two worlds there was one cleanup.  It began in `v`, both removals were tried,
and nothing about files came after it.  If `kept`, a backup is left only if its own removal
was refused. -/
structure FilePaths.Swept (p : FilePaths) (kept : Prop) (w v w' : World σ) : Prop where
  grown : w.Grown v
  first : ∀ e ∈ w.since v, e ≠ .began .cleanup
  last : ∃ f d g d' after, w'.journal = v.journal ++ (p.sweep f d g d' ++ after) ∧
    (∀ e ∈ after, ¬ e.OfFiles) ∧ (kept → (f = none → w'.disk.found p.backup = none) ∧
      (g = none → w'.disk.found p.backupRaw = none))

/-- The removal of what is at a path was tried, and ended with a fault or without one. -/
structure World.Discards (path : Path) (f : Option Fault) (w w' : World σ) : Prop where
  engaged : w'.desk.engaged = w.desk.engaged
  journal : w'.journal = w.journal ++ [.accessed (.remove path) f w'.disk]
  gone : f = none → w'.disk.found path = none
  still : ∀ q, w.disk.found q = none → w'.disk.found q = none

theorem Link.ends_discardFile_discards (link : Link σ) (path : Path) (w : World σ) :
    (link.discardFile path).Ends w (fun _ w' => w.Discards path none w')
      fun e w' => Fault.Refusal e ∧ w.Discards path (some e) w' := by
  have hrefused : ∀ (w₁ : World σ) (e : SystemError), w₁.desk = w.desk → w₁.disk = w.disk →
      w₁.journal = w.journal → Fault.Refusal (.system e) ∧ w.Discards path (some (.system e))
        (w₁.enter (.accessed (.remove path) (some (.system e)) w₁.disk)) := by
    intro w₁ e hdesk hdisk hjournal
    have hentry : (w₁.enter (.accessed (.remove path) (some (.system e)) w₁.disk)).journal =
        w.journal ++ [.accessed (.remove path) (some (.system e)) w₁.disk] := by
      rw [← hjournal]
      rfl
    refine ⟨⟨e, rfl⟩, congrArg Desk.engaged hdesk, hentry, fun h => by simp at h, fun q hq => ?_⟩
    show w₁.disk.found q = none
    rw [hdisk, hq]
  rw [discardFile, ends_noted, ends_bind, leave, ends_bind, ends_choose]
  split
  · rw [ends_pure, ends_bind, ends_look]
    split
    · next disk hremove =>
      exact ⟨rfl, rfl, fun _ => (Disk.found_of_remove hremove).2.1,
        fun q hq => Disk.found_eq_none_of_remove hremove hq⟩
    · next code hremove =>
      split
      · next hcode =>
        -- nothing was there to be removed
        obtain rfl := eq_of_beq hcode
        exact ⟨rfl, rfl, fun _ => Disk.found_of_remove_notFound hremove, fun q hq => hq⟩
      · exact hrefused _ _ rfl rfl rfl
  · exact hrefused _ _ rfl rfl rfl

namespace FileSet

variable {link : Link σ} {p : FilePaths}

theorem ends_removeLogged_discards (link : Link σ) (path : Path) (w : World σ) :
    (removeLogged link path).Ends w (fun _ w' => ∃ f, w.Discards path f w') fun _ _ => False := by
  rw [removeLogged, ends_bind, ends_rescue]
  refine (link.ends_discardFile_discards path w).mono (fun _ _ h => ⟨none, h⟩) ?_
  rintro _ w' ⟨⟨refusal, rfl⟩, h⟩
  exact ⟨_, h.engaged, h.journal, h.gone, h.still⟩

/-- A cleanup always ends.  A refusal of the one removal does not keep the other from being
tried. -/
theorem ends_cleanup_sweep (link : Link σ) (p : FilePaths) (w : World σ) :
    (cleanup link p).Ends w
      (fun _ w' => w'.desk.engaged = w.desk.engaged ∧ ∃ f d g,
        w'.journal = w.journal ++ p.sweep f d g w'.disk ∧
          (f = none → w'.disk.found p.backup = none) ∧
            (g = none → w'.disk.found p.backupRaw = none))
      fun _ _ => False := by
  rw [cleanup, ends_bind, ends_enter]
  refine (ends_removeLogged_discards link p.backup _).bind ?_ fun _ _ he => he
  rintro - w₁ ⟨f, h₁⟩
  refine (ends_removeLogged_discards link p.backupRaw w₁).bind ?_ fun _ _ he => he
  rintro - w₂ ⟨g, h₂⟩
  have hjournal : w₂.journal = w.journal ++ p.sweep f w₁.disk g w₂.disk := by
    rw [h₂.journal, h₁.journal]
    simp [World.enter, FilePaths.sweep]
  exact ⟨h₂.engaged.trans h₁.engaged, f, w₁.disk, g, hjournal,
    fun hf => h₂.still _ (h₁.gone hf), h₂.gone⟩

/-- A transaction is swept in the end, and ends as its body does. -/
theorem ends_transaction_swept (kept : Prop) {body : Act σ α} {F : Fault → Prop}
    (hbody : body.Within (World.Spends (fun _ => ()) (· ≠ .began .cleanup)) F)
    (hengaged : w.desk.engaged = true) :
    (transaction link p body).Ends w
      (fun x w' => (body.run w).1 = .ok x ∧ w'.desk.engaged = true ∧
        p.Swept kept w (body.run w).2 w')
      fun e w' => (body.run w).1 = .error e ∧ w'.desk.engaged = true ∧
        p.Swept kept w (body.run w).2 w' := by
  have hswept : w.Spends (fun _ => ()) (· ≠ .began .cleanup) (body.run w).2 →
      (cleanup link p).Ends (body.run w).2 (fun _ w' => w'.desk.engaged = true ∧
        p.Swept kept w (body.run w).2 w') fun _ _ => False := by
    intro hspends
    obtain ⟨hengaged₁, -, hgrown, hentries⟩ := hspends hengaged
    refine (ends_cleanup_sweep link p (body.run w).2).mono ?_ fun _ _ he => he
    rintro - w' ⟨hengaged', f, d, g, hjournal, hf, hg⟩
    refine ⟨hengaged'.trans hengaged₁, hgrown, hentries, f, d, g, w'.disk, [], ?_,
      fun e he => (List.not_mem_nil he).elim, fun _ => ⟨hf, hg⟩⟩
    rw [hjournal, List.append_nil]
  have hw := hbody w
  rw [transaction, ends_ensuring]
  unfold Ends at hw ⊢
  rcases hrun : body.run w with ⟨e | x, w₁⟩ <;> rw [hrun] at hw hswept
  · exact (hswept hw.2).mono (fun _ _ h => ⟨rfl, h⟩) fun _ _ he => he.elim
  · exact (hswept hw).mono (fun _ _ h => ⟨rfl, h⟩) fun _ _ he => he.elim

end FileSet

/-! ### An attempt -/

/-- The phase begins in which the backups are made. -/
def Entry.StartsBackingUp : Entry → Prop
  | .asked (.publish (.phaseStarted _ .backingUp)) => True
  | _ => False

/-- An entry that is neither about files nor about the beginning of their backup. -/
def Entry.Aloof (e : Entry) : Prop := ¬ e.OfFiles ∧ ¬ e.StartsBackingUp

/-- Whatever is asked is aloof, but for one event. -/
theorem Entry.aloof_asked {r : Request} (hr : ∀ id, r ≠ .publish (.phaseStarted id .backingUp)) :
    (Entry.asked r).Aloof := by
  refine ⟨fun h => h, fun hstarts => ?_⟩
  cases r with
  | publish event =>
    cases event with
    | phaseStarted id phase =>
      cases phase with
      | backingUp => exact hr id rfl
      | _ => exact hstarts
    | _ => exact hstarts
  | _ => exact hstarts

theorem Entry.aloof_answered {r : Request} (answer : Except Fault r.Answer) :
    (Entry.answered r answer).Aloof := ⟨fun h => h, fun h => h⟩

/-- What tells of the end of an attempt is aloof. -/
theorem Entry.aloof_of_murmurs {e : Entry} (he : e.murmurs) : e.Aloof := by
  cases e with
  | asked r =>
    refine aloof_asked ?_
    rintro id rfl
    exact he
  | answered r answer => exact aloof_answered answer
  | _ => exact he.elim

/-- The journal has grown, but the files were not touched. -/
def World.Untouched (w w' : World σ) : Prop := w.Grown w' ∧ ∀ e ∈ w.since w', e.Aloof

variable {p : FilePaths} {kept : Prop}

theorem FilePaths.Swept.before (hgrown : w.Grown w') (haloof : ∀ e ∈ w.since w', e.Aloof)
    {v : World σ} (h : p.Swept kept w' v w'') : p.Swept kept w v w'' where
  grown := hgrown.trans h.grown
  first e he := by
    rw [hgrown.since_trans h.grown] at he
    rcases List.mem_append.mp he with he | he
    · rintro rfl
      exact (haloof _ he).1 trivial
    · exact h.first e he
  last := h.last

theorem FilePaths.Swept.after {v : World σ} (h : p.Swept kept w v w')
    (hdisk : kept → p.backups.map w''.disk.found = p.backups.map w'.disk.found)
    (hgrown : w'.Grown w'') (haloof : ∀ e ∈ w'.since w'', e.Aloof) : p.Swept kept w v w'' where
  grown := h.grown
  first := h.first
  last := by
    obtain ⟨f, d, g, d', after, hjournal, hafter, hgone⟩ := h.last
    refine ⟨f, d, g, d', after ++ w'.since w'', ?_, fun e he => ?_, fun hkept => ?_⟩
    · rw [hgrown.journal_eq, hjournal]
      simp only [List.append_assoc]
    · exact (List.mem_append.mp he).elim (hafter e) fun he => (haloof e he).1
    · obtain ⟨hbackup, hbackupRaw⟩ : w''.disk.found p.backup = w'.disk.found p.backup ∧
          w''.disk.found p.backupRaw = w'.disk.found p.backupRaw := by
        simpa [FilePaths.backups] using hdisk hkept
      rw [hbackup, hbackupRaw]
      exact hgone hkept

namespace Attempt

variable {link : Link σ} {plan : UpdatePlan} {a : Attempt} {raw : Bytes}

/-- The attempt has come to the end `r` of a commit, and has been swept after it. -/
def Sweeps (link : Link σ) (plan : UpdatePlan) (a : Attempt) (raw : Bytes) (kept : Prop)
    (r : Except Fault Outcome) (w w' : World σ) : Prop :=
  ∃ rendered v, w.Grown v ∧ ((a.commit link plan raw rendered).run v).1 = r ∧
    plan.files.Swept kept w ((a.commit link plan raw rendered).run v).2 w'

/-- Only the journal and the disk are looked at. -/
theorem Sweeps.congr {r : Except Fault Outcome} {w₀ w₁ : World σ}
    (h : a.Sweeps link plan raw kept r w w') (hw : w₀.journal = w.journal)
    (hjournal : w₁.journal = w'.journal) (hdisk : w₁.disk = w'.disk) :
    a.Sweeps link plan raw kept r w₀ w₁ := by
  obtain ⟨rendered, v, hv, hr, hgrown, hfirst, hlast⟩ := h
  rw [World.Grown] at hv hgrown
  rw [World.since] at hfirst
  refine ⟨rendered, v, by rwa [World.Grown, hw], hr, by rwa [World.Grown, hw], ?_, ?_⟩
  · rwa [World.since, hw]
  · rwa [hjournal, hdisk]

/-- As long as the attempt is running, it sweeps. -/
def LeavesSwept (link : Link σ) (plan : UpdatePlan) (a : Attempt) (raw : Bytes) (kept : Prop)
    (r : Except Fault Outcome) (w w' : World σ) : Prop :=
  w.desk.engaged = true → w'.desk.engaged = true ∧ a.Sweeps link plan raw kept r w w'

variable (hview : kept → ∀ d d' : Disk, view d' = view d →
  plan.files.backups.map d'.found = plan.files.backups.map d.found)

include hview in
/-- What is done apart from a transaction goes with it. -/
theorem surrounds_leavesSwept :
    Surrounds (World.Spends (σ := σ) view Entry.Aloof) (a.LeavesSwept link plan raw kept) where
  before h h' hengaged := by
    obtain ⟨hengaged', -, hgrown, haloof⟩ := h hengaged
    obtain ⟨hengaged'', rendered, v, hv, hr, hswept⟩ := h' hengaged'
    exact ⟨hengaged'', rendered, v, hgrown.trans hv, hr, hswept.before hgrown haloof⟩
  after h h' hengaged := by
    obtain ⟨hengaged', rendered, v, hv, hr, hswept⟩ := h hengaged
    obtain ⟨hengaged'', hdisk, hgrown, haloof⟩ := h' hengaged'
    exact ⟨hengaged'', rendered, v, hv, hr,
      hswept.after (fun hkept => hview hkept _ _ hdisk) hgrown haloof⟩

variable (hask : ∀ r : Request, (Entry.asked r).Aloof →
    (link.ask r).Within (World.Spends view Entry.Aloof) fun _ => True)
  (hcommit : ∀ r, (link.ask r).Within (World.Spends (fun _ => ()) (· ≠ .began .cleanup))
    fun _ => True)

include hcommit in
/-- A transaction commits, and is swept then. -/
theorem ends_transaction_leavesSwept (rendered : Bytes) (w : World σ) :
    (FileSet.transaction link plan.files (a.commit link plan raw rendered)).Ends w
      (fun o w' => a.LeavesSwept link plan raw kept (.ok o) w w')
      fun e w' => a.LeavesSwept link plan raw kept (.error e) w w' := by
  have hspends : ∀ {v v' : World σ}, v'.desk.engaged = v.desk.engaged → v'.journal = v.journal →
      v.Spends (fun _ => ()) (· ≠ .began .cleanup) v' := fun hengaged hjournal =>
    World.spends_of_journal hengaged rfl hjournal
  have hhandles : link.Handles (World.Spends (fun _ => ()) (· ≠ .began .cleanup))
      (· ≠ .cleanup) := by
    refine Link.handles_of_noted (fun _ _ => hspends rfl rfl) (fun _ _ => hspends rfl rfl)
      (fun w w' e h he => Course.trans h (World.spends_enter w' ?_))
      (fun _ _ => hspends rfl rfl) fun w o ho => World.spends_enter w fun h => ho ?_
    · rintro rfl
      cases he
    · cases h
      rfl
  have hcommitted : (a.commit link plan raw rendered).Within
      (World.Spends (fun _ => ()) (· ≠ .began .cleanup)) fun _ => True :=
    a.commit_within_of_keeps (fun _ _ h => hspends h rfl) hhandles
      ⟨fun r _ => hcommit r, fun _ => hspends rfl rfl, fun _ => hspends rfl rfl⟩
      (fun _ _ => trivial) raw rendered
  by_cases hengaged : w.desk.engaged = true
  · refine (FileSet.ends_transaction_swept kept hcommitted hengaged).mono ?_ ?_
    · exact fun o w' ⟨hr, hengaged', hswept⟩ _ =>
        ⟨hengaged', rendered, w, .refl w, hr, hswept⟩
    · exact fun e w' ⟨hr, hengaged', hswept⟩ _ =>
        ⟨hengaged', rendered, w, .refl w, hr, hswept⟩
  · exact .of_forall (fun _ _ h => absurd h hengaged) fun _ _ h => absurd h hengaged

include hview hask hcommit in
/-- An attempt goes around its transaction, or through it; then it sweeps. -/
theorem ends_attempt_leavesSwept {rough : Prop} (hclose : plan.tracing = true → ∀ s,
      (link.ask (.closeSpan s)).Within (World.Spends view Entry.Aloof) fun e => e.interrupts = true ∨ rough)
    (w : World σ) :
    (Updater.attempt link plan a raw).Ends w
      (fun report w' => Scoped (World.Spends view Entry.Aloof) (a.LeavesSwept link plan raw kept) rough report w w')
      fun e w' => Cut (World.Spends view Entry.Aloof) (a.LeavesSwept link plan raw kept) rough e w w' := by
  have hother : ∀ r : Request, (∀ id, r ≠ .publish (.phaseStarted id .backingUp)) →
      (link.ask r).Within (World.Spends view Entry.Aloof) fun _ => True := fun r hr =>
    hask r (Entry.aloof_asked hr)
  have htime : link.time.Within (World.Spends view Entry.Aloof) fun _ => True := fun w =>
    (World.spends_of_journal rfl rfl rfl : w.Spends view Entry.Aloof _)
  have htold : a.Told link (World.Spends view Entry.Aloof) (fun _ => True) (· = .enriching) := by
    refine ⟨fun _ _ => World.spends_of_journal rfl rfl rfl, fun e _ _ hphase => hother _ ?_,
      fun _ => hother _ (by simp), fun _ _ _ => hother _ (by simp), fun _ _ => hother _ (by simp),
      fun _ => hother _ (by simp)⟩
    rintro id hid
    obtain rfl : e = .phaseStarted id .backingUp := by simpa using hid
    cases hphase .backingUp rfl
  exact ends_attempt_scoped (surrounds_leavesSwept hview) htold (fun _ => hother _ (by simp))
    (fun o drained => a.finish_within plan o drained htime (fun _ _ _ _ => hother _ (by simp))
      fun _ _ => hother _ (by simp))
    (ends_transaction_leavesSwept hcommit) hclose w

/-- A commit does not end as a rejection. -/
theorem ends_commit_state (raw rendered : Bytes) (w : World σ) :
    (a.commit link plan raw rendered).Ends w (fun o _ => o.state ≠ .rejected)
      fun _ _ => True := by
  refine ends_bind_of_forall fun failed w => ?_
  cases failed with
  | none => exact fun h => nomatch h
  | some failed =>
    refine ends_bind_of_forall fun _ w => ends_bind_of_forall fun reverted w => ?_
    split
    · exact ends_bind_of_forall fun _ _ => fun h => nomatch h
    · split
      · exact ends_bind_of_forall fun _ _ => fun h => nomatch h
      · refine ends_bind_of_forall fun reloaded w => ?_
        split
        · exact ends_bind_of_forall fun _ _ => fun h => nomatch h
        · exact ends_bind_of_forall fun _ _ => fun h => nomatch h

/-- So neither does the report that follows it. -/
theorem Sweeps.state_ne {r : Except Fault Outcome} {report : UpdateReport} {rough : Prop}
    (h : a.Sweeps link plan raw kept r w w')
    (hreport : report.Follows r ∨ report.Unexpected ∧ (rough ∨ ∃ e, r = .error e)) :
    report.state ≠ .rejected := by
  intro hrejected
  rcases hreport with ⟨o, rfl, hstate, -⟩ | ⟨⟨hstate, -⟩, -⟩
  · obtain ⟨rendered, v, -, hr, -⟩ := h
    have hcommit : (a.commit link plan raw rendered).Ends v (fun o _ => o.state ≠ .rejected)
        fun _ _ => True := a.ends_commit_state raw rendered v
    exact hcommit.ok (Prod.ext hr rfl) (hstate.symm.trans hrejected)
  · rw [hstate] at hrejected
    cases hrejected

end Attempt

namespace Updater

variable {h : Host σ} {plan : UpdatePlan} {E : Request → Fault → Prop} {rough : Prop}

/-- The ends of an update, as far as its files go: it has left them untouched, or it has
committed and was swept then.  Its report is the one that the commit came to, unless
something else fails: the commit itself, or, if `rough`, the end of a span. -/
private theorem ends_apply_of_leaves {kept : Prop} (hleaves : h.Leaves view)
    (hview : kept → ∀ d d' : Disk, view d' = view d →
      plan.files.backups.map d'.found = plan.files.backups.map d.found)
    (hraises : h.Raises E)
    (hclose : plan.tracing = true → ∀ s e, E (.closeSpan s) e → e.interrupts = true ∨ rough)
    (depth : Nat) (raw : Bytes) (w : World σ) :
    (apply (h.link (console plan) depth) plan raw).Ends w
      (fun report w' => (report.state = .rejected → w.Untouched w') ∧ (w.Untouched w' ∨
        ∃ r, (newAttempt (h.link (console plan) depth) raw w).Sweeps (h.link (console plan) depth)
          plan raw kept r w w' ∧
          (report.Follows r ∨ report.Unexpected ∧ (rough ∨ ∃ e, r = .error e))))
      fun _ w' => w.Untouched w' ∨ ∃ r, (newAttempt (h.link (console plan) depth) raw w).Sweeps
        (h.link (console plan) depth) plan raw kept r w w' := by
  have hclosed := fun s => hraises.ends_ask plan depth (.closeSpan s)
  -- nothing that is asked cleans up
  have hcommit : ∀ r : Request, ((h.link (console plan) depth).ask r).Within
      (World.Spends (fun _ => ()) (· ≠ .began .cleanup)) fun _ => True := fun r =>
    (h.leaves_nothing.ask_waits (fun e he => by rintro rfl; exact he) (h.orders_any _) depth
      (fun _ => Conduct.orders_of_forall (fun _ _ => trivial) _) (fun h => nomatch h)
      fun _ h => nomatch h).mono (fun _ _ => World.Waits.spends) fun _ => id
  -- and what is asked before the backup, or after the cleanup, leaves the files alone
  have hask : ∀ r : Request, (Entry.asked r).Aloof → ((h.link (console plan) depth).ask r).Within
      (World.Waits view Entry.Aloof True) fun _ => True := fun r hr =>
    hleaves.ask_waits (fun _ => Entry.aloof_of_murmurs) (h.orders_any _) depth
      (fun _ => Conduct.orders_of_forall (fun _ _ => trivial) _) hr fun _ => Entry.aloof_answered _
  generalize h.link (console plan) depth = link at hask hcommit hclosed
  have hconcludes : ∀ r : Request, r.concludes → (Entry.asked r).Aloof := fun r hr =>
    Entry.aloof_of_murmurs (e := .asked r) hr
  cases hengaged : w.desk.engaged with
  | true =>
    -- another attempt is running, and only the refusal is told
    refine (apply_waits (fun r hr => hask r (hconcludes r hr)) raw w).mono ?_ ?_
    · intro report w' hwaits
      have h : w.Untouched w' := (hwaits.spends hengaged).2.2
      exact ⟨fun _ => h, .inl h⟩
    · exact fun e w' he => .inl (he.2.spends hengaged).2.2
  | false =>
    rw [ends_apply_of_free hengaged]
    have hapart : ∀ r : Request, (Entry.asked r).Aloof →
        (link.ask r).Within (World.Spends view Entry.Aloof) fun _ => True := fun r hr =>
      (hask r hr).mono (fun _ _ => World.Waits.spends) fun _ => id
    have hspan : plan.tracing = true → ∀ s, (link.ask (.closeSpan s)).Within
        (World.Spends view Entry.Aloof) fun e => e.interrupts = true ∨ rough := by
      intro htracing s w
      refine ((hapart (.closeSpan s) (Entry.aloof_asked (by simp)) w).and (hclosed s w)).mono ?_ ?_
      · exact fun _ _ h => h.1
      · exact fun e _ he => ⟨hclose htracing s e he.2, he.1.2⟩
    refine (Attempt.ends_attempt_leavesSwept hview hapart hcommit hspan _).mono ?_ ?_
    · rintro report w' (⟨h, -⟩ | ⟨r, h, hreport⟩)
      · have h' : w.Untouched (released w') := (h rfl).2.2
        exact ⟨fun _ => h', .inl h'⟩
      · have hsweeps : (newAttempt link raw w).Sweeps link plan raw kept r w (released w') :=
          (h rfl).2.congr rfl rfl rfl
        exact ⟨fun hrejected => absurd hrejected (hsweeps.state_ne hreport),
          .inr ⟨r, hsweeps, hreport⟩⟩
    · rintro e w' (h | ⟨r, h, -⟩)
      · exact .inl (h rfl).2.2
      · exact .inr ⟨r, (h rfl).2.congr rfl rfl rfl⟩

/-- Every update ends with the files untouched, or it has committed, and was swept then;
where the host leaves the backups alone, they are gone unless their own removal was
refused.  Its report is the one that the commit came to, whether the removals were refused
or not, unless something else fails: the commit itself, or, if `rough`, the end of a span.
An update that is rejected, because another one is running or by the enricher, ends with
the files untouched. -/
theorem ends_apply_transient {kept : Prop}
    (hleaves : kept → h.Leaves fun d => plan.files.backups.map d.found) (hraises : h.Raises E)
    (hclose : plan.tracing = true → ∀ s e, E (.closeSpan s) e → e.interrupts = true ∨ rough)
    (depth : Nat) (raw : Bytes) (w : World σ) :
    (apply (h.link (console plan) depth) plan raw).Ends w
      (fun report w' => (report.state = .rejected → w.Untouched w') ∧ (w.Untouched w' ∨
        ∃ r, (newAttempt (h.link (console plan) depth) raw w).Sweeps (h.link (console plan) depth)
          plan raw kept r w w' ∧
          (report.Follows r ∨ report.Unexpected ∧ (rough ∨ ∃ e, r = .error e))))
      fun _ w' => w.Untouched w' ∨ ∃ r, (newAttempt (h.link (console plan) depth) raw w).Sweeps
        (h.link (console plan) depth) plan raw kept r w w' := by
  by_cases hkept : kept
  · exact ends_apply_of_leaves (hleaves hkept) (fun _ _ _ hd => hd) hraises hclose depth raw w
  · exact ends_apply_of_leaves h.leaves_nothing (fun h => absurd h hkept) hraises hclose depth raw w

end Updater

/-- A world in which an earlier process has left both backups. -/
def Sample.littered : World Nat where
  disk := { entries := [(["conf"], .directory), (["conf", "flow.json"], .file [1]),
    (["conf", "flow.json.backup"], .file [8]), (["conf", "flow.backup.raw"], .file [9])] }
  host := 0

/-- A host that is interrupted during the drain, and under which the backup of the active
file cannot be removed after six accesses. -/
def Sample.interrupted : Host Nat :=
  Host.plain (fun r =>
    match r with
    | .isDataQueued => some (.interrupt "KeyboardInterrupt" "")
    | _ => none) fun a n => if a = .remove files.backup ∧ 5 < n then some 13 else none

namespace Updater

/-- The end of an attempt under it. -/
def interruptedEnd : Except Fault UpdateReport × World Nat :=
  (apply (Sample.interrupted.link (console Sample.plan) 0) Sample.plan [2]).run Sample.littered

attribute [local irreducible] Act.Ends in
/-- An interrupt does not keep the backups, and a refusal of the one removal does not keep
the other. -/
theorem ends_apply_transient_interrupted :
    interruptedEnd.1 = .error (.interrupt "KeyboardInterrupt" "") ∧
      (interruptedEnd.2.disk.found Sample.files.backup).isSome = true ∧
      interruptedEnd.2.disk.found Sample.files.backupRaw = none ∧
      (Sample.littered.Untouched interruptedEnd.2 ∨ ∃ r,
        (newAttempt (Sample.interrupted.link (console Sample.plan) 0) [2] Sample.littered).Sweeps
          (Sample.interrupted.link (console Sample.plan) 0) Sample.plan [2] True r Sample.littered
          interruptedEnd.2) := by
  have hresult : interruptedEnd.1 = .error (.interrupt "KeyboardInterrupt" "") := by decide +kernel
  have hleaves : True → Sample.interrupted.Leaves fun d => Sample.plan.files.backups.map d.found :=
    fun _ _ _ => rfl
  have hraises : Sample.interrupted.Raises fun _ _ => True := Host.raises_any _
  have hclose : Sample.plan.tracing = true → ∀ (_ : Span) (e : Fault), True →
      e.interrupts = true ∨ False := fun h => by cases h
  have hends := ends_apply_transient hleaves hraises hclose 0 [2] Sample.littered
  exact ⟨hresult, by decide +kernel, by decide +kernel, hends.error_of_fst hresult⟩

end Updater

end HotSwap
