/-
How an attempt leaves the files.

An attempt on a free desk, inside a host that may do anything but write to the four
files, leaves each current file as it was or with the candidate, whichever accesses
the system refuses and whatever the host raises.

* `Updater.ends_settled` — what the files hold at the end, and what a report says of it;
* `Updater.ends_preserved` — what was there before is still there, in its place or in
  the backup, until the closing cleanup begins;
* `Updater.not_intact_unrestoring` — but not always at the end;
* `Updater.ends_takenBack` — where no access fails, whether an attempt that does not
  succeed was taken back.

Design notes: all three look at the same narrative, with interrupts and rough spans
for the first two, and without either for the third.
-/
import Mathlib.Data.List.TakeWhile
import HotSwap.Proofs.Hosts

namespace HotSwap

open Act

variable {σ β : Type} {view : σ → β} {w₀ w₁ w w' : World σ} {cuts rough : Prop}
  {plan : UpdatePlan} {raw rendered : Bytes} {p : FilePaths} {prior wanted c : Contents}
  {j : Juncture} {state : Phase} {kind : Option FailureKind} {failed : Option Phase}

/-! ### After the cleanup -/

namespace FilePaths.Aftermath

variable (h : p.Aftermath view w₁ w') (hgrown : w₀.Grown w₁)

include h hgrown

/-- What was done in an attempt, up to its closing cleanup and from there on. -/
theorem since_eq : w₀.since w' =
    w₀.since w₁ ++ Entry.began .cleanup :: (w₁.enter (.began .cleanup)).since w' := by
  rw [(hgrown.trans (World.grown_enter w₁ _)).since_trans h.grown,
    hgrown.since_trans (World.grown_enter w₁ _), World.since_enter, List.append_assoc,
    List.singleton_append]

theorem renderings_eq : renderings (w₀.since w') = renderings (w₀.since w₁) := by
  -- from the cleanup on nothing is enriched any more
  have hrest : renderings (Entry.began .cleanup :: (w₁.enter (.began .cleanup)).since w') = [] := by
    refine renderings_eq_nil fun e he => ?_
    rcases List.mem_cons.mp he with rfl | he
    · rfl
    · rcases h.shows e he with htalk | ⟨disk, hdisk, -⟩
      · exact htalk.rendering?_eq
      · exact Entry.rendering?_of_disk? hdisk
  rw [h.since_eq hgrown, renderings_append, hrest, List.append_nil]

theorem began_iff {o : FileOperation} (ho : o ≠ .cleanup) :
    Entry.began o ∈ w₀.since w' ↔ Entry.began o ∈ w₀.since w₁ := by
  rw [h.since_eq hgrown, List.mem_append, List.mem_cons]
  refine or_iff_left fun hbegan => ?_
  rcases hbegan with hbegan | hbegan
  · exact ho (by simpa using hbegan)
  · rcases h.shows _ hbegan with htalk | ⟨disk, hdisk, -⟩
    · exact htalk.ne_began o rfl
    · exact Entry.ne_began_of_disk? hdisk o rfl

/-- What was done before the cleanup began. -/
theorem takeWhile_eq (hopened : Entry.began .cleanup ∉ w₀.since w₁) :
    (w₀.since w').takeWhile (fun e => !e.beginsCleanup) = w₀.since w₁ := by
  rw [h.since_eq hgrown, List.takeWhile_append_of_pos, List.takeWhile_cons_of_neg,
    List.append_nil]
  · simp [Entry.beginsCleanup]
  · intro e he
    simpa using fun hcleanup => hopened (Entry.beginsCleanup_iff.mp hcleanup ▸ he)

/-- A revert that has begun has begun before the cleanup. -/
theorem sublist_of_reverts (hreverts : Entry.began .revert ∈ w₀.since w₁) :
    [Entry.began .revert, Entry.began .cleanup].Sublist (w₀.since w') := by
  rw [h.since_eq hgrown]
  exact (List.singleton_sublist.mpr hreverts).append
    (List.Sublist.cons_cons _ (List.nil_sublist _))

/-- The disks that an attempt has left were intact up to the cleanup; if the files
were as before when it began, they were so from there on. -/
theorem intact_of_unchanged
    (hintact : ∀ e ∈ w₀.since w₁, ∀ disk, e.disk? = some disk → Intact prior (p.contents disk))
    (hunchanged : Unchanged prior (p.contents w₁.disk)) {e : Entry} (he : e ∈ w₀.since w')
    {disk : Disk} (hdisk : e.disk? = some disk) : Intact prior (p.contents disk) := by
  rw [h.since_eq hgrown, List.mem_append, List.mem_cons] at he
  rcases he with he | rfl | he
  · exact hintact e he disk hdisk
  · cases hdisk
  · rcases h.shows e he with htalk | ⟨disk', hdisk', hshows⟩
    · rw [htalk.disk?_eq] at hdisk
      cases hdisk
    · obtain rfl : disk' = disk := by simpa [hdisk] using hdisk'.symm
      exact Unchanged.intact fun f => (hshows f).trans (hunchanged f)

end FilePaths.Aftermath

/-! ### Ends -/

namespace FilePaths

/-- Both current files are as before; or the host has enriched one candidate, and each
of them is as before or holds what the candidate wants there. -/
def Settled (p : FilePaths) (raw : Bytes) (w w' : World σ) : Prop :=
  Unchanged (p.contents w.disk) (p.contents w'.disk) ∨
    ∃ rendered, renderings (w.since w') = [rendered] ∧
      ∀ f, p.contents w'.disk (.current f) = p.contents w.disk (.current f) ∨
        p.contents w'.disk (.current f) = p.wanted rendered raw (.current f)

/-- Both current files hold the one candidate that the host has enriched. -/
def Replaced (p : FilePaths) (raw : Bytes) (w w' : World σ) : Prop :=
  ∃ rendered, renderings (w.since w') = [rendered] ∧
    ∀ f, p.contents w'.disk (.current f) = p.wanted rendered raw (.current f)

/-- Each disk that the entries show still has the files that were there before, in
their places or in the backups. -/
def Preserved (p : FilePaths) (w : World σ) (es : List Entry) : Prop :=
  ∀ e ∈ es, ∀ disk, e.disk? = some disk → Intact (p.contents w.disk) (p.contents disk)

/-- Both current files are as before, and every disk in between was intact. -/
def Restored (p : FilePaths) (w w' : World σ) : Prop :=
  Unchanged (p.contents w.disk) (p.contents w'.disk) ∧ p.Preserved w (w.since w')

end FilePaths

/-- What was done until the closing cleanup began. -/
def World.untilCleanup (w w' : World σ) : List Entry :=
  (w.since w').takeWhile fun e => !e.beginsCleanup

/-- How the files stand at the end of an attempt, whatever its end. -/
structure FilePaths.Ended (p : FilePaths) (raw : Bytes) (w w' : World σ) : Prop where
  settled : p.Settled raw w w'
  preserved : p.Preserved w (w.untilCleanup w')
  unpersisted : Entry.began .persist ∉ w.since w' → p.Restored w w'
  reverted : Reverted (w.untilCleanup w') → p.Restored w w'

theorem Unopened.restored (h : Unopened p w w') : p.Restored w w' :=
  ⟨h.shows, h.chronicle.intact⟩

theorem Unopened.ended (h : Unopened p w w') (raw : Bytes) : p.Ended raw w w' where
  settled := .inl h.shows
  preserved e he := h.chronicle.intact e ((List.takeWhile_sublist _).subset he)
  unpersisted _ := h.restored
  reverted _ := h.restored

namespace Safe

/-- An attempt that is left before its transaction has begun. -/
theorem ended_open (h : Safe p w raw rendered j w') : p.Ended raw w w' where
  settled := .inr ⟨rendered, h.chronicle.rendered, h.shows.either⟩
  preserved e he := h.chronicle.intact e ((List.takeWhile_sublist _).subset he)
  unpersisted hbegan := ⟨h.untouched hbegan, h.chronicle.intact⟩
  reverted hreverted := by
    have hall : w.untilCleanup w' = w.since w' := List.takeWhile_eq_self_iff.mpr fun e he => by
      simpa using fun hcleanup => h.chronicle.opened (Entry.beginsCleanup_iff.mp hcleanup ▸ he)
    rw [hall] at hreverted
    exact ⟨h.reverted hreverted, h.chronicle.intact⟩

variable (h : Safe p w raw rendered j w₁) (hafter : p.Aftermath view w₁ w')

include h hafter

theorem untilCleanup_eq : w.untilCleanup w' = w.since w₁ :=
  hafter.takeWhile_eq h.chronicle.grown h.chronicle.opened

theorem renderings_eq : renderings (w.since w') = [rendered] :=
  (hafter.renderings_eq h.chronicle.grown).trans h.chronicle.rendered

theorem restored (hunchanged : Unchanged (p.contents w.disk) (p.contents w₁.disk)) :
    p.Restored w w' :=
  ⟨fun f => (hafter.contents f).trans (hunchanged f), fun _ he _ hdisk =>
    hafter.intact_of_unchanged h.chronicle.grown h.chronicle.intact hunchanged he hdisk⟩

/-- An attempt whose transaction has ended. -/
theorem ended : p.Ended raw w w' where
  settled := by
    refine .inr ⟨rendered, h.renderings_eq hafter, fun f => ?_⟩
    rw [hafter.contents f]
    exact h.shows.either f
  preserved := by
    rw [h.untilCleanup_eq hafter]
    exact h.chronicle.intact
  unpersisted hbegan := by
    rw [hafter.began_iff h.chronicle.grown (by simp)] at hbegan
    exact h.restored hafter (h.untouched hbegan)
  reverted hreverted := by
    rw [h.untilCleanup_eq hafter] at hreverted
    exact h.restored hafter (h.reverted hreverted)

/-- An attempt whose candidate is running has started it before the cleanup. -/
theorem replaced (hj : j = .running) : p.Replaced raw w w' ∧
    Entry.answered .startProcessing (.ok ()) ∈ w.untilCleanup w' := by
  subst hj
  refine ⟨⟨rendered, h.renderings_eq hafter, fun f => (hafter.contents f).trans (h.shows f)⟩, ?_⟩
  rw [h.untilCleanup_eq hafter]
  exact h.started rfl

end Safe

/-! ### Reports -/

/-- The report says that the previous files are in their places. -/
def UpdateReport.KeepsFiles (r : UpdateReport) : Prop :=
  r.state = .rejected ∨ r.state = .reverted ∨
    r.state = .degradedNoReload ∧ r.failureKind = some .revertReloadFailure

theorem Juncture.Concludes.eq_running (h : j.Concludes .running kind failed) : j = .running := by
  cases j <;> simp [Juncture.Concludes] at h ⊢

/-- Where an attempt ends with such a report, the current files are as before. -/
theorem Juncture.Concludes.unchanged {report : UpdateReport}
    (h : j.Concludes report.state report.failureKind failed) (hreport : report.KeepsFiles)
    (hshows : j.Shows prior wanted c) : Unchanged prior c := by
  rw [UpdateReport.KeepsFiles] at hreport
  cases j with
  | restored phase => exact hshows
  | reloaded phase => exact hshows
  | unreloaded phase => exact hshows
  | running =>
    rw [h.1] at hreport
    simp at hreport
  | unrestored phase =>
    rw [h.1, h.2.1] at hreport
    simp at hreport
  | _ => exact h.elim

section

variable {link : Link σ} {hp : plan.files.Separate}
  {hlink : link.Sparing plan.files view cuts rough} {phase : Phase} {report : UpdateReport}

theorem ended_of_left (h : (safekeeping hp hlink w raw).Left rough phase w') :
    plan.files.Ended raw w w' := by
  rcases h with h | ⟨-, rendered, h⟩ | ⟨rendered, j, ⟨w₁, hw₁, hafter⟩, -⟩
  · exact Unopened.ended h raw
  · exact Safe.ended_open h
  · exact Safe.ended hw₁ hafter

theorem ended_of_told
    (h : (safekeeping hp hlink w raw).Told report.state report.failureKind failed w') :
    plan.files.Ended raw w w' ∧
      (report.state = .running → plan.files.Replaced raw w w' ∧
        Entry.answered .startProcessing (.ok ()) ∈ w.untilCleanup w') ∧
      (report.KeepsFiles → plan.files.Restored w w') := by
  rcases h with ⟨hstate, -, -, h⟩ | ⟨rendered, j, ⟨w₁, hw₁, hafter⟩, hj⟩
  · refine ⟨Unopened.ended h raw, fun hrunning => ?_, fun _ => Unopened.restored h⟩
    rw [hstate] at hrunning
    cases hrunning
  · refine ⟨Safe.ended hw₁ hafter, fun hrunning => ?_, fun hkeeps => ?_⟩
    · rw [hrunning] at hj
      exact Safe.replaced hw₁ hafter hj.eq_running
    · exact Safe.restored hw₁ hafter (hj.unchanged hkeeps hw₁.shows)

end

/-! ### Any host that spares the files -/

namespace Updater

variable {h : Host σ} {file directory : Path} {backupSuffix rawExtension : String}

/-- However an attempt inside a sparing host ends, its files have ended, and its
report says what they hold. -/
theorem ends_ended (hderive : FilePaths.derive file directory backupSuffix rawExtension =
      .ok plan.files) (hdistinct : plan.files.all.Nodup) (hspares : h.Spares plan.files)
    (hfree : w.desk.engaged = false) (depth : Nat) (raw : Bytes) :
    (apply (h.link (console plan) depth) plan raw).Ends w
      (fun report w' => plan.files.Ended raw w w' ∧
        (report.state = .running → plan.files.Replaced raw w w' ∧
          Entry.answered .startProcessing (.ok ()) ∈ w.untilCleanup w') ∧
        (report.KeepsFiles → plan.files.Restored w w'))
      (fun _ w' => plan.files.Ended raw w w') := by
  have hp := FilePaths.separate_of_derive hderive hdistinct
  have hlink : (h.link (console plan) depth).Sparing plan.files (fun _ => ()) True True :=
    hspares.sparing_link h.raises_any plan depth
      ⟨fun _ _ _ _ => trivial, fun _ _ _ => trivial, fun _ _ _ _ => trivial, id⟩
  refine ((safekeeping hp hlink w raw).ends_apply hp hlink.manners hfree
    (.start plan.files w)).mono ?_ ?_
  · rintro report w' (htold | ⟨hstate, hkind, phase, -, hleft⟩)
    · exact ended_of_told htold
    · refine ⟨ended_of_left hleft, fun hrunning => ?_, fun hkeeps => ?_⟩
      · rw [hstate] at hrunning
        cases hrunning
      · rw [UpdateReport.KeepsFiles, hstate, hkind] at hkeeps
        simp at hkeeps
  · rintro e w' ⟨-, phase, hleft⟩
    exact ended_of_left hleft

/-- Whichever accesses are refused and whatever the host raises, an attempt leaves
each current file as it was or with the candidate.  If it reports that the candidate
is running, both hold the candidate; if it reports a rejection, a return to the
previous configuration or a failure to reload it, both are as before. -/
theorem ends_settled (hderive : FilePaths.derive file directory backupSuffix rawExtension =
      .ok plan.files) (hdistinct : plan.files.all.Nodup) (hspares : h.Spares plan.files)
    (hfree : w.desk.engaged = false) (depth : Nat) (raw : Bytes) :
    (apply (h.link (console plan) depth) plan raw).Ends w
      (fun report w' => plan.files.Settled raw w w' ∧
        (report.state = .running → plan.files.Replaced raw w w') ∧
        (report.KeepsFiles → Unchanged (plan.files.contents w.disk) (plan.files.contents w'.disk)))
      (fun _ w' => plan.files.Settled raw w w') := by
  refine (ends_ended hderive hdistinct hspares hfree depth raw).mono ?_ ?_
  · rintro report w' ⟨hended, hrunning, hkeeps⟩
    exact ⟨hended.settled, fun hstate => (hrunning hstate).1, fun h => (hkeeps h).1⟩
  · exact fun _ _ hended => hended.settled

attribute [local irreducible] Act.Ends in
/-- A configuration of one byte is replaced, and nothing goes wrong. -/
theorem ends_settled_sample :
    (apply ((Host.plain (fun _ => none) fun _ _ => none).link (console Sample.plan) 0) Sample.plan
      [2]).Ends Sample.world
      (fun report w' => Sample.plan.files.Settled [2] Sample.world w' ∧
        (report.state = .running → Sample.plan.files.Replaced [2] Sample.world w') ∧
        (report.KeepsFiles → Unchanged (Sample.plan.files.contents Sample.world.disk)
          (Sample.plan.files.contents w'.disk)))
      (fun _ w' => Sample.plan.files.Settled [2] Sample.world w') :=
  ends_settled Sample.derive_eq Sample.nodup_files (Host.plain_spares _) rfl 0 [2]

/-- Until the closing cleanup begins, and so while the candidate is not yet running,
every disk that an attempt leaves still has the files that were there before, in
their places or in the backups.  From there on both files stay in their places if
the report says so, if nothing had been persisted, or if a revert has not failed; in
any other case each of them is as it was or holds the candidate. -/
theorem ends_preserved (hderive : FilePaths.derive file directory backupSuffix rawExtension =
      .ok plan.files) (hdistinct : plan.files.all.Nodup) (hspares : h.Spares plan.files)
    (hfree : w.desk.engaged = false) (depth : Nat) (raw : Bytes) :
    (apply (h.link (console plan) depth) plan raw).Ends w
      (fun report w' => plan.files.Preserved w (w.untilCleanup w') ∧
        (report.state = .running →
          Entry.answered .startProcessing (.ok ()) ∈ w.untilCleanup w') ∧
        (report.KeepsFiles ∨ Entry.began .persist ∉ w.since w' ∨ Reverted (w.untilCleanup w') →
          plan.files.Restored w w') ∧
        plan.files.Settled raw w w')
      (fun _ w' => plan.files.Preserved w (w.untilCleanup w') ∧
        (Entry.began .persist ∉ w.since w' ∨ Reverted (w.untilCleanup w') →
          plan.files.Restored w w') ∧
        plan.files.Settled raw w w') := by
  refine (ends_ended hderive hdistinct hspares hfree depth raw).mono ?_ ?_
  · rintro report w' ⟨hended, hrunning, hkeeps⟩
    refine ⟨hended.preserved, fun hstate => (hrunning hstate).2, ?_, hended.settled⟩
    rintro (hreport | hbegan | hreverted)
    · exact hkeeps hreport
    · exact hended.unpersisted hbegan
    · exact hended.reverted hreverted
  · exact fun _ _ hended =>
      ⟨hended.preserved, fun h => h.elim hended.unpersisted hended.reverted, hended.settled⟩

attribute [local irreducible] Act.Ends in
/-- A refused replacement of the raw file, and a refused restore after it. -/
theorem ends_preserved_sample :
    (apply (Sample.unrestoring.link (console Sample.plan) 0) Sample.plan [2]).Ends Sample.world
      (fun report w' => Sample.plan.files.Preserved Sample.world (Sample.world.untilCleanup w') ∧
        (report.state = .running →
          Entry.answered .startProcessing (.ok ()) ∈ Sample.world.untilCleanup w') ∧
        (report.KeepsFiles ∨ Entry.began .persist ∉ Sample.world.since w' ∨
            Reverted (Sample.world.untilCleanup w') →
          Sample.plan.files.Restored Sample.world w') ∧
        Sample.plan.files.Settled [2] Sample.world w')
      (fun _ w' => Sample.plan.files.Preserved Sample.world (Sample.world.untilCleanup w') ∧
        (Entry.began .persist ∉ Sample.world.since w' ∨
            Reverted (Sample.world.untilCleanup w') →
          Sample.plan.files.Restored Sample.world w') ∧
        Sample.plan.files.Settled [2] Sample.world w') :=
  ends_preserved Sample.derive_eq Sample.nodup_files (Host.plain_spares _) rfl 0 [2]

/-- The closing cleanup takes the backup of a file that could not be restored: what
was there before is then lost, and the candidate is not running. -/
theorem not_intact_unrestoring :
    Sample.unrestored.1.toOption.map (fun report => report.state) = some .degradedNoReload ∧
      ¬ Intact (Sample.plan.files.contents Sample.world.disk)
        (Sample.plan.files.contents Sample.unrestored.2.disk) := by
  refine ⟨by decide +kernel, fun hintact => ?_⟩
  have hprior : Sample.plan.files.contents Sample.world.disk (.current .rendered) =
      some (.file [1]) := by decide +kernel
  have hcurrent : Sample.plan.files.contents Sample.unrestored.2.disk (.current .rendered) ≠
      some (.file [1]) := by decide +kernel
  have hbackup : Sample.plan.files.contents Sample.unrestored.2.disk (.backup .rendered) ≠
      some (.file [1]) := by decide +kernel
  exact (hintact .rendered [1] hprior).elim hcurrent hbackup

end Updater

/-! ### Without failing accesses -/

/-- The files have been taken back before the cleanup, and are as before. -/
def FilePaths.TakenBack (p : FilePaths) (w w' : World σ) : Prop :=
  [Entry.began .revert, Entry.began .cleanup].Sublist (w.since w') ∧
    Unchanged (p.contents w.disk) (p.contents w'.disk)

/-- Whether a request closes a span, or marks it with a fault. -/
def Request.leavesSpan : Request → Bool
  | .closeSpan _ | .recordFault .. => true
  | _ => false

theorem Phase.failureKind?_ne_unexpected (phase : Phase) :
    phase.failureKind? ≠ some .unexpected := by
  cases phase <;> simp [Phase.failureKind?]

namespace Safe

variable (h : Safe p w raw rendered j w₁) (hafter : p.Aftermath view w₁ w')

include h hafter

theorem takenBack (hreverts : j.reverts? = some true)
    (hunchanged : Unchanged (p.contents w.disk) (p.contents w₁.disk)) : p.TakenBack w w' :=
  ⟨hafter.sublist_of_reverts h.chronicle.grown ((h.reverts true hreverts).mpr rfl),
    fun f => (hafter.contents f).trans (hunchanged f)⟩

theorem not_takenBack (hreverts : j.reverts? = some false) : ¬ p.TakenBack w w' := by
  rintro ⟨hsublist, -⟩
  have hbegan : Entry.began .revert ∈ w.since w' := hsublist.subset (by simp)
  rw [hafter.began_iff h.chronicle.grown (by simp), h.reverts false hreverts] at hbegan
  cases hbegan

/-- A reported end that is not a running candidate has been taken back. -/
theorem takenBack_of_concludes (hfails : ¬ w.Fails w') (hstate : state ≠ .running)
    (hj : j.Concludes state kind failed) : p.TakenBack w w' ∧ kind ≠ some .unexpected := by
  cases j with
  | restored phase =>
    refine ⟨h.takenBack hafter rfl h.shows, ?_⟩
    rw [hj.2.1]
    exact phase.failureKind?_ne_unexpected
  | reloaded phase =>
    refine ⟨h.takenBack hafter rfl h.shows, ?_⟩
    rw [hj.2.1]
    exact phase.failureKind?_ne_unexpected
  | unreloaded phase =>
    refine ⟨h.takenBack hafter rfl h.shows, ?_⟩
    rw [hj.2.1]
    simp
  | running => exact absurd hj.1 hstate
  | unrestored phase =>
    -- a restore fails only with an access
    have hgrown := (World.grown_enter w₁ (.began .cleanup)).trans hafter.grown
    exact absurd ((h.fails rfl).later h.chronicle.grown hgrown) hfails
  | _ => exact hj.elim

/-- An attempt that was left early in a phase has been taken back if that phase was
the reload of the restored files. -/
theorem takenBack_iff_of_next {phase : Phase} (hnext : j.next? = some phase) :
    p.TakenBack w w' ↔ phase = .reloadingReverted := by
  cases j with
  | restored failed =>
    refine iff_of_true (h.takenBack hafter rfl h.shows) ?_
    rw [Juncture.next?] at hnext
    split at hnext
    · simpa using hnext.symm
    · cases hnext
  | rendered | backedUp | persisted | drained | loaded | broken =>
    -- from there the next phase is not the reload, and no revert has begun
    refine iff_of_false (h.not_takenBack hafter rfl) ?_
    rintro rfl
    simp [Juncture.next?] at hnext
  | _ => cases hnext

end Safe

namespace Updater

variable {h : Host σ} {file directory : Path} {backupSuffix rawExtension : String}

/-- Where no access fails and the host raises nothing but ordinary faults, and none
when a span is closed or marked, an attempt with an enriched candidate that does not
run is taken back, unless an ordinary fault has left one of its phases from outside
its action; then it is taken back only if that phase is the reload of the restored
files. -/
theorem ends_takenBack (hderive : FilePaths.derive file directory backupSuffix rawExtension =
      .ok plan.files) (hdistinct : plan.files.all.Nodup) (hspares : h.Spares plan.files)
    (hraises : h.Raises fun r e => e.interrupts = false ∧ r.leavesSpan = false)
    (hfree : w.desk.engaged = false) (depth : Nat) (raw : Bytes) :
    (apply (h.link (console plan) depth) plan raw).Ends w
      (fun report w' => ¬ w.Fails w' → renderings (w.since w') ≠ [] → report.state ≠ .running →
        (plan.files.TakenBack w w' ↔
          (report.failureKind = some .unexpected →
            report.failedPhase = some .reloadingReverted)))
      (fun _ _ => False) := by
  have hp := FilePaths.separate_of_derive hderive hdistinct
  have hlink : (h.link (console plan) depth).Sparing plan.files (fun _ => ()) False False :=
    hspares.sparing_link hraises plan depth
      ⟨fun _ _ he => Fault.ordinary he.1, fun _ _ he => by simp [Request.leavesSpan] at he,
        fun _ _ _ he => by simp [Request.leavesSpan] at he, id⟩
  refine ((safekeeping hp hlink w raw).ends_apply hp hlink.manners hfree
    (.start plan.files w)).mono ?_ fun _ _ he => he.1.2
  have hopened : ∀ {w'}, Unopened plan.files w w' → renderings (w.since w') = [] := fun h =>
    h.chronicle.rendered
  rintro report w' (htold | ⟨hstate, hkind, phase, hfailed, hleft⟩) hfails hrendered hrunning
  · rcases htold with ⟨-, -, -, hw'⟩ | ⟨rendered, j, ⟨w₁, hw₁, hafter⟩, hj⟩
    · exact absurd (hopened hw') hrendered
    · obtain ⟨htaken, hkind⟩ := Safe.takenBack_of_concludes hw₁ hafter hfails hrunning hj
      exact iff_of_true htaken fun hunexpected => absurd hunexpected hkind
  · rcases hleft with hw' | ⟨hrough, -⟩ | ⟨rendered, j, ⟨w₁, hw₁, hafter⟩, hnext | hrough⟩
    · exact absurd (hopened hw') hrendered
    · exact hrough.elim
    · rw [Safe.takenBack_iff_of_next hw₁ hafter hnext, hkind, hfailed]
      simp
    · exact hrough.elim

attribute [local irreducible] Act.Ends in
/-- A span that cannot be opened, for a phase after the files have been replaced. -/
theorem ends_takenBack_sample :
    (apply (Sample.spanless.link (console Sample.traced) 0) Sample.traced [2]).Ends Sample.world
      (fun report w' => ¬ Sample.world.Fails w' → renderings (Sample.world.since w') ≠ [] →
        report.state ≠ .running →
        (Sample.traced.files.TakenBack Sample.world w' ↔
          (report.failureKind = some .unexpected →
            report.failedPhase = some .reloadingReverted)))
      (fun _ _ => False) := by
  refine ends_takenBack Sample.derive_eq Sample.nodup_files (Host.plain_spares _) ?_ rfl 0 [2]
  refine Host.plain_raises fun r e he => ?_
  cases r with
  | openSpan name =>
    obtain ⟨-, rfl⟩ : name = "phase:draining" ∧ .raised "RuntimeError" "" = e := by
      simpa using he
    exact ⟨rfl, rfl⟩
  | _ => cases he

end Updater
end HotSwap
