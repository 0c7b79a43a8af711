/-
Operations on the files that are done twice.

A backup, a replacement, a revert and a cleanup each leave the files so that the same operation,
done once more, changes nothing and ends as before.  This holds for every disk, for every state of
the books, and also where an operation stops halfway, as long as only the disk refuses.

* `Act.Repeats` — an act that, done again, ends as before and changes nothing;
* `FileSet.reverted`, `FileSet.emptied`, `FileSet.overwritten` — what becomes of the four files, as
  functions that change nothing when they are applied again;
* `FileSet.takes_revert`, `FileSet.takes_cleanup`, `FileSet.takes_persist` — the operations are
  these functions;
* `FileSet.exists_takes_backup_again` — a backup, which removes what it has made before it makes it
  again;
* `FileSet.operations_repeat` — the four operations, whatever is on the disk.

Design notes: where the directory of the files is not there, only a replacement changes anything,
and that by making the directory.  If this fails, it is not the first attempt that fails twice: the
directories above have come by then (`Disk.makeDirectories_again`).
-/
import HotSwap.Proofs.Certainties
import HotSwap.Proofs.Collisions
import HotSwap.Proofs.Undoing

namespace HotSwap

open Act

variable {σ α : Type} {link : Link σ} {p : FilePaths} {w : World σ} {f : Form}
  {b : Bookkeeping} {c : Contents} {d d' : Disk} {Φ Ψ : Holding}

/-- The act, done again where it has ended, ends in the same way and changes neither the books nor
the disk. -/
structure Act.Repeats (a : Act σ α) (w : World σ) : Prop where
  result : (a.run (a.run w).2).1 = (a.run w).1
  books : (a.run (a.run w).2).2.books = (a.run w).2.books
  disk : ∀ r, (a.run (a.run w).2).2.disk.node? r = (a.run w).2.disk.node? r

/-- What ends in one way from where it began, and in the same way from where it ended, may be done
again. -/
theorem Act.Takes.repeats {a : Act σ α} {r : Except Fault α} (h : a.Takes link Φ r Ψ)
    (hagain : a.Takes link Ψ r Ψ) (hΨ : Ψ.Fixed) (hw : w.Holds link Φ) : a.Repeats w := by
  have hrun : ∀ {Φ w}, a.Takes link Φ r Ψ → w.Holds link Φ →
      r = (a.run w).1 ∧ (a.run w).2.Holds link Ψ := fun h hw =>
    Ends.run (Q := fun r' w' => r = r' ∧ w'.Holds link Ψ) (h _ hw)
  obtain ⟨hresult, hw'⟩ := hrun h hw
  obtain ⟨hresult', hw''⟩ := hrun hagain hw'
  obtain ⟨hbooks, hdisk⟩ := hΨ hw'.2 hw''.2
  exact ⟨hresult'.symm.trans hresult, hbooks, hdisk⟩

/-! ### Operations, where the directory of the files is there -/

namespace FileSet

open FilePaths

/-- What a restore says, and what it leaves at the path of the active file. -/
def restoration (p : FilePaths) (b : Bookkeeping) (f : Form) (backup active : Option Node) :
    Bool × Option Node :=
  if b.copied.contains (p.path (.current f)) then
    match backup.bind Node.content? with
    | some content => ((yields active).isSome, yielded active (some (.file content)))
    | none => (false, active)
  else if p.path (.current f) == p.raw && b.rawWasAbsent == some true then
    ((yields active).isSome, yielded active none)
  else (true, active)

theorem restoration_again (p : FilePaths) (b : Bookkeeping) (f : Form)
    (backup active : Option Node) :
    restoration p b f backup (restoration p b f backup active).2 =
      restoration p b f backup active := by
  unfold restoration
  split
  · cases backup.bind Node.content? with
    | none => rfl
    | some content =>
      dsimp only
      rw [yields_yielded _ (by simp), yielded_yielded]
  · split
    · dsimp only
      rw [yields_yielded _ (by simp), yielded_yielded]
    · rfl

/-- The files after a revert. -/
def reverted (p : FilePaths) (b : Bookkeeping) (c : Contents) : Contents
  | .current f => (restoration p b f (c (.backup f)) (c (.current f))).2
  | .backup f => c (.backup f)

/-- Whether a revert says that it succeeded. -/
def reverts (p : FilePaths) (b : Bookkeeping) (c : Contents) : Bool :=
  (restoration p b .rendered (c (.backup .rendered)) (c (.current .rendered))).1 &&
    (restoration p b .raw (c (.backup .raw)) (c (.current .raw))).1

theorem reverted_again (p : FilePaths) (b : Bookkeeping) (c : Contents) :
    reverted p b (reverted p b c) = reverted p b c := by
  funext s
  cases s with
  | current f => rw [reverted, reverted, reverted, restoration_again]
  | backup f => rfl

theorem reverts_again (p : FilePaths) (b : Bookkeeping) (c : Contents) :
    reverts p b (reverted p b c) = reverts p b c := by
  rw [reverts, reverted, reverted, reverted, reverted, restoration_again, restoration_again]
  rfl

/-- The files after a cleanup. -/
def emptied (c : Contents) : Contents
  | .current f => c (.current f)
  | .backup f => yielded (c (.backup f)) none

theorem emptied_again (c : Contents) : emptied (emptied c) = emptied c := by
  funext s
  cases s with
  | current f => rfl
  | backup f => exact yielded_yielded _

/-- The files after one of each form was to become `m`, the rendered one first; a directory in the
way ends this. -/
def overwritten (slot : Form → Slot) (m : Form → Option Node) (c : Contents) : Contents :=
  if c (slot .rendered) = some .directory then c
  else Function.update (Function.update c (slot .rendered) (m .rendered)) (slot .raw)
    (yielded (c (slot .raw)) (m .raw))

/-- The form at which a directory is in the way. -/
def obstacle (slot : Form → Slot) (c : Contents) : Option Form :=
  if c (slot .rendered) = some .directory then some .rendered
  else if c (slot .raw) = some .directory then some .raw
  else none

theorem obstacle_eq_none_iff {slot : Form → Slot} :
    obstacle slot c = none ↔ ∀ f, c (slot f) ≠ some .directory := by
  rw [obstacle]
  constructor
  · intro h
    split at h
    · cases h
    · next hrendered =>
      split at h
      · cases h
      · next hraw =>
        rintro (_ | _)
        · exact hrendered
        · exact hraw
  · intro h
    rw [if_neg (h .rendered), if_neg (h .raw)]

theorem overwritten_of_free {slot : Form → Slot} (m : Form → Option Node)
    (h : ∀ f, c (slot f) ≠ some .directory) : overwritten slot m c =
      Function.update (Function.update c (slot .rendered) (m .rendered)) (slot .raw) (m .raw) := by
  rw [overwritten, if_neg (h .rendered), yielded, if_neg (h .raw)]

section

variable {slot : Form → Slot} {m : Form → Option Node} (hslot : slot.Injective)
  (hm : ∀ f, m f ≠ some .directory)

include hslot hm

theorem obstacle_again (c : Contents) :
    obstacle slot (overwritten slot m c) = obstacle slot c := by
  have hne : slot .rendered ≠ slot .raw := hslot.ne (by simp)
  rw [overwritten]
  split
  · rfl
  · next hfree =>
    rw [obstacle, obstacle, Function.update_of_ne hne, Function.update_self, Function.update_self,
      if_neg (hm .rendered), if_neg hfree]
    by_cases hraw : c (slot .raw) = some .directory
    · rw [yielded, if_pos hraw]
    · rw [yielded, if_neg hraw, if_neg (hm .raw), if_neg hraw]

theorem overwritten_again (c : Contents) :
    overwritten slot m (overwritten slot m c) = overwritten slot m c := by
  have hne : slot .rendered ≠ slot .raw := hslot.ne (by simp)
  by_cases hrendered : c (slot .rendered) = some .directory
  · rw [overwritten, overwritten, if_pos hrendered, if_pos hrendered]
  · have hfirst : overwritten slot m c (slot .rendered) = m .rendered := by
      rw [overwritten, if_neg hrendered, Function.update_of_ne hne, Function.update_self]
    have hsecond : overwritten slot m c (slot .raw) = yielded (c (slot .raw)) (m .raw) := by
      rw [overwritten, if_neg hrendered, Function.update_self]
    rw [overwritten, hfirst, if_neg (hm .rendered), hsecond, yielded_yielded, ← hsecond, ← hfirst,
      Function.update_eq_self, Function.update_eq_self]

end

/-- What replacing the files of both forms comes to. -/
def replacement (p : FilePaths) (problem : FileProblem) (slot : Form → Slot) (c : Contents) :
    Except Fault Unit :=
  (obstacle slot c).elim (.ok ()) fun f => .error (.configFile problem (p.path (slot f)))

/-- A step for either form, each of which ends with a fault if a directory is in the way. -/
theorem takes_both {first second rest : Act σ Unit} {problem : FileProblem} {slot : Form → Slot}
    {m : Form → Option Node} (hslot : slot.Injective)
    (hfirst : first.Takes link Φ
      ((yields (c (slot .rendered))).elim
        (.error (.configFile problem (p.path (slot .rendered)))) .ok)
      (p.Stands d b (Function.update c (slot .rendered)
        (yielded (c (slot .rendered)) (m .rendered)))))
    (hsecond : ∀ c, second.Takes link (p.Stands d b c)
      ((yields (c (slot .raw))).elim (.error (.configFile problem (p.path (slot .raw)))) .ok)
      (p.Stands d b (Function.update c (slot .raw) (yielded (c (slot .raw)) (m .raw)))))
    (hrest : ∀ c, rest.Takes link (p.Stands d b c) (.ok ()) (p.Stands d b c)) :
    (do first; second; rest).Takes link Φ (replacement p problem slot c)
      (p.Stands d b (overwritten slot m c)) := by
  rw [replacement, obstacle, overwritten]
  by_cases hfree : c (slot .rendered) = some .directory
  · rw [yields, if_pos hfree, yielded, if_pos hfree, Function.update_eq_self] at hfirst
    rw [if_pos hfree, if_pos hfree]
    exact hfirst.bind_error
  · rw [yields, if_neg hfree, yielded, if_neg hfree] at hfirst
    rw [if_neg hfree, if_neg hfree]
    refine hfirst.bind ?_
    -- the first step has left the other file as it was
    have hnext := hsecond (Function.update c (slot .rendered) (m .rendered))
    rw [Function.update_of_ne (hslot.ne (by simp)), yields] at hnext
    split at hnext
    · next hblocked =>
      rw [if_pos hblocked]
      exact hnext.bind_error
    · next hfree' =>
      rw [if_neg hfree']
      exact hnext.bind (hrest _)

/-- Removes a backup that an earlier attempt left behind. -/
def removeOld (link : Link σ) (path : Path) : Act σ Unit := do
  if ← removeLogged link path then return () else Act.raise (.configFile .staleBackup path)

theorem removeStale_cons (path : Path) (rest : List Path) :
    removeStale link (path :: rest) = (do removeOld link path; removeStale link rest) := by
  rw [removeStale]
  refine funext fun w => run_eq_of_ends fun P E h => ?_
  rw [removeOld, ends_bind, ends_bind] at h
  rw [ends_bind]
  refine h.mono (fun removed w' h' => ?_) fun _ _ he => he
  cases removed with
  | true => exact h'
  | false => exact h'

theorem takes_removeOld {path : Path} {x? : Option Unit}
    (h : (link.discardFile path).Meets link Φ x? Ψ) :
    (removeOld link path).Takes link Φ (x?.elim (.error (.configFile .staleBackup path)) .ok)
      Ψ := by
  refine (takes_removeLogged h).bind ?_
  cases x? with
  | some x => exact takes_pure x
  | none => exact takes_raise _

section

variable (link) (hp : p.Separate) (hbeside : p.Beside)

include hp hbeside

theorem takes_restore (f : Form) :
    (restore link p (p.path (.current f)) (p.path (.backup f))).Takes link (p.Stands d b c)
      (.ok (restoration p b f (c (.backup f)) (c (.current f))).1)
      (p.Stands d b (Function.update c (.current f)
        (restoration p b f (c (.backup f)) (c (.current f))).2)) := by
  intro w hw
  rw [restore, ends_bind, ends_books, hw.2.books, restoration]
  split
  · have hread := meets_readFile link (d := d) (b := b) (c := c) (p := p) (.backup f)
    cases hbackup : (c (.backup f)).bind Node.content? with
    | none =>
      rw [hbackup] at hread
      rw [ends_bind, ends_rescue, Function.update_eq_self]
      refine (hread.bind_none w hw).mono (fun _ _ hx => by cases hx.1) ?_
      rintro _ w' ⟨⟨-, refusal, rfl⟩, hw'⟩
      exact ⟨rfl, hw'⟩
    | some content =>
      rw [hbackup] at hread
      have hwrite := (meets_write link (d := d) (b := b) (c := c) hp hbeside
        (.current f) content).strengthen Stands.rises
      rw [ends_bind, ends_rescue]
      refine (hread.bind hwrite w hw).mono ?_ ?_
      · rintro _ w' ⟨hx, hw'⟩
        exact ⟨by rw [hx]; rfl, hw'⟩
      · rintro _ w' ⟨⟨hx, refusal, rfl⟩, hw'⟩
        exact ⟨by rw [hx]; rfl, hw'⟩
  · split
    · exact takes_removeLogged (meets_discardFile link hp hbeside (.current f)) w hw
    · rw [Function.update_eq_self]
      exact ⟨rfl, hw⟩

theorem takes_revert :
    (revert link p).Takes link (p.Stands d b c) (.ok (reverts p b c))
      (p.Stands d b (reverted p b c)) := by
  have hrendered := takes_restore link (d := d) (b := b) (c := c) hp hbeside .rendered
  have hraw := takes_restore link (d := d) (b := b)
    (c := Function.update c (.current .rendered)
      (restoration p b .rendered (c (.backup .rendered)) (c (.current .rendered))).2)
    hp hbeside .raw
  rw [Function.update_of_ne (by simp), Function.update_of_ne (by simp)] at hraw
  have hreverted : reverted p b c = Function.update (Function.update c (.current .rendered)
      (restoration p b .rendered (c (.backup .rendered)) (c (.current .rendered))).2)
      (.current .raw) (restoration p b .raw (c (.backup .raw)) (c (.current .raw))).2 := by
    funext s
    rcases s with (_ | _) | _
    · rw [Function.update_of_ne (by simp), Function.update_self, reverted]
    · rw [Function.update_self, reverted]
    · rw [Function.update_of_ne (by simp), Function.update_of_ne (by simp), reverted]
  rw [hreverted]
  exact (takes_enter _).bind (hrendered.bind (hraw.bind (takes_pure _)))

theorem takes_cleanup :
    (cleanup link p).Takes link (p.Stands d b c) (.ok ()) (p.Stands d {} (emptied c)) := by
  have hrendered := takes_removeLogged (meets_discardFile link (d := d) (b := b) (c := c)
    hp hbeside (.backup .rendered))
  have hraw := takes_removeLogged (meets_discardFile link (d := d) (b := b)
    (c := Function.update c (.backup .rendered) (yielded (c (.backup .rendered)) none))
    hp hbeside (.backup .raw))
  rw [Function.update_of_ne (by simp)] at hraw
  have hemptied : emptied c = Function.update (Function.update c (.backup .rendered)
      (yielded (c (.backup .rendered)) none)) (.backup .raw) (yielded (c (.backup .raw)) none) := by
    funext s
    rcases s with _ | (_ | _)
    · rw [Function.update_of_ne (by simp), Function.update_of_ne (by simp), emptied]
    · rw [Function.update_of_ne (by simp), Function.update_self, emptied]
    · rw [Function.update_self, emptied]
  rw [hemptied]
  refine (takes_enter _).bind (hrendered.bind (hraw.bind (takes_changeBooks _ ?_)))
  exact fun h => ⟨rfl, h.directory, h.contents, h.confined⟩

theorem takes_persist (rendered raw : Bytes) :
    (persist link p rendered raw).Takes link (p.Rises d b c) (replacement p .persist .current c)
      (p.Stands d b (overwritten .current (fun f => p.wanted rendered raw (.current f)) c)) :=
  (takes_enter _).bind (takes_both (fun f g h => by simpa using h)
    (takes_explained _ _ (meets_write link hp hbeside (.current .rendered) (p.encode rendered)))
    (fun c => takes_explained _ _
      ((meets_write link hp hbeside (.current .raw) raw).strengthen Stands.rises))
    fun c => takes_say)

theorem takes_removeStale :
    (removeStale link p.backups).Takes link (p.Stands d b c) (replacement p .staleBackup .backup c)
      (p.Stands d b (overwritten .backup (fun _ => none) c)) := by
  rw [FilePaths.backups, removeStale_cons, removeStale_cons]
  exact takes_both (fun f g h => by simpa using h)
    (takes_removeOld (meets_discardFile link hp hbeside (.backup .rendered)))
    (fun c => takes_removeOld (meets_discardFile link hp hbeside (.backup .raw)))
    fun c => takes_pure ()

omit hp hbeside in
theorem takes_copy_unreadable (unreadable : FileProblem)
    (hfile : (c (.current f)).bind Node.content? = none) :
    (copy link p unreadable (p.path (.current f)) (p.path (.backup f))).Takes link
      (p.Stands d b c) (.error (.configFile unreadable (p.path (.current f))))
      (p.Stands d b c) := by
  have hread := meets_readFile link (d := d) (b := b) (c := c) (p := p) (.current f)
  rw [hfile] at hread
  exact (takes_explained unreadable _ hread).bind_error

theorem takes_copy (unreadable : FileProblem) {content : Bytes}
    (hfile : (c (.current f)).bind Node.content? = some content) (hbackup : c (.backup f) = none) :
    (copy link p unreadable (p.path (.current f)) (p.path (.backup f))).Takes link
      (p.Stands d b c) (.ok ())
      (p.Stands d { b with copied := p.path (.current f) :: b.copied }
        (Function.update c (.backup f) (some (.file content)))) := by
  have hread := meets_readFile link (d := d) (b := b) (c := c) (p := p) (.current f)
  have hwrite := (meets_write link (d := d) (b := b) (c := c) hp hbeside
    (.backup f) content).strengthen Stands.rises
  rw [hfile] at hread
  rw [hbackup] at hwrite
  refine (takes_explained _ _ hread).bind ((takes_explained _ _ hwrite).bind ?_)
  exact takes_changeBooks _ fun h => ⟨by rw [h.books], h.directory, h.contents, h.confined⟩

omit hp hbeside in
theorem takes_backupRaw_absent (hraw : (c (.current .raw)).bind Node.content? = none) :
    (backupRaw link p).Takes link (p.Stands d b c) (.ok ())
      (p.Stands d { b with rawWasAbsent := some true } c) := fun w hw => by
  have hfile : w.disk.isFile p.raw = false := by
    rw [show p.raw = p.path (.current .raw) from rfl, hw.2.isFile_eq, hraw]
    rfl
  have hnote : (Act.changeBooks fun b => { b with rawWasAbsent := some true } : Act σ Unit).Takes
      link (p.Stands d b c) (.ok ()) (p.Stands d { b with rawWasAbsent := some true } c) :=
    takes_changeBooks _ fun h => ⟨by rw [h.books], h.directory, h.contents, h.confined⟩
  rw [backupRaw, ends_bind, ends_look, hfile]
  exact (takes_say.bind hnote) w hw

theorem takes_backupRaw {content : Bytes}
    (hraw : (c (.current .raw)).bind Node.content? = some content)
    (hbackup : c (.backup .raw) = none) :
    (backupRaw link p).Takes link (p.Stands d b c) (.ok ())
      (p.Stands d { copied := p.raw :: b.copied, rawWasAbsent := some false }
        (Function.update c (.backup .raw) (some (.file content)))) := fun w hw => by
  have hfile : w.disk.isFile p.raw = true := by
    rw [show p.raw = p.path (.current .raw) from rfl, hw.2.isFile_eq, hraw]
    rfl
  have hcopy := takes_copy link (d := d) (b := b) hp hbeside .unreadableRaw hraw hbackup
  rw [backupRaw, ends_bind, ends_look, hfile]
  refine (hcopy.bind (takes_changeBooks _ ?_)) w hw
  exact fun h => ⟨by rw [h.books]; rfl, h.directory, h.contents, h.confined⟩

/-- Copies both files, as a backup does once the old backups are gone. -/
def copyBoth (link : Link σ) (p : FilePaths) : Act σ Unit := do
  copy link p .unreadableActive p.active p.backup
  backupRaw link p
  say .debug "Backed up flow configuration" [pathField "backup" p.backup]

/-- Where there are no backups, both files are copied as far as they can be read. -/
theorem exists_takes_copyBoth (hnone : ∀ f, c (.backup f) = none) :
    ∃ r b' c', (copyBoth link p).Takes link (p.Stands d {} c) r (p.Stands d b' c') ∧
      (∀ f, c' (.current f) = c (.current f)) ∧ ∀ f, c' (.backup f) ≠ some .directory := by
  cases hrendered : (c (.current .rendered)).bind Node.content? with
  | none =>
    exact ⟨_, _, c, (takes_copy_unreadable link .unreadableActive hrendered).bind_error,
      fun _ => rfl, by simp [hnone]⟩
  | some rendered =>
    have hcopy := takes_copy link (d := d) (b := {}) hp hbeside .unreadableActive hrendered
      (hnone .rendered)
    have hraw : Function.update c (.backup .rendered) (some (.file rendered)) (.current .raw) =
        c (.current .raw) := Function.update_of_ne (by simp) _ _
    have hbackup : Function.update c (.backup .rendered) (some (.file rendered)) (.backup .raw) =
        none := by rw [Function.update_of_ne (by simp), hnone]
    cases hcontent : (c (.current .raw)).bind Node.content? with
    | none =>
      rw [← hraw] at hcontent
      refine ⟨_, _, _, hcopy.bind ((takes_backupRaw_absent link hcontent).bind takes_say), ?_, ?_⟩
      · exact fun f => Function.update_of_ne (by simp) _ _
      · rintro (_ | _) <;> simp [hnone]
    | some raw =>
      rw [← hraw] at hcontent
      have hcopyRaw := takes_backupRaw link (d := d) (b := { copied := [p.active] }) hp hbeside
        hcontent hbackup
      refine ⟨_, _, _, hcopy.bind (hcopyRaw.bind takes_say), ?_, ?_⟩
      · exact fun f => by simp
      · rintro (_ | _) <;> simp

theorem takes_backup {r : Except Fault Unit} (hfree : obstacle .backup c = none)
    (h : (copyBoth link p).Takes link (p.Stands d {} (overwritten .backup (fun _ => none) c)) r Ψ) :
    (backup link p).Takes link (p.Stands d b c) r Ψ := by
  have hstale := takes_removeStale link (d := d) (b := {}) (c := c) hp hbeside
  rw [replacement, hfree] at hstale
  refine (takes_enter _).bind ((takes_changeBooks _ ?_).bind (hstale.bind h))
  exact fun h => ⟨rfl, h.directory, h.contents, h.confined⟩

theorem takes_backup_stale (hf : obstacle .backup c = some f) :
    (backup link p).Takes link (p.Stands d b c)
      (.error (.configFile .staleBackup (p.path (.backup f))))
      (p.Stands d {} (overwritten .backup (fun _ => none) c)) := by
  have hstale := takes_removeStale link (d := d) (b := {}) (c := c) hp hbeside
  rw [replacement, hf] at hstale
  refine (takes_enter _).bind ((takes_changeBooks _ ?_).bind hstale.bind_error)
  exact fun h => ⟨rfl, h.directory, h.contents, h.confined⟩

/-- A backup makes the same of what it has made. -/
theorem exists_takes_backup_again (c : Contents) :
    ∃ r b' c', (∀ b, (backup link p).Takes link (p.Stands d b c) r (p.Stands d b' c')) ∧
      (backup link p).Takes link (p.Stands d b' c') r (p.Stands d b' c') := by
  have hslot : Slot.backup.Injective := fun f g h => by simpa using h
  cases hf : obstacle .backup c with
  | some f =>
    refine ⟨_, _, _, fun b => takes_backup_stale link hp hbeside hf, ?_⟩
    have hagain := takes_backup_stale link (d := d) (b := {})
      (c := overwritten .backup (fun _ => none) c) hp hbeside
      ((obstacle_again hslot (by simp) c).trans hf)
    rwa [overwritten_again hslot (by simp)] at hagain
  | none =>
    have hfree := obstacle_eq_none_iff.mp hf
    have hnone : ∀ f, overwritten .backup (fun _ => none) c (.backup f) = none := by
      rw [overwritten_of_free _ hfree]
      rintro (_ | _) <;> simp
    obtain ⟨r, b', c', hcopy, hcurrent, hbackup⟩ :=
      exists_takes_copyBoth link (d := d) hp hbeside hnone
    -- the second backup removes what the first has copied, and so copies from the same files
    have hsame : overwritten .backup (fun _ => none) c' =
        overwritten .backup (fun _ => none) c := by
      rw [overwritten_of_free _ hbackup]
      funext s
      rcases s with f | (_ | _)
      · rw [← hcurrent f]
        simp
      · simp [hnone]
      · simp [hnone]
    refine ⟨r, b', c', fun b => takes_backup link hp hbeside hf hcopy,
      takes_backup link hp hbeside (obstacle_eq_none_iff.mpr hbackup) ?_⟩
    rwa [hsame]

end

/-! ### Operations, where the directory is not there -/

section

variable (link) (hbeside : p.Beside) (hlost : d.isDirectory p.active.parent = false)

include hbeside hlost

theorem meets_readFile_lost (s : Slot) :
    (link.readFile (p.path s)).Meets link (Held b d) none (Held b d) := by
  have hread := meets_readFile_held link (b := b) (d := d) (q := p.path s)
  cases hcontent : d.read (p.path s) with
  | ok content => simp [hbeside.isDirectory_of_read hcontent] at hlost
  | error code => rwa [hcontent] at hread

/-- A removal finds nothing to remove, or does not get there. -/
theorem exists_meets_discardFile_lost (s : Slot) :
    ∃ x?, ∀ b, (link.discardFile (p.path s)).Meets link (Held b d) x? (Held b d) := by
  cases hremove : d.remove (p.path s) with
  | ok disk =>
    obtain ⟨content, hfound, -⟩ := Disk.exists_of_remove hremove
    simp [hbeside.isDirectory_of_read (Disk.read_eq_ok_iff.mpr hfound)] at hlost
  | error code =>
    by_cases hcode : code = SystemError.notFound
    · subst hcode
      exact ⟨some (), fun b => meets_discardFile_missing hremove⟩
    · exact ⟨none, fun b => meets_discardFile_refused hremove hcode⟩

theorem exists_takes_removeStale_lost (fs : List Form) :
    ∃ r, (removeStale link (fs.map fun f => p.path (.backup f))).Takes link (Held b d) r
      (Held b d) := by
  induction fs with
  | nil => exact ⟨_, takes_pure ()⟩
  | cons f fs ih =>
    obtain ⟨x?, hremove⟩ := exists_meets_discardFile_lost link hbeside hlost (.backup f)
    obtain ⟨r, hrest⟩ := ih
    have hstale := takes_removeOld (hremove b)
    rw [List.map_cons, removeStale_cons]
    cases x? with
    | none => exact ⟨_, hstale.bind_error⟩
    | some _ => exact ⟨r, hstale.bind hrest⟩

theorem exists_takes_backup_lost :
    ∃ r, ∀ b, (backup link p).Takes link (Held b d) r (Held {} d) := by
  have hbegin : ∀ {b}, (Act.changeBooks fun _ => {} : Act σ Unit).Takes link (Held b d) (.ok ())
      (Held {} d) := takes_changeBooks _ fun h => ⟨rfl, h.2⟩
  have hcopy : (copyBoth link p).Takes link (Held {} d)
      (.error (.configFile .unreadableActive p.active)) (Held {} d) :=
    (takes_explained .unreadableActive p.active
      (meets_readFile_lost link hbeside hlost (.current .rendered))).bind_error.bind_error
  obtain ⟨r, hstale⟩ := exists_takes_removeStale_lost link (b := {}) hbeside hlost
    [.rendered, .raw]
  cases r with
  | error e => exact ⟨_, fun b => (takes_enter _).bind (hbegin.bind hstale.bind_error)⟩
  | ok _ => exact ⟨_, fun b => (takes_enter _).bind (hbegin.bind (hstale.bind hcopy))⟩

theorem exists_takes_restore_lost (b : Bookkeeping) (f : Form) :
    ∃ x, (restore link p (p.path (.current f)) (p.path (.backup f))).Takes link (Held b d) (.ok x)
      (Held b d) := by
  obtain ⟨x?, hremove⟩ := exists_meets_discardFile_lost link hbeside hlost (.current f)
  by_cases hcopied : b.copied.contains (p.path (.current f)) = true
  · refine ⟨false, fun w hw => ?_⟩
    rw [restore, ends_bind, ends_books, hw.2.1, if_pos hcopied, ends_bind, ends_rescue]
    refine ((meets_readFile_lost link hbeside hlost (.backup f)).bind_none w hw).mono
      (fun _ _ hx => by cases hx.1) ?_
    rintro _ w' ⟨⟨-, refusal, rfl⟩, hw'⟩
    exact ⟨rfl, hw'⟩
  · by_cases habsent : (p.path (.current f) == p.raw && b.rawWasAbsent == some true) = true
    · refine ⟨x?.isSome, fun w hw => ?_⟩
      rw [restore, ends_bind, ends_books, hw.2.1, if_neg hcopied, if_pos habsent]
      exact takes_removeLogged (hremove b) w hw
    · refine ⟨true, fun w hw => ?_⟩
      rw [restore, ends_bind, ends_books, hw.2.1, if_neg hcopied, if_neg habsent]
      exact ⟨rfl, hw⟩

theorem exists_takes_revert_lost (b : Bookkeeping) :
    ∃ r, (revert link p).Takes link (Held b d) r (Held b d) := by
  obtain ⟨x, hrendered⟩ := exists_takes_restore_lost link hbeside hlost b .rendered
  obtain ⟨y, hraw⟩ := exists_takes_restore_lost link hbeside hlost b .raw
  exact ⟨_, (takes_enter _).bind (hrendered.bind (hraw.bind (takes_pure _)))⟩

theorem takes_cleanup_lost (b : Bookkeeping) :
    (cleanup link p).Takes link (Held b d) (.ok ()) (Held {} d) := by
  obtain ⟨x?, hrendered⟩ := exists_meets_discardFile_lost link hbeside hlost
    (.backup .rendered)
  obtain ⟨y?, hraw⟩ := exists_meets_discardFile_lost link hbeside hlost (.backup .raw)
  exact (takes_enter _).bind ((takes_removeLogged (hrendered b)).bind
    ((takes_removeLogged (hraw b)).bind (takes_changeBooks _ fun h => ⟨rfl, h.2⟩)))

end

/-- Where the directory of the files cannot be made, nothing is written. -/
theorem takes_persist_refused {e : SystemError}
    (h : d.makeDirectories p.active.parent = (d', some e)) (rendered raw : Bytes) :
    (persist link p rendered raw).Takes link (Held b d)
      (.error (.configFile .persist p.active)) (Held b d') := by
  have hwrite : (writeAtomically link p.active (p.encode rendered) p.all).Meets link (Held b d) none
      (Held b d') := by
    rw [writeAtomically]
    exact (meets_ensureDirectory_refused h).bind_none
  exact (takes_enter _).bind (takes_explained _ _ hwrite).bind_error

/-! ### Operations that are done twice -/

theorem held_fixed (b : Bookkeeping) (d : Disk) : Holding.Fixed (Held b d) := by
  rintro _ _ _ _ ⟨rfl, rfl⟩ ⟨rfl, rfl⟩
  exact ⟨rfl, fun _ => rfl⟩

section

variable (hp : p.Separate) (hbeside : p.Beside) (hlets : link.Lets w.host)

include hp hbeside hlets

theorem backup_repeats : (backup link p).Repeats w := by
  cases hdir : w.disk.isDirectory p.active.parent with
  | true =>
    have hw : w.Holds link (p.Stands w.disk w.books (p.contents w.disk)) :=
      ⟨hlets, rfl, hdir, rfl, .refl p w.disk⟩
    obtain ⟨r, b', c', h, hagain⟩ := exists_takes_backup_again link hp hbeside (p.contents w.disk)
    exact (h _).repeats hagain (Stands.fixed hbeside) hw
  | false =>
    obtain ⟨r, h⟩ := exists_takes_backup_lost link hbeside hdir
    exact (h w.books).repeats (h {}) (held_fixed _ _) ⟨hlets, rfl, rfl⟩

theorem persist_repeats (rendered raw : Bytes) : (persist link p rendered raw).Repeats w := by
  rcases hmade : w.disk.makeDirectories p.active.parent with ⟨made, _ | e⟩
  · have hstands : p.Stands made w.books (p.contents made) w.books made :=
      ⟨rfl, Disk.isDirectory_of_makeDirectories hmade, rfl, .refl p made⟩
    have hslot : Slot.current.Injective := fun f g h => by simpa using h
    have hwanted : ∀ f, p.wanted rendered raw (.current f) ≠ some .directory := by
      rintro (_ | _) <;> simp [FilePaths.wanted]
    have h := fun c => takes_persist link (d := made) (b := w.books) (c := c) hp hbeside
      rendered raw
    have hagain := h (overwritten .current (fun f => p.wanted rendered raw (.current f))
      (p.contents made))
    rw [overwritten_again hslot hwanted, replacement, obstacle_again hslot hwanted] at hagain
    exact (h _).repeats (hagain.strengthen Stands.rises) (Stands.fixed hbeside)
      ⟨hlets, made, hmade, hstands⟩
  · -- the directories above may have come, but the last one is refused as before
    obtain ⟨e', hagain⟩ := Disk.makeDirectories_again hmade
    exact (takes_persist_refused hmade rendered raw).repeats
      (takes_persist_refused hagain rendered raw) (held_fixed _ _) ⟨hlets, rfl, rfl⟩

theorem revert_repeats : (revert link p).Repeats w := by
  cases hdir : w.disk.isDirectory p.active.parent with
  | true =>
    have hw : w.Holds link (p.Stands w.disk w.books (p.contents w.disk)) :=
      ⟨hlets, rfl, hdir, rfl, .refl p w.disk⟩
    have hagain := takes_revert link (d := w.disk) (b := w.books)
      (c := reverted p w.books (p.contents w.disk)) hp hbeside
    rw [reverts_again, reverted_again] at hagain
    exact (takes_revert link hp hbeside).repeats hagain (Stands.fixed hbeside) hw
  | false =>
    obtain ⟨r, h⟩ := exists_takes_revert_lost link hbeside hdir w.books
    exact h.repeats h (held_fixed _ _) ⟨hlets, rfl, rfl⟩

theorem cleanup_repeats : (cleanup link p).Repeats w := by
  cases hdir : w.disk.isDirectory p.active.parent with
  | true =>
    have hw : w.Holds link (p.Stands w.disk w.books (p.contents w.disk)) :=
      ⟨hlets, rfl, hdir, rfl, .refl p w.disk⟩
    have hagain := takes_cleanup link (d := w.disk) (b := {})
      (c := emptied (p.contents w.disk)) hp hbeside
    rw [emptied_again] at hagain
    exact (takes_cleanup link hp hbeside).repeats hagain (Stands.fixed hbeside) hw
  | false =>
    exact (takes_cleanup_lost link hbeside hdir w.books).repeats
      (takes_cleanup_lost link hbeside hdir {})
      (held_fixed _ _) ⟨hlets, rfl, rfl⟩

end

/-- Whatever the books say and whatever is on the disk: each operation, done a second time, ends as
it did and leaves the books and the disk as they are. -/
theorem operations_repeat {file directory : Path} {backupSuffix rawExtension : String}
    (hpaths : FilePaths.derive file directory backupSuffix rawExtension = .ok p)
    (hdistinct : p.all.Nodup) (hlets : link.Lets w.host) :
    (backup link p).Repeats w ∧ (∀ rendered raw, (persist link p rendered raw).Repeats w) ∧
      (revert link p).Repeats w ∧ (cleanup link p).Repeats w := by
  have hp := FilePaths.separate_of_derive hpaths hdistinct
  have hbeside : p.Beside := FilePaths.path_of_derive hpaths
  exact ⟨backup_repeats hp hbeside hlets, persist_repeats hp hbeside hlets,
    revert_repeats hp hbeside hlets, cleanup_repeats hp hbeside hlets⟩

/-- A backup that takes a directory at the raw path for an absent file, so that a revert fails
there, and fails again. -/
theorem operations_repeat_blocked :
    FilePaths.derive Sample.files.active { anchor := .slash, parts := [] } ".backup" ".raw" =
        .ok Sample.files ∧ Sample.files.all.Nodup ∧
      Sample.freeLink.Lets ((backup Sample.freeLink Sample.files).run Sample.blocked).2.host ∧
      (revert Sample.freeLink Sample.files).Repeats
        ((backup Sample.freeLink Sample.files).run Sample.blocked).2 ∧
      ((revert Sample.freeLink Sample.files).run
        ((backup Sample.freeLink Sample.files).run Sample.blocked).2).1 = .ok false := by
  have hlets : Sample.freeLink.Lets
      ((backup Sample.freeLink Sample.files).run Sample.blocked).2.host := fun _ _ => rfl
  obtain ⟨-, -, hrevert, -⟩ :=
    operations_repeat Sample.derive_eq Sample.nodup_files hlets
  exact ⟨Sample.derive_eq, Sample.nodup_files, hlets, hrevert, by decide +kernel⟩

end FileSet

end HotSwap
