/-
What a backup and a replacement did is undone by a revert that meets with no refusal.

A caller backs the files up and, if that succeeds, replaces them.  Whichever of these steps is
refused, and wherever it stops: if no access is refused from then on, a revert leaves at both
paths exactly what was there before, a directory with all that is in it.  It says so, but for
one case: a directory at the raw path counts as a file that was absent, and is not removed.

* `World.Bypasses` — a stretch that leaves certain routes alone;
* `FileSet.replaceFiles` — a backup and, if it succeeds, a replacement;
* `FileSet.ends_replaceFiles` — whichever way that ends, the files are in custody;
* `FileSet.ends_restore_prior` — a restore that is not refused puts back what was there;
* `FileSet.undoes` — all of this.
-/
import HotSwap.Proofs.Grants
import HotSwap.Proofs.Restorations

namespace HotSwap

open Act

variable {σ : Type} {link : Link σ} {p : FilePaths} {w w' w'' : World σ} {s t : Slot}

/-! ### Routes that are left alone -/

namespace World

variable {S : Route → Prop}

/-- If the directory of the files is there, it stays, and the routes of `S` lead to what they
have led to. -/
def Bypasses (p : FilePaths) (S : Route → Prop) (w w' : World σ) : Prop :=
  w.disk.isDirectory p.active.parent = true →
    Disk.SameDirectories w.disk w'.disk ∧ ∀ r, S r → w'.disk.node? r = w.disk.node? r

theorem bypasses_of_disk (hdisk : w'.disk = w.disk) : w.Bypasses p S w' := fun _ => by
  rw [hdisk]
  exact ⟨fun _ => Iff.rfl, fun _ _ => rfl⟩

end World

instance {S : Route → Prop} : Course (World.Bypasses (σ := σ) p S) where
  refl _ := World.bypasses_of_disk rfl
  trans h h' hdir := by
    obtain ⟨hsame, hnodes⟩ := h hdir
    obtain ⟨hsame', hnodes'⟩ := h' ((hsame.isDirectory _).mpr hdir)
    exact ⟨hsame.trans hsame', fun r hr => (hnodes' r hr).trans (hnodes r hr)⟩
  log _ _ := World.bypasses_of_disk rfl
  polls _ _ := World.bypasses_of_disk rfl

section

variable {S : Route → Prop} {q : Path}

theorem readFile_bypasses (link : Link σ) (q : Path) :
    (link.readFile q).Within (World.Bypasses p S) Fault.Refusal := fun w => by
  rw [Link.readFile, ends_noted, ends_bind, Link.leave, ends_bind, ends_choose]
  split
  · rw [ends_pure, ends_bind, ends_look]
    split
    · exact World.bypasses_of_disk rfl
    · exact ⟨⟨_, rfl⟩, World.bypasses_of_disk rfl⟩
  · exact ⟨⟨_, rfl⟩, World.bypasses_of_disk rfl⟩

theorem discardFile_bypasses (link : Link σ) (hq : ¬ S q.place) :
    (link.discardFile q).Within (World.Bypasses p S) Fault.Refusal := fun w => by
  rw [Link.discardFile, ends_noted, ends_bind, Link.leave, ends_bind, ends_choose]
  split
  · rw [ends_pure, ends_bind, ends_look]
    split
    · next disk hremove =>
      obtain ⟨content, -, hsame, rfl⟩ := Disk.exists_of_remove hremove
      refine fun _ => ⟨hsame, fun r hr => Disk.node?_erase_of_ne _ ?_⟩
      rintro rfl
      exact hq hr
    · split
      · exact World.bypasses_of_disk rfl
      · exact ⟨⟨_, rfl⟩, World.bypasses_of_disk rfl⟩
  · exact ⟨⟨_, rfl⟩, World.bypasses_of_disk rfl⟩

theorem makeFile_bypasses (hq : ¬ S q.place) (content : Bytes) :
    (Link.makeFile q content : Act σ Unit).Within (World.Bypasses p S) Fault.Refusal := fun w => by
  rw [Link.makeFile, ends_noted, ends_bind, ends_look]
  cases hfill : w.disk.fill q content with
  | error code => exact ⟨⟨_, rfl⟩, World.bypasses_of_disk rfl⟩
  | ok disk =>
    obtain ⟨-, -, rfl⟩ := Disk.exists_of_fill hfill
    refine fun _ => ⟨(Disk.found_of_fill hfill).1, fun r hr => Disk.node?_put_of_ne _ _ ?_⟩
    rintro rfl
    exact hq hr

theorem moveFile_bypasses (link : Link σ) {target : Path} (hq : ¬ S q.place)
    (htarget : ¬ S target.place) :
    (link.moveFile q target).Within (World.Bypasses p S) Fault.Refusal := fun w => by
  rw [Link.moveFile, ends_noted, ends_bind, Link.leave, ends_bind, ends_choose]
  split
  · rw [ends_pure, ends_bind, ends_look]
    cases hmove : w.disk.move q target with
    | error code => exact ⟨⟨_, rfl⟩, World.bypasses_of_disk rfl⟩
    | ok disk =>
      have hsame := Disk.sameDirectories_of_move hmove
      obtain ⟨_, -, -, -, rfl⟩ := Disk.exists_of_move hmove
      refine fun _ => ⟨hsame, fun r hr => ?_⟩
      have hr₁ : r ≠ target.place := fun heq => htarget (heq ▸ hr)
      have hr₂ : r ≠ q.place := fun heq => hq (heq ▸ hr)
      exact (Disk.node?_put_of_ne _ _ hr₁).trans (Disk.node?_erase_of_ne _ hr₂)
  · exact ⟨⟨_, rfl⟩, World.bypasses_of_disk rfl⟩

theorem ensureDirectory_bypasses (hq : q = p.active.parent) :
    (Link.ensureDirectory q : Act σ Unit).Within (World.Bypasses p S) Fault.Refusal := fun w => by
  rw [Link.ensureDirectory, ends_noted, ends_bind, ends_look, ends_bind, ends_change]
  have hmade : w.Bypasses p S { w with disk := (w.disk.makeDirectories q).1 } := fun hdir => by
    rw [← hq] at hdir
    rw [Disk.makeDirectories_of_isDirectory hdir]
    exact ⟨fun _ => Iff.rfl, fun _ _ => rfl⟩
  split
  · exact hmade
  · exact ⟨⟨_, rfl⟩, hmade⟩

end

/-- The routes of `S` are none of the four files, nor of the temporary files beside them. -/
structure FilePaths.Avoids (p : FilePaths) (S : Route → Prop) : Prop where
  beside : p.Beside
  files : ∀ s, ¬ S (p.path s).place
  temporary : ∀ disk s, ¬ S (temporaryFor disk (p.path s) p.all).place

namespace FilePaths

/-- A name in a directory leads at most one step down from there. -/
theorem length_place_le {q : Path} {directory : List String} {name : String}
    (hq : q.parts = directory ++ [name]) :
    q.place.length ≤ (Path.climb [] directory).length + 1 := by
  rw [Path.place, hq, Path.climb_concat]
  split
  · rw [List.length_dropLast]
    omega
  · simp

/-- What is in a directory at the raw path is none of the files beside that. -/
theorem Beside.avoids_below_raw (hp : p.Beside) (hname : p.raw.name ≠ "..") :
    p.Avoids fun r => p.raw.place <+: r ∧ r ≠ p.raw.place := by
  obtain ⟨name, hraw⟩ := hp (.current .raw)
  have hparts : p.raw.parts = p.active.parts.dropLast ++ [name] := by
    rw [show p.raw = p.path (.current .raw) from rfl, hraw]
  have hlength : p.raw.place.length = (Path.climb [] p.active.parts.dropLast).length + 1 := by
    have hne : name ≠ ".." := by simpa [Path.name, hparts] using hname
    rw [Path.place, hparts, Path.climb_concat, if_neg hne, List.length_append,
      List.length_singleton]
  -- a route below the raw path is longer than that
  have hshort : ∀ r : Route, r.length ≤ p.raw.place.length →
      ¬ (p.raw.place <+: r ∧ r ≠ p.raw.place) := fun r hr h =>
    h.2 (h.1.eq_of_length_le hr).symm
  constructor
  case beside => exact hp
  case files =>
    intro s
    obtain ⟨m, hm⟩ := hp s
    refine hshort _ ?_
    rw [hlength]
    exact length_place_le (by rw [hm])
  case temporary =>
    intro disk s
    refine hshort _ ?_
    have hparent : (p.path s).parent.parts = p.active.parts.dropLast := by
      rw [hp.parent_eq s]
      rfl
    have h := length_place_le (q := temporaryFor disk (p.path s) p.all) rfl
    rwa [hparent, Path.climb_of_dots_not_mem (Path.dots_not_mem_climb _ (by simp)),
      List.reverse_nil, List.nil_append, ← hlength] at h

end FilePaths

namespace FileSet

section

variable {S : Route → Prop} (hS : p.Avoids S)

include hS

theorem writeAtomically_bypasses (link : Link σ) (s : Slot) (content : Bytes) :
    (writeAtomically link (p.path s) content p.all).Within (World.Bypasses p S) Fault.Refusal := by
  exact writeAtomically_within_of_accesses (ensureDirectory_bypasses (hS.beside.parent_eq s))
    (fun disk => makeFile_bypasses (hS.temporary disk s) content)
    (fun disk => moveFile_bypasses link (hS.temporary disk s) (hS.files s))
    fun disk => discardFile_bypasses link (hS.temporary disk s)

theorem backup_bypasses (link : Link σ) :
    (backup link p).Within (World.Bypasses p S) fun e => e.interrupts = false := by
  have hcopy : ∀ (unreadable : FileProblem) (s t : Slot),
      (copy link p unreadable (p.path s) (p.path t)).Within (World.Bypasses p S)
        fun e => e.interrupts = false := fun unreadable s t =>
    (explained_within (readFile_bypasses link _)).bind fun content =>
      (explained_within (writeAtomically_bypasses hS link t content)).bind fun _ _ =>
        World.bypasses_of_disk rfl
  have hstale : (removeStale link p.backups).Within (World.Bypasses p S)
      fun e => e.interrupts = false :=
    removeStale_within_of_discard fun path hpath => by
      simp only [FilePaths.backups, List.mem_cons, List.not_mem_nil, or_false] at hpath
      rcases hpath with rfl | rfl
      · exact discardFile_bypasses link (hS.files (.backup .rendered))
      · exact discardFile_bypasses link (hS.files (.backup .raw))
  have hraw : (backupRaw link p).Within (World.Bypasses p S) fun e => e.interrupts = false := by
    refine (within_look _).bind fun disk => ?_
    split
    · exact (hcopy _ (.current .raw) (.backup .raw)).bind fun _ _ => World.bypasses_of_disk rfl
    · exact within_say.bind fun _ _ => World.bypasses_of_disk rfl
  exact Within.bind (fun _ => World.bypasses_of_disk rfl) fun _ =>
    Within.bind (fun _ => World.bypasses_of_disk rfl) fun _ => hstale.bind fun _ =>
      (hcopy _ (.current .rendered) (.backup .rendered)).bind fun _ => hraw.bind fun _ => within_say

theorem persist_bypasses (link : Link σ) (rendered raw : Bytes) :
    (persist link p rendered raw).Within (World.Bypasses p S) fun e => e.interrupts = false :=
  Within.bind (fun _ => World.bypasses_of_disk rfl) fun _ =>
    (explained_within (writeAtomically_bypasses hS link (.current .rendered) _)).bind fun _ =>
      (explained_within (writeAtomically_bypasses hS link (.current .raw) _)).bind fun _ => within_say

theorem revert_bypasses (link : Link σ) (F : Fault → Prop) :
    (revert link p).Within (World.Bypasses p S) F := by
  have hrestore : ∀ f : Form, (restore link p (p.path (.current f)) (p.path (.backup f))).Within
      (World.Bypasses p S) F := fun f =>
    restore_within_of_accesses
      ((readFile_bypasses link _).bind fun content => writeAtomically_bypasses hS link _ content)
      (discardFile_bypasses link (hS.files (.current f)))
  exact Within.bind (fun _ => World.bypasses_of_disk rfl) fun _ =>
    (hrestore .rendered).bind fun _ => (hrestore .raw).bind fun _ => within_pure _

end

/-! ### A backup and a replacement -/

/-- Backs the files up and, if that succeeds, replaces them. -/
def replaceFiles (link : Link σ) (p : FilePaths) (rendered raw : Bytes) : Act σ Unit := do
  backup link p
  persist link p rendered raw

theorem replaceFiles_bypasses {S : Route → Prop} (hS : p.Avoids S) (link : Link σ)
    (rendered raw : Bytes) :
    (replaceFiles link p rendered raw).Within (World.Bypasses p S) fun e => e.interrupts = false :=
  (backup_bypasses hS link).bind fun _ => persist_bypasses hS link rendered raw

/-- The files are in custody, and the books know whether a backup that began in `v` ran to its
end and found no raw file. -/
structure Replaced (link : Link σ) (p : FilePaths) (rendered raw : Bytes) (v w : World σ) :
    Prop where
  custody : Custody p (p.contents v.disk) (p.wanted rendered raw) w.books (p.contents w.disk)
  absent : w.books.rawWasAbsent = some true ↔ FoundNoRaw link p v

/-- So it is after a backup and a replacement, however they end. -/
theorem ends_replaceFiles (hp : p.Separate) (link : Link σ) (rendered raw : Bytes) (v : World σ) :
    (replaceFiles link p rendered raw).Ends v (fun _ w' => Replaced link p rendered raw v w')
      fun _ w' => Replaced link p rendered raw v w' := by
  have hprior : Unchanged (p.contents v.disk) (p.contents v.disk) := fun _ => rfl
  have habsent : ∀ {w' : World σ}, ((backup link p).run v).2 = w' →
      (w'.books.rawWasAbsent = some true ↔ FoundNoRaw link p v) := by
    rintro _ rfl
    simpa using (kept_of_backup hp link v).absent
  refine ((ends_backup hp link.steady_unit (p.wanted rendered raw) hprior).and
    (ends_run (backup link p) v)).bind ?_ ?_
  · rintro _ w₁ ⟨⟨hguarded, -, hcovers⟩, hrun⟩
    refine ((ends_persist hp link.steady_unit hguarded.custody hcovers).and
      (persist_keepsBackups hp link rendered raw w₁)).mono ?_ ?_
    · rintro - w₂ ⟨⟨hguarded', -⟩, hbooks, -⟩
      exact ⟨hguarded'.custody, hbooks ▸ habsent (by rw [hrun])⟩
    · rintro e w₂ ⟨⟨-, hguarded', -⟩, -, hbooks, -⟩
      exact ⟨hguarded'.custody, hbooks ▸ habsent (by rw [hrun])⟩
  · rintro e w₁ ⟨⟨-, hguarded, -⟩, hrun⟩
    exact ⟨hguarded.custody, habsent (by rw [hrun])⟩

/-! ### The way back -/

variable {b : Bookkeeping} {c prior candidate : Contents} {f : Form}

/-- A restore that is not refused puts back what was there, and says so unless that is a
directory where a raw file was looked for. -/
theorem ends_restore_prior (hp : p.Separate) (hbeside : p.Beside) (h : p.Ready link b c w)
    (hcustody : Custody p prior candidate b c)
    (hcandidate : candidate (.current f) ≠ some .directory) :
    (restore link p (p.path (.current f)) (p.path (.backup f))).Ends w
      (fun restored w' =>
        p.Ready link b (Function.update c (.current f) (prior (.current f))) w' ∧
        (restored = true ↔ ¬ (f = .raw ∧ b.rawWasAbsent = some true ∧
          prior (.current f) = some .directory)))
      fun _ _ => False := by
  have hput : ∀ n, p.put c (.current f) n = Function.update c (.current f) n := fun n =>
    hp.put_eq_update c _ n
  by_cases hcopied : p.path (.current f) ∈ b.copied
  · obtain ⟨⟨content, hprior⟩, hbackup⟩ := hcustody.backup f hcopied
    have hfile : c (.current f) ≠ some .directory := by
      rcases hcustody.current f with hc | ⟨hc, -⟩
      · simp [hc, hprior]
      · rwa [hc]
    refine (h.ends_restore hbeside hcopied (hbackup.trans hprior) hfile).mono ?_ fun _ _ he => he
    rintro _ w' ⟨rfl, h'⟩
    rw [hput, ← hprior] at h'
    exact ⟨h', by simp [hprior]⟩
  · rw [restore, ends_bind, ends_books, h.books, if_neg (by simpa using hcopied)]
    split
    · next habsent =>
      simp only [Bool.and_eq_true, beq_iff_eq] at habsent
      obtain rfl : f = .raw := by
        have hslot : Slot.current f = .current .raw := hp.path_injective habsent.1
        simpa using hslot
      rcases hprior : prior (.current .raw) with _ | content | _
      · have hnone : c (.current .raw) ≠ some .directory := by
          rcases hcustody.current .raw with hc | ⟨hc, -⟩
          · simp [hc, hprior]
          · rwa [hc]
        refine (h.ends_removeLogged hbeside hnone).mono ?_ fun _ _ he => he
        rintro _ w' ⟨rfl, h'⟩
        rw [hput] at h'
        exact ⟨h', by simp⟩
      · exact absurd hprior (hcustody.absent habsent.2 content)
      · -- a directory is where it was, and is not removed
        have hdir := hcustody.directory .raw hprior
        refine (h.ends_removeLogged_directory hdir).mono ?_ fun _ _ he => he
        rintro _ w' ⟨rfl, h'⟩
        rw [← hdir, Function.update_eq_self]
        exact ⟨h', by simp [habsent.2]⟩
    · next habsent =>
      have hraw : ¬ (f = .raw ∧ b.rawWasAbsent = some true) := by
        rintro ⟨rfl, hb⟩
        exact habsent (by simp [FilePaths.path, hb])
      have hsame : c (.current f) = prior (.current f) := by
        refine hcustody.current_of_not_covers ?_
        rintro (hf | hf)
        · exact hcopied hf
        · exact hraw hf
      rw [← hsame, Function.update_eq_self]
      exact ⟨h.log _, by simpa using fun hf hb => absurd ⟨hf, hb⟩ hraw⟩

/-- A revert that is not refused. -/
theorem ends_revert_prior (hp : p.Separate) (hbeside : p.Beside) (h : p.Ready link b c w)
    (hcustody : Custody p prior candidate b c)
    (hcandidate : ∀ f, candidate (.current f) ≠ some .directory) :
    (revert link p).Ends w
      (fun restored w' => (∀ f, p.contents w'.disk (.current f) = prior (.current f)) ∧
        (restored = true ↔
          ¬ (b.rawWasAbsent = some true ∧ prior (.current .raw) = some .directory)))
      fun _ _ => False := by
  rw [revert, ends_bind, ends_enter]
  refine (ends_restore_prior hp hbeside (h.enter _) hcustody (hcandidate .rendered)).bind ?_
    fun _ _ he => he
  rintro rendered w₁ ⟨h₁, hrendered⟩
  refine (ends_restore_prior hp hbeside h₁ hcustody.restore (hcandidate .raw)).bind ?_
    fun _ _ he => he
  rintro raw w₂ ⟨h₂, hraw⟩
  refine ⟨fun f => ?_, ?_⟩
  · rw [h₂.contents]
    cases f with
    | rendered => rw [Function.update_of_ne (by simp), Function.update_self]
    | raw => rw [Function.update_self]
  · rw [Bool.and_eq_true, hrendered, hraw]
    simp

/-- Whatever was refused on the way: if nothing is refused any more, a revert leaves both paths as
they were before the backup.  It says so unless the backup came to its end with a directory at
the raw path. -/
theorem undoes {file directory : Path} {backupSuffix rawExtension : String}
    (hpaths : FilePaths.derive file directory backupSuffix rawExtension = .ok p)
    (hdistinct : p.all.Nodup) (link : Link σ) (rendered raw : Bytes) {content : Bytes}
    (hactive : w.disk.read p.active = .ok content)
    (hlets : link.Lets ((replaceFiles link p rendered raw).run w).2.host) :
    (do
      let _ ← (replaceFiles link p rendered raw).outcome
      revert link p).Ends w
      (fun restored w' =>
        (∀ f, w'.disk.found (p.path (.current f)) = w.disk.found (p.path (.current f))) ∧
        (p.raw.name ≠ ".." → ∀ r, p.raw.place <+: r → r ≠ p.raw.place →
          w'.disk.node? r = w.disk.node? r) ∧
        (restored = true ↔
          ¬ (w.disk.isDirectory p.raw = true ∧ ((backup link p).run w).1 = Except.ok ())))
      fun _ _ => False := by
  have hp := FilePaths.separate_of_derive hpaths hdistinct
  have hbeside : p.Beside := FilePaths.path_of_derive hpaths
  have hfound : p.contents w.disk (.current .rendered) = some (.file content) :=
    Disk.read_eq_ok_iff.mp hactive
  have hwanted : ∀ f, p.wanted rendered raw (.current f) ≠ some .directory := by
    rintro (_ | _) <;> simp [FilePaths.wanted]
  -- the files and the books when the revert begins
  have hreplaced : Replaced link p rendered raw w ((replaceFiles link p rendered raw).run w).2 :=
    (ends_replaceFiles hp link rendered raw w).world
  have hbypassed (hname : p.raw.name ≠ "..") :
      w.Bypasses p _ ((replaceFiles link p rendered raw).run w).2 :=
    (replaceFiles_bypasses (hbeside.avoids_below_raw hname) link rendered raw w).mono
      (fun _ _ h => h) (fun _ _ h => h.2) |>.world
  have hrooted : w.disk.isDirectory p.active.parent = true :=
    hp.isDirectory_parent hfound (.current .rendered)
  suffices hrevert : ∀ w₁, w₁ = ((replaceFiles link p rendered raw).run w).2 →
      (revert link p).Ends w₁ _ fun _ _ => False by
    rw [ends_bind, ends_outcome]
    exact (ends_run (replaceFiles link p rendered raw) w).mono
      (fun _ w₁ hrun => hrevert w₁ (by rw [hrun])) fun _ w₁ hrun => hrevert w₁ (by rw [hrun])
  intro w₁ hw₁
  rw [← hw₁] at hreplaced hbypassed hlets
  obtain ⟨n, hn⟩ : ∃ n, p.contents w₁.disk (.current .rendered) = some n := by
    rcases hreplaced.custody.current .rendered with hc | ⟨hc, -⟩
    · exact ⟨_, hc.trans hfound⟩
    · exact ⟨_, hc⟩
  have hready : p.Ready link w₁.books (p.contents w₁.disk) w₁ :=
    ⟨hlets, rfl, rfl, hp.isDirectory_parent hn (.current .rendered)⟩
  have hbelow : (revert link p).Ends w₁ (fun _ w' => p.raw.name ≠ ".." → ∀ r, p.raw.place <+: r →
      r ≠ p.raw.place → w'.disk.node? r = w.disk.node? r) fun _ _ => True := by
    by_cases hname : p.raw.name = ".."
    · exact .of_forall (fun _ _ hne => absurd hname hne) fun _ _ => trivial
    · refine (revert_bypasses (hbeside.avoids_below_raw hname) link (fun _ => True) w₁).mono
        (fun _ w' hw' _ r hr hne => ?_) fun _ _ _ => trivial
      exact (Course.trans (hbypassed hname) hw' hrooted).2 r ⟨hr, hne⟩
  refine ((ends_revert_prior hp hbeside hready hreplaced.custody hwanted).and hbelow).mono ?_
    fun _ _ he => he.1
  rintro restored w' ⟨⟨hcontents, hrestored⟩, hbelow⟩
  refine ⟨hcontents, hbelow, hrestored.trans (not_congr ?_)⟩
  -- a directory at the raw path is no file there
  rw [hreplaced.absent, FoundNoRaw, Disk.isDirectory_iff, ← Bool.not_eq_true, Disk.isFile_iff]
  constructor
  · exact fun h => ⟨h.2, h.1.1⟩
  · rintro ⟨hdir, hok⟩
    exact ⟨⟨hok, by simp [hdir]⟩, hdir⟩

end FileSet

/-! ### A directory at the raw path -/

/-- A plain host that refuses nothing from some access on. -/
theorem Host.plain_lets {raises : Request → Option Fault} {refuses : Access → Nat → Option Nat}
    {k n : Nat} (h : ∀ a m, k ≤ m → refuses a m = none)
    (console : Link Nat → Command → Act Nat Reply) (hn : k ≤ n) :
    ((plain raises refuses).link console 0).Lets n := by
  intro as
  induction as generalizing n with
  | nil => exact fun a => h a n hn
  | cons b as ih => exact ih (Nat.le_succ_of_le hn)

namespace Sample

/-- A world with a file in a directory at the raw path. -/
def blocked : World Nat where
  disk := { entries := world.disk.entries ++
    [(["conf", "flow.raw"], .directory), (["conf", "flow.raw", "kept"], .file [9])] }
  host := 0

/-- A host that refuses the first replacement of the active file. -/
def faltering : Host Nat :=
  Host.plain (fun _ => none) fun _ n => if n = 4 then some 28 else none

/-- The link to it. -/
def falteringLink : Link Nat := faltering.link (Updater.console plan) 0

end Sample

namespace FileSet

attribute [local irreducible] Act.Ends in
/-- The replacement has failed, and everything is as it was before, but the revert does not say
so. -/
theorem undoes_blocked :
    FilePaths.derive Sample.files.active { anchor := .slash, parts := [] } ".backup" ".raw" =
        .ok Sample.files ∧ Sample.files.all.Nodup ∧
      Sample.blocked.disk.read Sample.files.active = .ok [1] ∧
      Sample.falteringLink.Lets
        ((replaceFiles Sample.falteringLink Sample.files [2] [3]).run Sample.blocked).2.host ∧
      (do
        let _ ← (replaceFiles Sample.falteringLink Sample.files [2] [3]).outcome
        revert Sample.falteringLink Sample.files).Ends Sample.blocked
        (fun restored w' => restored = false ∧
          ∀ f, w'.disk.found (Sample.files.path (.current f)) =
            Sample.blocked.disk.found (Sample.files.path (.current f)))
        (fun _ _ => False) := by
  have hread : Sample.blocked.disk.read Sample.files.active = .ok [1] := by decide +kernel
  have hlets : Sample.falteringLink.Lets
      ((replaceFiles Sample.falteringLink Sample.files [2] [3]).run Sample.blocked).2.host :=
    Host.plain_lets (k := 5) (fun _ m hm => if_neg (by omega)) _ (by decide +kernel)
  refine ⟨Sample.derive_eq, Sample.nodup_files, hread, hlets, ?_⟩
  have hdir : Sample.blocked.disk.isDirectory Sample.files.raw = true := by decide +kernel
  have hbackup : ((backup Sample.falteringLink Sample.files).run Sample.blocked).1 =
      Except.ok () := rfl
  refine (undoes Sample.derive_eq Sample.nodup_files Sample.falteringLink [2] [3] hread
    hlets).mono ?_ fun _ _ he => he
  rintro restored w' ⟨hfound, -, hrestored⟩
  refine ⟨?_, hfound⟩
  rw [← Bool.not_eq_true, hrestored, not_not]
  exact ⟨hdir, hbackup⟩

end FileSet
end HotSwap
