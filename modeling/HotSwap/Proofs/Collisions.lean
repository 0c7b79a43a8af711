/-
What accepted settings are good for, where the four paths may coincide.

Accepted settings do not always give four different paths.  Two collisions are left: the raw
file can be the active one, and it can be the backup of the active one.  On a disk where both
files are there, and without any refusal:

* a replacement can be read back, unless the raw file is the active one;
* a backup, a replacement and a revert restore both files, unless the raw file is the backup of
  the active one.

Where they fail they fail for some content on every disk.

* `FilePaths.Ready.ends_roundTrip` — the way there and back, where the raw file is not the backup
  of the active one, even if it is the active one;
* `FilePaths.Ready.ends_roundTrip_overlapping` — where it is, the active file ends up with the
  new raw content;
* `FileSettings.usable_iff` — both criteria, in terms of the settings.
-/
import HotSwap.Proofs.Grants
import HotSwap.Proofs.Naming
import HotSwap.Proofs.SimulatedHosts

namespace HotSwap

open Act

variable {σ : Type} {link : Link σ} {p : FilePaths} {w : World σ} {b : Bookkeeping}
  {c : Contents} {content rawContent : Bytes}

namespace FileSet

/-- Backs the files up, replaces them and puts them back. -/
def roundTrip (link : Link σ) (p : FilePaths) (rendered raw : Bytes) : Act σ Bool := do
  backup link p
  persist link p rendered raw
  revert link p

end FileSet

namespace FilePaths

/-- The two current files can be read, with these contents. -/
def Reads (p : FilePaths) (content rawContent : Bytes) (w : World σ) : Prop :=
  w.disk.read p.active = .ok content ∧ w.disk.read p.raw = .ok rawContent

/-- The contents after a backup of two files and their replacement. -/
def exchanged (p : FilePaths) (c : Contents) (content rawContent rendered raw : Bytes) :
    Contents :=
  p.replaced (p.backedUp (p.unbacked c) content rawContent) (p.encode rendered) raw

namespace Ready

theorem reads_iff (h : p.Ready link b c w) : p.Reads content rawContent w ↔
    c (.current .rendered) = some (.file content) ∧
      c (.current .raw) = some (.file rawContent) := by
  rw [← h.contents]
  exact and_congr Disk.read_eq_ok_iff Disk.read_eq_ok_iff

/-- What the way there and back comes to, from what a backup and a revert come to read. -/
theorem ends_roundTrip (h : p.Ready link b c w) (hp : p.Beside)
    (content rawContent rendered raw back rawBack : Bytes)
    (hbackups : ∀ f, c (.backup f) ≠ some .directory)
    (hcontent : p.unbacked c (.current .rendered) = some (.file content))
    (hraw : p.put (p.unbacked c) (.backup .rendered) (some (.file content)) (.current .raw) =
      some (.file rawContent))
    (hfiles : ∀ f, c (.current f) ≠ some .directory)
    (hback : p.exchanged c content rawContent rendered raw (.backup .rendered) =
      some (.file back))
    (hrawBack : p.put (p.exchanged c content rawContent rendered raw) (.current .rendered)
      (some (.file back)) (.backup .raw) = some (.file rawBack)) :
    (FileSet.roundTrip link p rendered raw).Ends w
      (fun restored w' => restored = true ∧
        p.Ready link { copied := [p.raw, p.active], rawWasAbsent := some false }
          (p.replaced (p.exchanged c content rawContent rendered raw) back rawBack) w')
      fun _ _ => False := by
  have hbacked : ∀ f, p.backedUp (p.unbacked c) content rawContent (.current f) ≠
      some .directory := fun f =>
    put_ne_directory (by simp) (put_ne_directory (by simp) (unbacked_ne_directory (hfiles f)))
  have hexchanged : ∀ f, p.exchanged c content rawContent rendered raw (.current f) ≠
      some .directory := fun f =>
    put_ne_directory (by simp) (put_ne_directory (by simp) (hbacked f))
  rw [FileSet.roundTrip]
  refine (h.ends_backup hp hbackups hcontent hraw).bind (fun _ w₁ h₁ => ?_) fun _ _ he => he
  refine (h₁.ends_persist hp rendered raw hbacked).bind (fun _ w₂ h₂ => ?_) fun _ _ he => he
  refine h₂.ends_revert hp ?_ hexchanged hback hrawBack
  rintro (_ | _) <;> simp [path]

variable (h : p.Ready link b c w) (hp : p.Beside)
  (hbackups : ∀ f, c (.backup f) ≠ some .directory)
  (hreads : p.Reads content rawContent w)

include h hp hbackups hreads

/-- No backup is a current file, and the two backups are one only if the two current files are:
then both files come back. -/
theorem ends_roundTrip_reads (hown : ∀ f g, p.path (.current f) ≠ p.path (.backup g))
    (htwin : p.path (.backup .rendered) = p.path (.backup .raw) →
      p.path (.current .rendered) = p.path (.current .raw))
    (rendered raw : Bytes) :
    (FileSet.roundTrip link p rendered raw).Ends w
      (fun restored w' => restored = true ∧ p.Reads content rawContent w')
      fun _ _ => False := by
  obtain ⟨hcontent, hraw⟩ := h.reads_iff.mp hreads
  -- one file has one content
  have hsame : p.path (.current .rendered) = p.path (.current .raw) → content = rawContent := by
    intro (heq : p.active = p.raw)
    obtain ⟨hread, hreadRaw⟩ := hreads
    simpa [heq, hreadRaw] using hread.symm
  have hown' : ∀ f g, p.path (.backup g) ≠ p.path (.current f) := fun f g => (hown f g).symm
  have hfiles : ∀ f, c (.current f) ≠ some .directory := by
    rintro (_ | _)
    · simp [hcontent]
    · simp [hraw]
  have hback : p.exchanged c content rawContent rendered raw (.backup .rendered) =
      some (.file content) := by
    by_cases hone : p.path (.backup .rendered) = p.path (.backup .raw)
    · simp [exchanged, replaced, backedUp, put, hown', hone, hsame (htwin hone)]
    · simp [exchanged, replaced, backedUp, put, hown', hone]
  refine (h.ends_roundTrip hp content rawContent rendered raw content rawContent hbackups ?_ ?_
    hfiles hback ?_).mono ?_ fun _ _ he => he
  · simp [unbacked, put, hown, hcontent]
  · simp [unbacked, put, hown, hraw]
  · simp [exchanged, replaced, backedUp, put, hown']
  · rintro restored w' ⟨hrestored, h'⟩
    refine ⟨hrestored, h'.reads_iff.mpr ⟨?_, by simp [replaced]⟩⟩
    by_cases hone : p.path (.current .rendered) = p.path (.current .raw)
    · simp [replaced, put, hone, hsame hone]
    · simp [replaced, put, hone]

/-- The raw file is the backup of the active one: then the new raw content ends up in the active
file. -/
theorem ends_roundTrip_overlapping (hraw : p.path (.current .raw) = p.path (.backup .rendered))
    (hactive : ∀ f, p.path (.current .rendered) ≠ p.path (.backup f))
    (hbackup : p.path (.current .raw) ≠ p.path (.backup .raw)) (rendered raw : Bytes) :
    (FileSet.roundTrip link p rendered raw).Ends w
      (fun _ w' => w'.disk.read p.active = .ok raw) fun _ _ => False := by
  obtain ⟨hcontent, hrawContent⟩ := h.reads_iff.mp hreads
  have hactive' : ∀ f, p.path (.backup f) ≠ p.path (.current .rendered) := fun f =>
    (hactive f).symm
  have hbackup' : p.path (.backup .raw) ≠ p.path (.backup .rendered) := fun heq =>
    hbackup (hraw.trans heq.symm)
  have hfiles : ∀ f, c (.current f) ≠ some .directory := by
    rintro (_ | _)
    · simp [hcontent]
    · simp [hrawContent]
  refine (h.ends_roundTrip hp content content rendered raw raw content hbackups ?_ ?_ hfiles
    ?_ ?_).mono ?_ fun _ _ he => he
  · simp [unbacked, put, hactive, hcontent]
  · simp [put, hraw]
  · simp [exchanged, replaced, put, hraw]
  · simp [exchanged, replaced, backedUp, put, hraw, hactive', hbackup']
  · rintro restored w' ⟨-, h'⟩
    refine Disk.read_eq_ok_iff.mpr ((congrFun h'.contents (.current .rendered)).trans ?_)
    simp [replaced, put, hraw, hactive]

omit hbackups in
/-- The raw file is written at last. -/
theorem ends_persist_reads (rendered raw : Bytes) :
    (FileSet.persist link p rendered raw).Ends w
      (fun _ w' => w'.disk.read p.raw = .ok raw ∧ w'.disk.read p.active =
        .ok (if p.path (.current .rendered) = p.path (.current .raw) then raw
          else p.encode rendered))
      fun _ _ => False := by
  obtain ⟨hcontent, hrawContent⟩ := h.reads_iff.mp hreads
  refine (h.ends_persist hp rendered raw ?_).mono (fun _ w' h' => ?_) fun _ _ he => he
  · rintro (_ | _)
    · simp [hcontent]
    · simp [hrawContent]
  · rw [Disk.read_eq_ok_iff, Disk.read_eq_ok_iff]
    refine ⟨(congrFun h'.contents (.current .raw)).trans (by simp [replaced]),
      (congrFun h'.contents (.current .rendered)).trans ?_⟩
    by_cases hone : p.path (.current .rendered) = p.path (.current .raw)
    · simp [replaced, put, hone]
    · simp [replaced, put, hone]

end Ready
end FilePaths

namespace FileSettings

variable {entries : List (String × Data)} {f : FileSettings}

/-- Which of the four paths that accepted settings give are the same. -/
theorem paths_overlap (h : check entries = .good f) (hfile : f.file.name ≠ "")
    (directory : Path) :
    ∃ p, f.paths directory = .ok p ∧
      (p.path (.current .rendered) = p.path (.current .raw) ↔ f.rawExtension = f.file.suffix) ∧
      (p.path (.current .raw) = p.path (.backup .rendered) ↔
        f.rawExtension = f.file.suffix ++ f.backupSuffix) ∧
      (∀ g, p.path (.current .rendered) ≠ p.path (.backup g)) ∧
      p.path (.current .raw) ≠ p.path (.backup .raw) ∧
      (p.path (.backup .rendered) = p.path (.backup .raw) →
        p.path (.current .rendered) = p.path (.current .raw)) := by
  obtain ⟨p, hp, -, hpath⟩ := paths_endings h hfile directory
  obtain ⟨-, hbackup, hraw⟩ := check_good h
  have hsuffix : Path.IsSuffix f.file.suffix.toList := (Path.splitName_cases _).1
  have hsame : ∀ t t', p.path t = p.path t' ↔
      Slot.ending f.file.suffix.toList f.backupSuffix.toList f.rawExtension.toList t =
        Slot.ending f.file.suffix.toList f.backupSuffix.toList f.rawExtension.toList t' := by
    intro t t'
    rw [hpath, hpath, (Path.beside_injective _).eq_iff, List.append_cancel_left_eq]
  refine ⟨p, hp, ?_, ?_, ?_, ?_, ?_⟩
  · rw [hsame, ← String.toList_inj]
    exact eq_comm
  · rw [hsame, ← String.toList_inj, String.toList_append]
    rfl
  · exact fun g => mt (hsame _ _).mp (Slot.ending_active_ne hbackup hsuffix hraw g)
  · exact mt (hsame _ _).mp (Slot.ending_raw_ne hbackup _ _)
  · rw [hsame, hsame]
    exact fun heq => (Slot.eq_of_ending_backup hbackup hsuffix hraw heq).symm

/-- On a disk with both current files, where nothing is refused: a replacement can always be read
back just if the extension of raw files is not the suffix of the active file, and a backup, a
replacement and a revert always restore both files just if it is not that suffix with the backup
suffix behind it. -/
theorem usable_iff (h : check entries = .good f) (hfile : f.file.name ≠ "") (directory : Path) :
    ∃ p, f.paths directory = .ok p ∧
      ∀ {σ : Type} (link : Link σ) (w : World σ) (content rawContent : Bytes),
        link.Lets w.host → p.Reads content rawContent w →
        (∀ q ∈ p.backups, w.disk.isDirectory q = false) →
        ((∀ rendered raw, (FileSet.persist link p rendered raw).Ends w
            (fun _ w' => w'.disk.read p.raw = .ok raw ∧
              ∃ stored, w'.disk.read p.active = .ok stored ∧
                FilePaths.decodeAt p.active stored = .ok rendered)
            fun _ _ => False) ↔ f.rawExtension ≠ f.file.suffix) ∧
        ((∀ rendered raw, (FileSet.roundTrip link p rendered raw).Ends w
            (fun restored w' => restored = true ∧ p.Reads content rawContent w')
            fun _ _ => False) ↔ f.rawExtension ≠ f.file.suffix ++ f.backupSuffix) := by
  obtain ⟨p, hp, hone, hoverlap, hactive, hraw, htwin⟩ := paths_overlap h hfile directory
  have hbeside : p.Beside := FilePaths.path_of_derive hp
  refine ⟨p, hp, fun link w content rawContent hlets hreads hbackups => ?_⟩
  have hready : p.Ready link w.books (p.contents w.disk) w :=
    ⟨hlets, rfl, rfl, hbeside.isDirectory_of_read (s := .current .rendered) hreads.1⟩
  have hbackups : ∀ g, p.contents w.disk (.backup g) ≠ some .directory := by
    intro g hdir
    have hmem : p.path (.backup g) ∈ p.backups := by
      cases g <;> simp [FilePaths.path, FilePaths.backups]
    simpa [hbackups _ hmem] using Disk.isDirectory_iff.mpr hdir
  constructor
  · rw [Ne, ← hone]
    constructor
    · intro hall heq
      -- the raw content cannot be decoded to two different ones
      have hdecoded : ∀ rendered, FilePaths.decodeAt p.active [] = .ok rendered := by
        intro rendered
        have hends := (hall rendered []).and
          (hready.ends_persist_reads hbeside hreads rendered [])
        refine Ends.world (Q := fun _ => FilePaths.decodeAt p.active [] = .ok rendered)
          (hends.mono ?_ fun _ _ he => he.1.elim)
        rintro - w' ⟨⟨-, stored, hstored, hdecoded⟩, -, hread⟩
        rw [if_pos heq] at hread
        obtain rfl : stored = [] := by simpa using hstored.symm.trans hread
        exact hdecoded
      simpa using (hdecoded []).symm.trans (hdecoded [0])
    · intro hne rendered raw
      refine (hready.ends_persist_reads hbeside hreads rendered raw).mono ?_ fun _ _ he => he
      rintro - w' ⟨hraw, hread⟩
      rw [if_neg hne] at hread
      exact ⟨hraw, _, hread, FilePaths.decodeAt_encode rendered⟩
  · rw [Ne, ← hoverlap]
    constructor
    · intro hall heq
      have hends := (hall [] (0 :: content)).and
        (hready.ends_roundTrip_overlapping hbeside hbackups hreads heq hactive hraw []
          (0 :: content))
      -- the active file would hold two contents
      refine Ends.world (Q := fun _ => False) (hends.mono ?_ fun _ _ he => he.1)
      rintro _ w' ⟨⟨-, hread, -⟩, hnew⟩
      simpa using hread.symm.trans hnew
    · intro hne rendered raw
      refine hready.ends_roundTrip_reads hbeside hbackups hreads ?_ htwin rendered raw
      rintro (_ | _) g
      · exact hactive g
      · cases g with
        | rendered => exact hne
        | raw => exact hraw

end FileSettings

/-! ### The raw file as the backup of the active one -/

namespace Sample

/-- The paths that the settings give that overlap. -/
def overlapped : FilePaths where
  active := { anchor := .slash, parts := ["conf", "flow.json"] }
  backup := { anchor := .slash, parts := ["conf", "flow.json.backup"] }
  raw := { anchor := .slash, parts := ["conf", "flow.json.backup"] }
  backupRaw := { anchor := .slash, parts := ["conf", "flow.backup.json.backup"] }

theorem overlap_paths : overlap.paths { anchor := .slash, parts := [] } = .ok overlapped := by
  decide +kernel

/-- A world with both files. -/
def paired : World Nat where
  disk := { entries := [(["conf"], .directory), (["conf", "flow.json"], .file [1]),
    (["conf", "flow.json.backup"], .file [2])] }
  host := 0

/-- The link to a host that refuses nothing. -/
def freeLink : Link Nat := (Host.plain (fun _ => none) fun _ _ => none).link (Updater.console plan) 0

end Sample

namespace FileSettings

attribute [local irreducible] Act.Ends in
/-- Accepted settings under which what was replaced can be read back, but not always be put
back. -/
theorem usable_iff_overlap :
    check Sample.overlapping = .good Sample.overlap ∧ Sample.overlap.file.name ≠ "" ∧
      Sample.freeLink.Lets Sample.paired.host ∧ Sample.overlapped.Reads [1] [2] Sample.paired ∧
      (∀ q ∈ Sample.overlapped.backups, Sample.paired.disk.isDirectory q = false) ∧
      (∀ rendered raw, (FileSet.persist Sample.freeLink Sample.overlapped rendered raw).Ends
        Sample.paired
        (fun _ w' => w'.disk.read Sample.overlapped.raw = .ok raw ∧
          ∃ stored, w'.disk.read Sample.overlapped.active = .ok stored ∧
            FilePaths.decodeAt Sample.overlapped.active stored = .ok rendered)
        fun _ _ => False) ∧
      ¬ ∀ rendered raw, (FileSet.roundTrip Sample.freeLink Sample.overlapped rendered raw).Ends
        Sample.paired (fun restored w' => restored = true ∧ Sample.overlapped.Reads [1] [2] w')
        fun _ _ => False := by
  have hname : Sample.overlap.file.name ≠ "" := by decide +kernel
  have hlets : Sample.freeLink.Lets Sample.paired.host := fun _ _ => rfl
  have hreads : Sample.overlapped.Reads [1] [2] Sample.paired :=
    ⟨by decide +kernel, by decide +kernel⟩
  have hbackups : ∀ q ∈ Sample.overlapped.backups, Sample.paired.disk.isDirectory q = false := by
    decide +kernel
  obtain ⟨p, hp, husable⟩ := usable_iff Sample.check_overlapping hname
    { anchor := .slash, parts := [] }
  obtain rfl : Sample.overlapped = p := Except.ok.inj (Sample.overlap_paths.symm.trans hp)
  obtain ⟨hpersist, htrip⟩ := husable Sample.freeLink Sample.paired [1] [2] hlets hreads hbackups
  refine ⟨Sample.check_overlapping, hname, hlets, hreads, hbackups,
    hpersist.mpr (by decide +kernel), fun hall => htrip.mp hall (by decide +kernel)⟩

end FileSettings
end HotSwap
