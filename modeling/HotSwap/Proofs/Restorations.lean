/-
What a revert restores, and from what.

The books of a set of files say which files have a backup.  Whatever a caller does with the
files, and whichever accesses are refused, the books are right: they speak of the files that
the most recent backup has copied, and what was copied still stands in the backups.  A revert
brings back that, and nothing else.

* `World.Notes` — a stretch with its entries in the journal;
* `FileSet.ends_backup_copies` — a backup notes a file in the books when it has copied it;
* `FileSet.Kept` — the books and the backups agree with the most recent backup
  (`FileSet.kept_of_follows`: always);
* `FileSet.Restored` — what becomes of one file in a revert, and which accesses that takes;
* `FileSet.restoresOnly` — all of this, for every script.

Design notes: what a backup has copied is read off the journal, by what was moved onto which
path while it ran.
-/
import HotSwap.Proofs.Confinement
import HotSwap.Proofs.Scripts

namespace HotSwap

open Act

variable {σ β α : Type} {p : FilePaths} {view : σ → β} {link : Link σ} {w w' w'' : World σ}
  {es es' : List Entry} {f : Form}

/-! ### Entries -/

/-- The path onto which a finished file was moved. -/
def Entry.replaced? : Entry → Option Path
  | .accessed (.replace _ target) none _ => some target
  | _ => none

/-- The paths onto which finished files were moved. -/
def replacedIn (es : List Entry) : List Path := es.filterMap Entry.replaced?

@[simp] theorem replacedIn_append (es es' : List Entry) :
    replacedIn (es ++ es') = replacedIn es ++ replacedIn es' := List.filterMap_append

namespace World

/-- The journal goes on with the entries, and the books are as before. -/
def Notes (es : List Entry) (w w' : World σ) : Prop :=
  w'.journal = w.journal ++ es ∧ w'.books = w.books

theorem Notes.trans (h : w.Notes es w') (h' : w'.Notes es' w'') : w.Notes (es ++ es') w'' :=
  ⟨by rw [h'.1, h.1, List.append_assoc], h'.2.trans h.2⟩

theorem Notes.since (h : w.Notes es w') : w.since w' = es := by
  rw [World.since, h.1, List.drop_left]

theorem Notes.grown (h : w.Notes es w') : w.Grown w' := ⟨es, h.1.symm⟩

end World

instance : Course (World.Notes (σ := σ) []) where
  refl _ := ⟨(List.append_nil _).symm, rfl⟩
  trans h h' := h.trans h'
  log _ _ := ⟨(List.append_nil _).symm, rfl⟩
  polls _ _ := ⟨(List.append_nil _).symm, rfl⟩

/-- An act on files and the entry about its end. -/
theorem ends_noted_notes {a : Act σ α} (entry : Option Fault → Disk → Entry)
    (ha : a.Within (World.Notes []) Fault.Refusal) (w : World σ) :
    (Act.noted entry a).Ends w (fun _ w' => w.Notes [entry none w'.disk] w')
      fun e w' => e.Refusal ∧ w.Notes [entry (some e) w'.disk] w' := by
  have henter : ∀ {w' : World σ} (e : Entry), w.Notes [] w' → w.Notes [e] (w'.enter e) :=
    fun e h => ⟨by rw [World.enter, h.1, List.append_nil], h.2⟩
  refine (ends_noted entry).mpr ((ha w).mono ?_ ?_)
  · exact fun _ w' h => henter _ h
  · exact fun e w' h => ⟨h.1, henter _ h.2⟩

section

variable (link)

theorem leave_notes (a : Access) : (link.leave a).Within (World.Notes []) Fault.Refusal := by
  refine Within.bind (fun _ => ⟨(List.append_nil _).symm, rfl⟩) fun answer => ?_
  cases answer with
  | none => exact within_pure _
  | some code => exact within_raise ⟨_, rfl⟩

theorem changeDisk_notes (f : World σ → Disk) :
    (Act.change fun w => { w with disk := f w } : Act σ Unit).Within (World.Notes [])
      Fault.Refusal :=
  fun _ => ⟨(List.append_nil _).symm, rfl⟩

theorem applyDisk_notes (refusal : Nat → SystemError) (answer : Except Nat Disk) :
    (Link.applyDisk refusal answer : Act σ Unit).Within (World.Notes []) Fault.Refusal := by
  cases answer with
  | ok disk => exact changeDisk_notes fun _ => disk
  | error code => exact within_raise ⟨_, rfl⟩

theorem ends_readFile_notes (path : Path) (w : World σ) :
    (link.readFile path).Ends w
      (fun _ w' => w.Notes [.accessed (.read path) none w'.disk] w')
      fun e w' => e.Refusal ∧ w.Notes [.accessed (.read path) (some e) w'.disk] w' := by
  refine ends_noted_notes (.accessed (.read path))
    ((leave_notes link _).bind fun _ => (within_look _).bind fun disk => ?_) w
  split
  · exact within_pure _
  · exact within_raise ⟨_, rfl⟩

theorem ends_discardFile_notes (path : Path) (w : World σ) :
    (link.discardFile path).Ends w
      (fun _ w' => w.Notes [.accessed (.remove path) none w'.disk] w')
      fun e w' => e.Refusal ∧ w.Notes [.accessed (.remove path) (some e) w'.disk] w' := by
  refine ends_noted_notes (.accessed (.remove path))
    ((leave_notes link _).bind fun _ => (within_look _).bind fun disk => ?_) w
  split
  · next changed _ => exact changeDisk_notes fun _ => changed
  · split
    · exact within_pure _
    · exact within_raise ⟨_, rfl⟩

theorem ends_moveFile_notes (source target : Path) (w : World σ) :
    (link.moveFile source target).Ends w
      (fun _ w' => w.Notes [.accessed (.replace source target) none w'.disk] w')
      fun e w' => e.Refusal ∧
        w.Notes [.accessed (.replace source target) (some e) w'.disk] w' :=
  ends_noted_notes (.accessed (.replace source target))
    ((leave_notes link _).bind fun _ => (within_look _).bind fun _ => applyDisk_notes _ _) w

theorem ends_makeFile_notes (path : Path) (content : Bytes) (w : World σ) :
    (Link.makeFile path content).Ends w
      (fun _ w' => w.Notes [.made path none w'.disk] w')
      fun e w' => e.Refusal ∧ w.Notes [.made path (some e) w'.disk] w' :=
  ends_noted_notes (.made path) ((within_look _).bind fun _ => applyDisk_notes _ _) w

theorem ends_ensureDirectory_notes (path : Path) (w : World σ) :
    (Link.ensureDirectory path).Ends w
      (fun _ w' => w.Notes [.made path none w'.disk] w')
      fun e w' => e.Refusal ∧ w.Notes [.made path (some e) w'.disk] w' := by
  refine ends_noted_notes (.made path) ((within_look _).bind fun disk => ?_) w
  refine (changeDisk_notes fun _ => _).bind fun _ => ?_
  split
  · exact within_pure _
  · exact within_raise ⟨_, rfl⟩

/-- The entries of a write: when it succeeds, none has failed and one file was moved onto the
target; otherwise one has failed, and nothing was moved. -/
theorem ends_writeAtomically_notes (target : Path) (content : Bytes) (apart : List Path)
    (w : World σ) :
    (writeAtomically link target content apart).Ends w
      (fun _ w' => ∃ es, w.Notes es w' ∧ (∀ e ∈ es, e.failed = false) ∧ replacedIn es = [target])
      fun e w' => e.Refusal ∧ ∃ es, w.Notes es w' ∧ (∃ e ∈ es, e.failed = true) ∧
        replacedIn es = [] := by
  rw [writeAtomically]
  refine (ends_ensureDirectory_notes target.parent w).bind ?_ fun e w₁ h₁ =>
    ⟨h₁.1, _, h₁.2, ⟨_, List.mem_singleton_self _, rfl⟩, rfl⟩
  rintro - w₁ h₁
  rw [ends_bind, ends_look]
  refine (ends_makeFile_notes _ content w₁).bind ?_ fun e w₂ h₂ =>
    ⟨h₂.1, _, h₁.trans h₂.2, ⟨_, List.mem_append_right _ (List.mem_singleton_self _), rfl⟩, rfl⟩
  rintro - w₂ h₂
  rw [ends_bind, ends_outcome]
  refine (ends_moveFile_notes link _ target w₂).mono ?_ ?_
  · rintro - w₃ h₃
    exact ⟨_, (h₁.trans h₂).trans h₃, by simp [Entry.failed], rfl⟩
  · rintro e w₃ ⟨he, h₃⟩
    have h₁₃ := (h₁.trans h₂).trans h₃
    refine (ends_discardFile_notes link _ w₃).bind ?_ ?_
    · rintro - w₄ h₄
      exact ⟨he, _, h₁₃.trans h₄, by simp [Entry.failed], rfl⟩
    · rintro e' w₄ ⟨he', h₄⟩
      exact ⟨he', _, h₁₃.trans h₄, by simp [Entry.failed], rfl⟩

end

/-! ### What a backup has copied -/

/-- Nothing is moved onto anything, and the books are as before. -/
def World.Unreplacing (w w' : World σ) : Prop := ∃ es, w.Notes es w' ∧ replacedIn es = []

instance : Course (World.Unreplacing (σ := σ)) where
  refl w := ⟨[], Course.refl (R := World.Notes []) w, rfl⟩
  trans := fun ⟨es, h, hes⟩ ⟨es', h', hes'⟩ => ⟨es ++ es', h.trans h', by simp [hes, hes']⟩
  log w log := ⟨[], Course.log (R := World.Notes []) w log, rfl⟩
  polls w n := ⟨[], Course.polls (R := World.Notes []) w n, rfl⟩

/-- Since a backup began in `v`, the files of these forms were copied, and the books say so. -/
structure World.Copies (p : FilePaths) (fs : List Form) (v w : World σ) : Prop where
  grown : v.Grown w
  copied : w.books.copied = (fs.map fun f => p.path (.current f)).reverse
  replaced : replacedIn (v.since w) = fs.map fun f => p.path (.backup f)

variable {fs : List Form} {v : World σ}

theorem World.Copies.unreplacing (h : World.Copies p fs v w) (h' : w.Unreplacing w') :
    World.Copies p fs v w' := by
  obtain ⟨es, hes, hnone⟩ := h'
  refine ⟨h.grown.trans hes.grown, hes.2 ▸ h.copied, ?_⟩
  rw [h.grown.since_trans hes.grown, replacedIn_append, hes.since, hnone, List.append_nil,
    h.replaced]

namespace FileSet

theorem discardFile_unreplacing (link : Link σ) (path : Path) :
    (link.discardFile path).Within World.Unreplacing Fault.Refusal := fun w =>
  (ends_discardFile_notes link path w).mono (fun _ _ h => ⟨_, h, rfl⟩)
    fun _ _ h => ⟨h.1, _, h.2, rfl⟩

/-- A file is noted in the books when it has been copied. -/
theorem ends_copy_copies (unreadable : FileProblem) (f : Form) (h : World.Copies p fs v w) :
    (copy link p unreadable (p.path (.current f)) (p.path (.backup f))).Ends w
      (fun _ w' => World.Copies p (fs ++ [f]) v w' ∧
        w'.books.rawWasAbsent = w.books.rawWasAbsent)
      fun _ w' => World.Copies p fs v w' ∧ w'.books.rawWasAbsent = w.books.rawWasAbsent := by
  have hread : (link.readFile (p.path (.current f))).Within World.Unreplacing Fault.Refusal :=
    fun w => (ends_readFile_notes link _ w).mono (fun _ _ h => ⟨_, h, rfl⟩)
      fun _ _ h => ⟨h.1, _, h.2, rfl⟩
  rw [copy]
  refine (explained_within hread w).bind ?_ ?_
  · rintro content w₁ hw₁
    have h₁ := h.unreplacing hw₁
    obtain ⟨-, ⟨-, hbooks₁⟩, -⟩ := hw₁
    have hwrite := ends_writeAtomically_notes link (p.path (.backup f)) content p.all w₁
    refine (ends_explained hwrite).bind ?_ ?_
    · rintro - w₂ ⟨es, hes, -, hreplaced⟩
      refine ⟨⟨h₁.grown.trans hes.grown, ?_, ?_⟩, by rw [← hbooks₁, ← hes.2]⟩
      · show p.path (.current f) :: w₂.books.copied = _
        rw [hes.2, h₁.copied]
        simp
      · show replacedIn (v.since w₂) = _
        rw [h₁.grown.since_trans hes.grown, replacedIn_append, h₁.replaced, hes.since, hreplaced]
        simp
    · rintro e w₂ ⟨-, es, hes, -, hnone⟩
      exact ⟨h₁.unreplacing ⟨es, hes, hnone⟩, by rw [hes.2, hbooks₁]⟩
  · rintro e w₁ ⟨-, hw₁⟩
    obtain ⟨-, ⟨-, hbooks₁⟩, -⟩ := id hw₁
    exact ⟨h.unreplacing hw₁, by rw [hbooks₁]⟩

/-- A backup notes in the books what it has copied, and at its end whether there was a raw
file. -/
theorem ends_backup_copies (hp : p.Separate) (hlink : link.Steady view) (v : World σ) :
    (backup link p).Ends v
      (fun _ w' => (∃ fs, World.Copies p fs v w') ∧
        w'.books.rawWasAbsent = some (!v.disk.isFile p.raw))
      fun _ w' => (∃ fs, World.Copies p fs v w') ∧ w'.books.rawWasAbsent = none := by
  have hprior : Unchanged (p.contents v.disk) (p.contents v.disk) := fun _ => rfl
  rw [backup, ends_bind, ends_enter, ends_bind, ends_changeBooks]
  generalize hw₀ : ({ v.enter (.began .backup) with books := {} } : World σ) = w₀
  have hcopies₀ : World.Copies p [] v w₀ := by
    subst hw₀
    refine ⟨World.grown_enter v _, rfl, ?_⟩
    show replacedIn (v.since (v.enter (.began .backup))) = []
    rw [World.since_enter]
    rfl
  have hbooks₀ : w₀.books = {} := by rw [← hw₀]
  have hstart : p.Guarded view (p.contents v.disk) (p.contents v.disk) w₀ w₀ := by
    refine .refl ?_ view
    rw [hbooks₀]
    exact .of_unchanged (by rw [← hw₀]; exact hprior)
  have hstale : (removeStale link p.backups).Within World.Unreplacing fun e => e.interrupts = false :=
    removeStale_within_of_discard fun path _ => discardFile_unreplacing link path
  refine ((ends_removeStale hp hlink [.rendered, .raw] hstart hbooks₀
    (by rw [← hw₀]; exact hprior)).and (hstale w₀)).bind ?_ ?_
  · rintro - w₁ ⟨⟨hw₁, hbooks₁, hprior₁⟩, hunreplacing⟩
    have hcopies₁ := hcopies₀.unreplacing hunreplacing
    refine ((ends_copy hp hlink (f := .rendered) .unreadableActive hw₁ hprior₁
      (by simp [hbooks₁])).and (ends_copy_copies .unreadableActive .rendered hcopies₁)).bind ?_ ?_
    · rintro - w₂ ⟨⟨-, hprior₂, -⟩, hcopies₂, habsent₂⟩
      -- what is found at the raw path is what stood there at the beginning
      have hfile : w₂.disk.isFile p.raw = v.disk.isFile p.raw := by
        rw [Bool.eq_iff_iff, Disk.isFile_iff, Disk.isFile_iff]
        show (∃ content, p.contents w₂.disk (.current .raw) = _) ↔
          ∃ content, p.contents v.disk (.current .raw) = _
        rw [hprior₂]
      rw [backupRaw, ends_bind, ends_bind, ends_look, hfile]
      cases v.disk.isFile p.raw with
      | true =>
        rw [if_pos rfl, ends_bind]
        refine (ends_copy_copies .unreadableRaw .raw hcopies₂).mono ?_ ?_
        · rintro - w₃ ⟨hcopies₃, -⟩
          exact ⟨⟨_, hcopies₃.grown, hcopies₃.copied, hcopies₃.replaced⟩, rfl⟩
        · rintro - w₃ ⟨hcopies₃, habsent₃⟩
          exact ⟨⟨_, hcopies₃⟩, by rw [habsent₃, habsent₂, hbooks₁]⟩
      | false =>
        exact ⟨⟨_, hcopies₂.grown, hcopies₂.copied, hcopies₂.replaced⟩, rfl⟩
    · rintro e w₂ ⟨-, hcopies₂, habsent₂⟩
      exact ⟨⟨_, hcopies₂⟩, by rw [habsent₂, hbooks₁]⟩
  · rintro e w₁ ⟨-, -, hunreplacing⟩
    obtain ⟨-, ⟨-, hbooks₁⟩, -⟩ := id hunreplacing
    exact ⟨⟨_, hcopies₀.unreplacing hunreplacing⟩, by rw [hbooks₁, hbooks₀]⟩

/-! ### What the books say -/

/-- The backup that began in `v` has copied a file, which then held this. -/
def Captured (link : Link σ) (p : FilePaths) (v : World σ) (f : Form) (content : Bytes) : Prop :=
  v.disk.read (p.path (.current f)) = .ok content ∧
    p.path (.backup f) ∈ replacedIn (v.since ((backup link p).run v).2)

/-- The backup that began in `v` ran to its end, and found no raw file. -/
def FoundNoRaw (link : Link σ) (p : FilePaths) (v : World σ) : Prop :=
  ((backup link p).run v).1 = .ok () ∧ v.disk.isFile p.raw = false

/-- The books and the backups agree with the most recent backup. -/
structure Kept (link : Link σ) (p : FilePaths) (latest : Option (World σ)) (w : World σ) :
    Prop where
  copied : ∀ f, p.path (.current f) ∈ w.books.copied ↔
    ∃ v ∈ latest, ∃ content, Captured link p v f content
  absent : w.books.rawWasAbsent = some true ↔ ∃ v ∈ latest, FoundNoRaw link p v
  backup : ∀ v ∈ latest, ∀ f content, Captured link p v f content →
    w.disk.read (p.path (.backup f)) = .ok content

variable {latest : Option (World σ)}

/-- Without a backup, the books are empty. -/
theorem Kept.none (link : Link σ) (p : FilePaths) (hbooks : w.books = {}) :
    Kept link p none w where
  copied f := by simp [hbooks]
  absent := by simp [hbooks]
  backup v hv := by cases hv

end FileSet

/-- The books are the same, and each backup that can be read holds what it held. -/
def World.KeepsBackups (p : FilePaths) (w w' : World σ) : Prop :=
  w'.books = w.books ∧ ∀ f content, w.disk.read (p.path (.backup f)) = .ok content →
    w'.disk.read (p.path (.backup f)) = .ok content

instance : Course (World.KeepsBackups (σ := σ) p) where
  refl _ := ⟨rfl, fun _ _ h => h⟩
  trans h h' := ⟨h'.1.trans h.1, fun f content hread => h'.2 f content (h.2 f content hread)⟩
  log _ _ := ⟨rfl, fun _ _ h => h⟩
  polls _ _ := ⟨rfl, fun _ _ h => h⟩

theorem World.keepsBackups_of_contents (hbooks : w'.books = w.books)
    (h : ∀ f, p.contents w'.disk (.backup f) = p.contents w.disk (.backup f)) :
    w.KeepsBackups p w' :=
  ⟨hbooks, fun f _ hread => Disk.read_eq_ok_iff.mpr ((h f).trans (Disk.read_eq_ok_iff.mp hread))⟩

/-- With nothing to look at, every host is steady. -/
theorem Link.steady_unit (link : Link σ) : link.Steady fun _ => () :=
  ⟨fun _ _ => rfl, fun _ => rfl, fun _ => rfl⟩

namespace FileSet

variable {latest : Option (World σ)}

theorem Kept.keeps (h : Kept link p latest w) (h' : w.KeepsBackups p w') :
    Kept link p latest w' where
  copied f := by rw [h'.1, h.copied f]
  absent := by rw [h'.1, h.absent]
  backup v hv f content hcaptured := h'.2 f content (h.backup v hv f content hcaptured)

/-! ### Orders -/

/-- After a backup, however it ends, the books speak of it. -/
theorem kept_of_backup (hp : p.Separate) (link : Link σ) (v : World σ) :
    Kept link p (some v) ((backup link p).run v).2 := by
  have hprior : Unchanged (p.contents v.disk) (p.contents v.disk) := fun _ => rfl
  have hends := (ends_backup hp link.steady_unit (p.contents v.disk) hprior).and
    (ends_backup_copies hp link.steady_unit v)
  -- what the books say of a backup that has left the world `w'`, with the files in custody
  have hkept : ∀ {w' : World σ} {fs : List Form}, ((backup link p).run v).2 = w' →
      World.Copies p fs v w' →
      Custody p (p.contents v.disk) (p.contents v.disk) w'.books (p.contents w'.disk) →
      (w'.books.rawWasAbsent = some true ↔ FoundNoRaw link p v) → Kept link p (some v) w' := by
    intro w' fs hrun hcopies hcustody habsent
    have hmem : ∀ f, p.path (.current f) ∈ w'.books.copied ↔
        p.path (.backup f) ∈ replacedIn (v.since ((backup link p).run v).2) := fun f => by
      rw [hrun, hcopies.copied, hcopies.replaced, List.mem_reverse]
      simp only [List.mem_map, hp.path_injective.eq_iff, Slot.current.injEq, Slot.backup.injEq]
    constructor
    case copied =>
      intro f
      constructor
      · intro hcopied
        obtain ⟨⟨content, hprior⟩, -⟩ := hcustody.backup f hcopied
        exact ⟨v, rfl, content, Disk.read_eq_ok_iff.mpr hprior, (hmem f).mp hcopied⟩
      · rintro ⟨_, ⟨⟩, content, -, hreplaced⟩
        exact (hmem f).mpr hreplaced
    case absent => simpa using habsent
    case backup =>
      rintro _ ⟨⟩ f content ⟨hread, hreplaced⟩
      obtain ⟨-, hbackup⟩ := hcustody.backup f ((hmem f).mpr hreplaced)
      exact Disk.read_eq_ok_iff.mpr (hbackup.trans (Disk.read_eq_ok_iff.mp hread))
  rcases hrun : (backup link p).run v with ⟨_ | _, w'⟩
  · obtain ⟨⟨-, hguarded, -⟩, ⟨fs, hcopies⟩, habsent⟩ := hends.error hrun
    refine hkept (by rw [hrun]) hcopies hguarded.custody ?_
    simp [FoundNoRaw, habsent, hrun]
  · obtain ⟨⟨hguarded, -⟩, ⟨fs, hcopies⟩, habsent⟩ := hends.ok hrun
    refine hkept (by rw [hrun]) hcopies hguarded.custody ?_
    simp [FoundNoRaw, habsent, hrun]

/-- Writing a current file keeps the backups. -/
theorem writeAtomically_keepsBackups (hp : p.Separate) (link : Link σ) (f : Form)
    (content : Bytes) :
    (writeAtomically link (p.path (.current f)) content p.all).Within (World.KeepsBackups p)
      Fault.Refusal := fun w => by
  by_cases hbackup : ∃ g n, p.contents w.disk (.backup g) = some n
  · obtain ⟨g, n, hdir⟩ := hbackup
    refine (ends_writeAtomically hp link.steady_unit hdir (.current f) content).mono ?_ ?_
    · rintro - w' ⟨-, h⟩
      refine World.keepsBackups_of_contents h.books fun g => ?_
      rw [h.contents, Function.update_of_ne (by simp)]
    · rintro e w' ⟨hrefusal, h⟩
      exact ⟨hrefusal, World.keepsBackups_of_contents h.books fun g => by rw [h.contents]⟩
  · -- no backup is there: nothing can be lost but the books
    have hvacuous : ∀ {w' : World σ}, w'.books = w.books → w.KeepsBackups p w' := fun hbooks =>
      ⟨hbooks, fun g content hread => absurd ⟨g, _, Disk.read_eq_ok_iff.mp hread⟩ hbackup⟩
    refine (ends_writeAtomically_notes link _ content p.all w).mono ?_ ?_
    · rintro - w' ⟨es, h, -⟩
      exact hvacuous h.2
    · rintro e w' ⟨hrefusal, es, h, -⟩
      exact ⟨hrefusal, hvacuous h.2⟩

theorem persist_keepsBackups (hp : p.Separate) (link : Link σ) (rendered raw : Bytes) :
    (persist link p rendered raw).Within (World.KeepsBackups p) fun e => e.interrupts = false :=
  Within.bind (fun _ => ⟨rfl, fun _ _ h => h⟩) fun _ =>
    (explained_within (writeAtomically_keepsBackups hp link .rendered _)).bind fun _ =>
      (explained_within (writeAtomically_keepsBackups hp link .raw _)).bind fun _ => within_say

/-! ### One file -/

/-- What becomes of a file in a revert, and the accesses that this takes; where one of them fails,
the file is left as it was. -/
inductive Restored (link : Link σ) (p : FilePaths) (latest : Option (World σ)) (f : Form)
    (es : List Entry) (before after : Option Node) : Prop
  /-- A file that was copied is read back from its backup. -/
  | copied (v : World σ) (content : Bytes) (is_latest : v ∈ latest)
      (captured : Captured link p v f content)
      (tried : ∃ failure disk,
        es.head? = some (.accessed (.read (p.path (.backup f))) failure disk))
      (reached : after = if es.any Entry.failed then before else some (.file content))
  /-- Where no raw file was found, the one that is there now is removed. -/
  | absent (v : World σ) (is_raw : f = .raw) (is_latest : v ∈ latest)
      (found : FoundNoRaw link p v)
      (tried : ∃ failure disk, es = [.accessed (.remove p.raw) failure disk])
      (reached : after = if es.any Entry.failed then before else none)
  /-- Any other file is left alone. -/
  | left (uncopied : ∀ v ∈ latest, ∀ content, ¬ Captured link p v f content)
      (unknown : f = .raw → ∀ v ∈ latest, ¬ FoundNoRaw link p v) (untried : es = [])
      (same : after = before)

/-- The restore of one file, with its entries in the journal. -/
structure Restoration (link : Link σ) (p : FilePaths) (latest : Option (World σ)) (f : Form)
    (es : List Entry) (w : World σ) (restored : Bool) (w' : World σ) : Prop where
  notes : w.Notes es w'
  becomes : Restored link p latest f es (p.contents w.disk (.current f))
    (p.contents w'.disk (.current f))
  result : restored = !es.any Entry.failed
  others : ∀ s, s ≠ .current f → p.contents w'.disk s = p.contents w.disk s

theorem Restoration.kept {restored : Bool} (h : Restoration link p latest f es w restored w')
    (hkept : Kept link p latest w) : Kept link p latest w' :=
  hkept.keeps (World.keepsBackups_of_contents h.notes.2 fun g => h.others _ (by simp))

/-- A file that was copied is read back and put into its place. -/
theorem ends_restoreCopied_restoration (hp : p.Separate) {v : World σ} {content : Bytes}
    (hv : v ∈ latest) (hcaptured : Captured link p v f content)
    (hbackup : w.disk.read (p.path (.backup f)) = .ok content)
    (hcopied : p.path (.current f) ∈ w.books.copied) :
    (restore link p (p.path (.current f)) (p.path (.backup f))).Ends w
      (fun restored w' => ∃ es, Restoration link p latest f es w restored w')
      (fun _ _ => False) := by
  rw [restore, ends_bind, ends_books, if_pos (by simpa using hcopied), ends_bind, ends_rescue]
  refine ((ends_readFile link.steady_unit p (.backup f) w).and
    (ends_readFile_notes link _ w)).bind ?_ ?_
  · rintro read w₁ ⟨⟨hread, h₁⟩, hnotes₁⟩
    obtain rfl : read = content := by
      rw [Disk.read_eq_ok_iff] at hbackup
      simpa using hread.symm.trans hbackup
    have hdir : p.contents w₁.disk (.backup f) = some (.file read) := by
      rw [h₁.contents]
      exact hread
    refine ((ends_writeAtomically hp link.steady_unit hdir (.current f) read).and
      (ends_writeAtomically_notes link _ read p.all w₁)).mono ?_ ?_
    · rintro - w₂ ⟨⟨-, h₂⟩, es, hnotes₂, hok, -⟩
      have hclean : es.any Entry.failed = false := by simpa using hok
      refine ⟨_, hnotes₁.trans hnotes₂, .copied v read hv hcaptured ⟨_, _, rfl⟩ ?_, ?_,
        fun s hs => ?_⟩
      · simp [h₂.contents, hclean, Entry.failed]
      · simp [hclean, Entry.failed]
      · rw [h₂.contents, Function.update_of_ne hs, h₁.contents]
    · rintro _ w₂ ⟨⟨⟨refusal, rfl⟩, h₂⟩, -, es, hnotes₂, hfailed, -⟩
      have hfailed : es.any Entry.failed = true := by simpa using hfailed
      have hsame : p.contents w₂.disk = p.contents w.disk := h₂.contents.trans h₁.contents
      refine ⟨_, hnotes₁.trans hnotes₂, .copied v read hv hcaptured ⟨_, _, rfl⟩ ?_, ?_,
        fun s _ => congrFun hsame s⟩
      · rw [List.any_append, hfailed, Bool.or_true, if_pos rfl]
        exact congrFun hsame _
      · simp [hfailed]
  · rintro _ w₁ ⟨⟨⟨refusal, rfl⟩, h₁⟩, -, hnotes₁⟩
    exact ⟨_, hnotes₁, .copied v content hv hcaptured ⟨_, _, rfl⟩ (congrFun h₁.contents _), rfl,
      fun s _ => congrFun h₁.contents s⟩

/-- Where no raw file was found, the one that is there now is removed. -/
theorem ends_restoreAbsent_restoration (hp : p.Separate) {v : World σ} (hv : v ∈ latest)
    (hfound : FoundNoRaw link p v) :
    (removeLogged link (p.path (.current .raw))).Ends w
      (fun restored w' => ∃ es, Restoration link p latest .raw es w restored w')
      (fun _ _ => False) := by
  rw [removeLogged, ends_bind, ends_rescue]
  refine ((ends_discardFile hp link.steady_unit (.current .raw) w).and
    (ends_discardFile_notes link _ w)).mono ?_ ?_
  · rintro - w₁ ⟨⟨-, h₁⟩, hnotes₁⟩
    refine ⟨_, hnotes₁, .absent v rfl hv hfound ⟨_, _, rfl⟩ ?_, rfl, fun s hs => ?_⟩
    · rw [h₁.contents, Function.update_self]
      rfl
    · rw [h₁.contents, Function.update_of_ne hs]
  · rintro _ w₁ ⟨⟨⟨refusal, rfl⟩, h₁⟩, -, hnotes₁⟩
    exact ⟨_, hnotes₁, .absent v rfl hv hfound ⟨_, _, rfl⟩ (congrFun h₁.contents _), rfl,
      fun s _ => congrFun h₁.contents s⟩

/-- A restore brings back what the most recent backup has copied, and nothing else. -/
theorem ends_restore_restoration (hp : p.Separate) (hkept : Kept link p latest w) (f : Form) :
    (restore link p (p.path (.current f)) (p.path (.backup f))).Ends w
      (fun restored w' => ∃ es, Restoration link p latest f es w restored w')
      (fun _ _ => False) := by
  by_cases hcopied : p.path (.current f) ∈ w.books.copied
  · obtain ⟨v, hv, content, hcaptured⟩ := (hkept.copied f).mp hcopied
    exact ends_restoreCopied_restoration hp hv hcaptured (hkept.backup v hv f content hcaptured)
      hcopied
  · rw [restore, ends_bind, ends_books, if_neg (by simpa using hcopied)]
    split
    · next habsent =>
      simp only [Bool.and_eq_true, beq_iff_eq] at habsent
      obtain rfl : f = .raw := by
        have hslot : Slot.current f = .current .raw := hp.path_injective habsent.1
        simpa using hslot
      obtain ⟨v, hv, hfound⟩ := hkept.absent.mp habsent.2
      exact ends_restoreAbsent_restoration hp hv hfound
    · next habsent =>
      refine ⟨[], Course.log (R := World.Notes []) w _, .left ?_ ?_ rfl rfl, rfl, fun _ _ => rfl⟩
      · intro v hv content hcaptured
        exact hcopied ((hkept.copied f).mpr ⟨v, hv, content, hcaptured⟩)
      · rintro rfl v hv hfound
        exact habsent (by simp [FilePaths.path, hkept.absent.mpr ⟨v, hv, hfound⟩])

/-! ### A revert -/

/-- A revert: each of the two files becomes what it has to become, whatever becomes of the other
one, and the result says whether every access has gone well. -/
def Reverted (link : Link σ) (p : FilePaths) (latest : Option (World σ)) (w : World σ)
    (restored : Bool) (w' : World σ) : Prop :=
  ∃ parts : Form → List Entry,
    w.since w' = .began .revert :: (parts .rendered ++ parts .raw) ∧
    (∀ f, Restored link p latest f (parts f) (w.disk.found (p.path (.current f)))
      (w'.disk.found (p.path (.current f)))) ∧
    restored = !(w.since w').any Entry.failed

theorem ends_revert_reverted (hp : p.Separate) (hkept : Kept link p latest w) :
    (revert link p).Ends w
      (fun restored w' => Reverted link p latest w restored w' ∧ Kept link p latest w')
      (fun _ _ => False) := by
  rw [revert, ends_bind, ends_enter]
  have hbegan : w.Notes [.began .revert] (w.enter (.began .revert)) := ⟨rfl, rfl⟩
  have hkept₀ : Kept link p latest (w.enter (.began .revert)) := hkept.keeps ⟨rfl, fun _ _ h => h⟩
  refine (ends_restore_restoration hp hkept₀ .rendered).bind ?_ fun _ _ he => he
  rintro rendered w₁ ⟨es₁, h₁⟩
  refine (ends_restore_restoration hp (h₁.kept hkept₀) .raw).bind ?_ fun _ _ he => he
  rintro raw w₂ ⟨es₂, h₂⟩
  have hsince := ((hbegan.trans h₁.notes).trans h₂.notes).since
  refine ⟨⟨fun f => if f = .rendered then es₁ else es₂, by simpa using hsince, ?_, ?_⟩,
    h₂.kept (h₁.kept hkept₀)⟩
  · intro f
    cases f with
    | rendered =>
      have hbecomes := h₁.becomes
      rwa [← h₂.others (.current .rendered) (by simp)] at hbecomes
    | raw =>
      have hbecomes := h₂.becomes
      rwa [h₁.others (.current .raw) (by simp)] at hbecomes
  · rw [hsince, h₁.result, h₂.result]
    simp [Entry.failed]

/-! ### Scripts -/

/-- The books after an order, if they were right before. -/
theorem kept_of_order (hp : p.Separate) (hkept : Kept link p (latestBackup ds) w)
    (o : FileOrder) : Kept link p (latestBackup (ds ++ [(o, w)])) ((o.act link p).run w).2 := by
  rw [latestBackup_snoc]
  cases o with
  | backup => exact kept_of_backup hp link w
  | persist rendered raw =>
    have h := persist_keepsBackups hp link rendered raw w
    exact hkept.keeps (h.mono (fun _ _ h => h) fun _ _ h => h.2).world
  | revert =>
    have h := ends_revert_reverted hp hkept
    refine Ends.world (Q := Kept link p (latestBackup ds)) ?_
    exact h.bind (fun _ _ h => h.2) fun _ _ he => he.elim
  | cleanup =>
    have h := ends_cleanup hp link.steady_unit w
    refine Ends.world (Q := Kept link p none) ?_
    exact h.mono (fun _ _ h => .none link p h.2.2) fun _ _ he => he.elim

/-- Whatever is ordered, the books are right. -/
theorem kept_of_follows (hp : p.Separate) (hbooks : w.books = {}) {ds : List (Deed σ)}
    (h : Follows link p w ds w') : Kept link p (latestBackup ds) w' := by
  induction h with
  | nil => exact .none link p hbooks
  | snoc _ o ih => exact kept_of_order hp ih o

/-- Whatever a caller does with the files of a configuration, and whichever accesses are
refused: the books are right about the most recent backup since the last cleanup, what that
has copied stands in the backups, and a revert brings back that and nothing else. -/
theorem restoresOnly {file directory : Path} {backupSuffix rawExtension : String}
    (hpaths : FilePaths.derive file directory backupSuffix rawExtension = .ok p)
    (hdistinct : p.all.Nodup) (link : Link σ) (s : Script) {w₀ : World σ}
    (hbooks : w₀.books = {}) :
    Kept link p (latestBackup (s.deeds link p w₀)) ((s.act link p).run w₀).2 ∧
      ∀ earlier o w later, s.deeds link p w₀ = earlier ++ (o, w) :: later →
        Kept link p (latestBackup earlier) w ∧
          (o = .revert → (revert link p).Ends w
            (fun restored w' => Reverted link p (latestBackup earlier) w restored w')
            (fun _ _ => False)) := by
  have hp := FilePaths.separate_of_derive hpaths hdistinct
  have hfollows : Follows link p w₀ (s.deeds link p w₀) ((s.act link p).run w₀).2 := s.follows w₀
  refine ⟨kept_of_follows hp hbooks hfollows, fun earlier o w later hdeeds => ?_⟩
  have hkept := kept_of_follows hp hbooks (hfollows.at hdeeds)
  exact ⟨hkept, fun _ => (ends_revert_reverted hp hkept).mono (fun _ _ h => h.1) fun _ _ he => he⟩

end FileSet

/-! ### A backup that is refused -/

namespace Sample

/-- A host under which the active file cannot be read after seven accesses. -/
def unreading : Host Nat :=
  Host.plain (fun _ => none) fun a n => if a = .read files.active ∧ 6 < n then some 5 else none

/-- The link to it. -/
def unreadingLink : Link Nat := unreading.link (Updater.console plan) 0

/-- A caller that replaces the files, tries another backup and reverts. -/
def reckless : Script :=
  .next (.order .backup) (.next (.order (.persist [2] [3]))
    (.next (.caught (.order .backup)) (.order .revert)))

/-- The disk in the end. -/
def relapsed : Disk := ((reckless.act unreadingLink files).run world).2.disk

end Sample

namespace FileSet

attribute [local irreducible] Act.Ends in
/-- The second backup takes the first one away and fails, so that the revert leaves the new
content in place. -/
theorem restoresOnly_unreading :
    FilePaths.derive Sample.files.active { anchor := .slash, parts := [] } ".backup" ".raw" =
        .ok Sample.files ∧ Sample.files.all.Nodup ∧ Sample.world.books = {} ∧
      Sample.relapsed.read Sample.files.active = .ok [2] ∧
      Sample.relapsed.isFile Sample.files.backup = false ∧
      ∃ earlier w, Sample.reckless.deeds Sample.unreadingLink Sample.files Sample.world =
          earlier ++ [(.revert, w)] ∧
        Kept Sample.unreadingLink Sample.files (latestBackup earlier) w ∧
        (revert Sample.unreadingLink Sample.files).Ends w
          (fun restored w' =>
            Reverted Sample.unreadingLink Sample.files (latestBackup earlier) w restored w')
          (fun _ _ => False) := by
  refine ⟨Sample.derive_eq, Sample.nodup_files, rfl, by decide +kernel, by decide +kernel, ?_⟩
  have horders : (Sample.reckless.deeds Sample.unreadingLink Sample.files Sample.world).map Prod.fst =
      [.backup, .persist [2] [3], .backup] ++ [.revert] := by
    decide +kernel
  obtain ⟨earlier, last, hdeeds, -, hlast⟩ := List.map_eq_append_iff.mp horders
  obtain ⟨⟨_, w⟩, rfl, rfl⟩ := List.map_eq_singleton_iff.mp hlast
  obtain ⟨hkept, hends⟩ := (restoresOnly Sample.derive_eq Sample.nodup_files Sample.unreadingLink
    Sample.reckless rfl).2 earlier .revert w [] hdeeds
  exact ⟨earlier, w, hdeeds, hkept, hends rfl⟩

end FileSet
end HotSwap
