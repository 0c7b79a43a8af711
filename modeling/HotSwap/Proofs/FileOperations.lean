/-
The operations on the files of a configuration keep them in custody.

* `FilePaths.Guarded` — a stretch of accesses at whose end the files are in custody,
  and of which every recorded disk is intact;
* `ends_backup` — a backup leaves both files unchanged and, if it succeeds, covered;
* `ends_persist` — a persist that succeeds puts the candidate in place;
* `ends_revert` — a revert always ends, and says whether both files are as before;
* `ends_cleanup` — a cleanup always ends, and leaves the current files alone.

Design notes: each operation notes its beginning in the journal; what is said here
is about the stretch after that note.
-/
import HotSwap.Proofs.Accesses
import HotSwap.Proofs.Custody

namespace HotSwap

variable {σ β : Type} {p : FilePaths} {view : σ → β} {link : Link σ} {w₀ w w' w'' : World σ}
  {prior candidate : Contents} {c : Contents} {f : Form}

namespace FilePaths

/-- The files are in custody after a stretch of accesses that kept them intact. -/
structure Guarded (p : FilePaths) (view : σ → β) (prior candidate : Contents) (w w' : World σ) :
    Prop extends Trail p view (Intact prior) w w' where
  custody : Custody p prior candidate w'.books (p.contents w'.disk)

theorem Guarded.refl (h : Custody p prior candidate w.books (p.contents w.disk)) (view : σ → β) :
    p.Guarded view prior candidate w w :=
  ⟨.refl p view _ w, h⟩

theorem Guarded.trans (h : p.Guarded view prior candidate w w')
    (h' : p.Guarded view prior candidate w' w'') : p.Guarded view prior candidate w w'' :=
  ⟨h.toTrail.trans h'.toTrail, h'.custody⟩

theorem Guarded.noted (h : p.Guarded view prior candidate w w') {books : Bookkeeping}
    (hbooks : Custody p prior candidate books (p.contents w'.disk)) (log : Array Record) :
    p.Guarded view prior candidate w { w' with log, books } :=
  ⟨h.toTrail.noted log books, hbooks⟩

theorem Guarded.log (h : p.Guarded view prior candidate w w') (log : Array Record) :
    p.Guarded view prior candidate w { w' with log } :=
  h.noted h.custody log

/-- Accesses that go well keep the custody, if their result is in custody. -/
theorem Guarded.done (h : p.Guarded view prior candidate w w') (h' : p.Done view c w' w'')
    (hc : Custody p prior candidate w'.books c) : p.Guarded view prior candidate w w'' where
  toTrail := by
    refine h.toTrail.trans (h'.toTrail.mono fun k hk => ?_)
    rcases hk with rfl | rfl
    · exact h.custody.intact
    · exact hc.intact
  custody := by
    rw [h'.books, h'.contents]
    exact hc

theorem Guarded.refused (h : p.Guarded view prior candidate w w') (h' : p.Refused view w' w'') :
    p.Guarded view prior candidate w w'' :=
  h.done h'.toDone h.custody

theorem Guarded.fails (h : p.Guarded view prior candidate w w') (h' : p.Refused view w' w'') :
    w.Fails w'' :=
  h'.fails.earlier h.grown h'.grown

end FilePaths

theorem Unchanged.stock (h : Unchanged prior c) (f : Form) (n : Option Node) :
    Unchanged prior (Function.update c (.backup f) n) := fun g => by
  rw [Function.update_of_ne (by simp)]
  exact h g

namespace FileSet

/-! ### Refusals -/

theorem ends_explained {α : Type} {a : Act σ α} {problem : FileProblem} {path : Path}
    {P : α → World σ → Prop} {Q : World σ → Prop}
    (h : a.Ends w P fun e w' => (∃ refusal, e = .system refusal) ∧ Q w') :
    (explained problem path a).Ends w P fun e w' => e.interrupts = false ∧ Q w' := by
  rw [explained, Act.ends_bind, Act.ends_rescue]
  refine h.mono (fun _ _ => id) ?_
  rintro _ w' ⟨⟨refusal, rfl⟩, hQ⟩
  exact ⟨rfl, hQ⟩

theorem ends_removeLogged (hp : p.Separate) (hlink : link.Steady view) (s : Slot) (w : World σ) :
    (removeLogged link (p.path s)).Ends w
      (fun removed w' =>
        if removed then
          p.contents w.disk s ≠ some .directory ∧
            p.Done view (Function.update (p.contents w.disk) s none) w w'
        else p.Refused view w w')
      (fun _ _ => False) := by
  rw [removeLogged, Act.ends_bind, Act.ends_rescue]
  refine (ends_discardFile hp hlink s w).mono (fun _ _ => id) ?_
  rintro _ w' ⟨⟨refusal, rfl⟩, h⟩
  exact h.log _

/-! ### Backup -/

theorem ends_removeStale (hp : p.Separate) (hlink : link.Steady view) (fs : List Form)
    (hw : p.Guarded view prior candidate w₀ w) (hbooks : w.books = {})
    (hprior : Unchanged prior (p.contents w.disk)) :
    (removeStale link (fs.map fun f => p.path (.backup f))).Ends w
      (fun _ w' => p.Guarded view prior candidate w₀ w' ∧ w'.books = {} ∧
        Unchanged prior (p.contents w'.disk))
      (fun e w' => e.interrupts = false ∧ p.Guarded view prior candidate w₀ w' ∧
        Unchanged prior (p.contents w'.disk) ∧ w₀.Fails w') := by
  -- the first backup that cannot be removed ends the row
  induction fs generalizing w with
  | nil => exact ⟨hw, hbooks, hprior⟩
  | cons f fs ih =>
    rw [List.map_cons, removeStale]
    refine (ends_removeLogged hp hlink (.backup f) w).bind (fun removed w' h => ?_)
      fun _ _ he => he.elim
    cases removed with
    | true =>
      obtain ⟨-, h⟩ := h
      refine ih (hw.done h ?_) (h.books.trans hbooks) ?_
      · exact hw.custody.stock (by rw [hbooks]; simp)
      · rw [h.contents]
        exact hprior.stock f none
    | false =>
      refine ⟨rfl, hw.refused h, ?_, hw.fails h⟩
      rw [h.contents]
      exact hprior

/-- Copying a file to its backup. -/
theorem ends_copy (hp : p.Separate) (hlink : link.Steady view) (unreadable : FileProblem)
    (hw : p.Guarded view prior candidate w₀ w) (hprior : Unchanged prior (p.contents w.disk))
    (hf : p.path (.current f) ∉ w.books.copied) :
    (copy link p unreadable (p.path (.current f)) (p.path (.backup f))).Ends w
      (fun _ w' => p.Guarded view prior candidate w₀ w' ∧
        Unchanged prior (p.contents w'.disk) ∧
        w'.books = { w.books with copied := p.path (.current f) :: w.books.copied })
      (fun e w' => e.interrupts = false ∧ p.Guarded view prior candidate w₀ w' ∧
        Unchanged prior (p.contents w'.disk) ∧ w₀.Fails w') := by
  rw [copy]
  refine (ends_explained (ends_readFile hlink p (.current f) w)).bind ?_ ?_
  · rintro content w₁ ⟨hfile, h₁⟩
    have hw₁ := hw.done h₁ hw.custody
    have hprior₁ : Unchanged prior (p.contents w₁.disk) := by
      rw [h₁.contents]
      exact hprior
    have hdir : p.contents w₁.disk (.current f) = some (.file content) := by
      rw [h₁.contents]
      exact hfile
    refine (ends_explained (ends_writeAtomically hp hlink hdir (.backup f) content)).bind ?_ ?_
    · rintro - w₂ ⟨-, h₂⟩
      have hw₂ := hw₁.done h₂ (hw₁.custody.stock (by rw [h₁.books]; exact hf))
      have hprior₂ : Unchanged prior (p.contents w₂.disk) := by
        rw [h₂.contents]
        exact hprior₁.stock f _
      have hbackup : p.contents w₂.disk (.backup f) = some (.file content) := by
        rw [h₂.contents, Function.update_self]
      -- the copy stands in the backup, so that the books may note it
      have hcustody := hw₂.custody.noteCopied hp ((hprior f).symm.trans hfile) hbackup
      have hbooks : w₂.books = w.books := h₂.books.trans h₁.books
      exact ⟨hw₂.noted hcustody w₂.log, hprior₂, by rw [← hbooks]⟩
    · rintro e w₂ ⟨he, h₂⟩
      refine ⟨he, hw₁.refused h₂, ?_, hw₁.fails h₂⟩
      rw [h₂.contents]
      exact hprior₁
  · rintro e w₁ ⟨he, h₁⟩
    refine ⟨he, hw.refused h₁, ?_, hw.fails h₁⟩
    rw [h₁.contents]
    exact hprior

theorem ends_backupRaw (hp : p.Separate) (hlink : link.Steady view)
    (hw : p.Guarded view prior candidate w₀ w) (hprior : Unchanged prior (p.contents w.disk))
    (hbooks : w.books = { copied := [p.active] }) :
    (backupRaw link p).Ends w
      (fun _ w' => p.Guarded view prior candidate w₀ w' ∧
        Unchanged prior (p.contents w'.disk) ∧ ∀ f, w'.books.Covers p f)
      (fun e w' => e.interrupts = false ∧ p.Guarded view prior candidate w₀ w' ∧
        Unchanged prior (p.contents w'.disk) ∧ w₀.Fails w') := by
  have hraw : p.path (.current .raw) ∉ w.books.copied := by
    rw [hbooks, List.mem_singleton]
    show p.path (.current .raw) ≠ p.path (.current .rendered)
    exact hp.path_injective.ne (by simp)
  rw [backupRaw, Act.ends_bind, Act.ends_look]
  split
  · refine (ends_copy hp hlink .unreadableRaw hw hprior hraw).bind ?_ fun _ _ he => he
    rintro - w' ⟨hw', hprior', hbooks'⟩
    rw [hbooks] at hbooks'
    refine ⟨hw'.noted (hw'.custody.noteAbsent ?_ ?_) w'.log, hprior', fun f => .inl ?_⟩
    · rw [hbooks']
      simp
    · simp
    · show p.path (.current f) ∈ w'.books.copied
      rw [hbooks']
      cases f
      · simp [FilePaths.path]
      · simp
  · next hfile =>
    have habsent : ∀ content, prior (.current .raw) ≠ some (.file content) := fun content hraw =>
      hfile (Disk.isFile_iff.mpr ⟨content, (hprior .raw).trans hraw⟩)
    refine ⟨(hw.noted (hw.custody.noteAbsent ?_ fun _ => habsent) _), hprior, fun f => ?_⟩
    · rw [hbooks]
      simp
    · cases f
      · refine .inl ?_
        show p.active ∈ w.books.copied
        rw [hbooks]
        simp
      · exact .inr ⟨rfl, rfl⟩

/-- A backup leaves both files unchanged; if it succeeds, the books cover them. -/
theorem ends_backup (hp : p.Separate) (hlink : link.Steady view) (candidate : Contents)
    (hprior : Unchanged prior (p.contents w.disk)) :
    (backup link p).Ends w
      (fun _ w' => p.Guarded view prior candidate (w.enter (.began .backup)) w' ∧
        Unchanged prior (p.contents w'.disk) ∧ ∀ f, w'.books.Covers p f)
      (fun e w' => e.interrupts = false ∧
        p.Guarded view prior candidate (w.enter (.began .backup)) w' ∧
        Unchanged prior (p.contents w'.disk) ∧ (w.enter (.began .backup)).Fails w') := by
  rw [backup, Act.ends_bind, Act.ends_enter, Act.ends_bind, Act.ends_changeBooks]
  generalize hw₀ : w.enter (.began .backup) = w₀
  have hprior₀ : Unchanged prior (p.contents w₀.disk) := by
    rw [← hw₀]
    exact hprior
  have hstart : p.Guarded view prior candidate w₀ { w₀ with books := {} } :=
    ⟨(FilePaths.Trail.refl p view _ w₀).noted w₀.log {}, .of_unchanged hprior₀⟩
  refine (ends_removeStale hp hlink [.rendered, .raw] hstart rfl hprior₀).bind ?_
    fun _ _ he => he
  rintro - w₁ ⟨hw₁, hbooks₁, hprior₁⟩
  refine (ends_copy hp hlink (f := .rendered) .unreadableActive hw₁ hprior₁
    (by simp [hbooks₁])).bind ?_ fun _ _ he => he
  rintro - w₂ ⟨hw₂, hprior₂, hbooks₂⟩
  rw [hbooks₁] at hbooks₂
  refine (ends_backupRaw hp hlink hw₂ hprior₂ hbooks₂).bind ?_ fun _ _ he => he
  rintro - w₃ ⟨hw₃, hprior₃, hcovers⟩
  exact ⟨hw₃.log _, hprior₃, hcovers⟩

/-! ### Persist -/

/-- Replacing a covered file by the candidate. -/
theorem ends_replace (hp : p.Separate) (hlink : link.Steady view) {problem : FileProblem}
    {content : Bytes} (hw : p.Guarded view prior candidate w₀ w)
    (hcovers : ∀ g, w.books.Covers p g)
    (hcandidate : candidate (.current f) = some (.file content)) :
    (explained problem (p.path (.current f))
      (writeAtomically link (p.path (.current f)) content p.all)).Ends w
      (fun _ w' => p.Guarded view prior candidate w₀ w' ∧ w'.books = w.books ∧
        p.contents w'.disk =
          Function.update (p.contents w.disk) (.current f) (candidate (.current f)))
      (fun e w' => e.interrupts = false ∧ p.Guarded view prior candidate w₀ w' ∧
        w₀.Fails w') := by
  obtain ⟨_, hdir⟩ := hw.custody.exists_backup (hcovers .rendered)
  refine ends_explained ((ends_writeAtomically hp hlink hdir (.current f) content).mono ?_ ?_)
  · rintro - w' ⟨hnone, h⟩
    rw [← hcandidate] at h
    exact ⟨hw.done h (hw.custody.replace (hcovers f) hnone), h.books, h.contents⟩
  · rintro e w' ⟨he, h⟩
    exact ⟨he, hw.refused h, hw.fails h⟩

/-- A persist that succeeds puts the candidate into both current files. -/
theorem ends_persist (hp : p.Separate) (hlink : link.Steady view) {rendered raw : Bytes}
    (hw : Custody p prior (p.wanted rendered raw) w.books (p.contents w.disk))
    (hcovers : ∀ f, w.books.Covers p f) :
    (persist link p rendered raw).Ends w
      (fun _ w' =>
        p.Guarded view prior (p.wanted rendered raw) (w.enter (.began .persist)) w' ∧
        ∀ f, p.contents w'.disk (.current f) = p.wanted rendered raw (.current f))
      (fun e w' => e.interrupts = false ∧
        p.Guarded view prior (p.wanted rendered raw) (w.enter (.began .persist)) w' ∧
        (w.enter (.began .persist)).Fails w') := by
  rw [persist, Act.ends_bind, Act.ends_enter]
  generalize hw₀ : w.enter (.began .persist) = w₀
  have hstart : p.Guarded view prior (p.wanted rendered raw) w₀ w₀ := by
    refine .refl ?_ view
    rw [← hw₀]
    exact hw
  have hcovers₀ : ∀ f, w₀.books.Covers p f := by
    rw [← hw₀]
    exact hcovers
  refine (ends_replace (f := .rendered) hp hlink hstart hcovers₀ rfl).bind ?_ fun _ _ he => he
  rintro - w₁ ⟨hw₁, hbooks₁, hdisk₁⟩
  refine (ends_replace (f := .raw) hp hlink hw₁ (by rwa [hbooks₁]) rfl).bind ?_ fun _ _ he => he
  rintro - w₂ ⟨hw₂, -, hdisk₂⟩
  refine ⟨hw₂.log _, fun f => ?_⟩
  show p.contents w₂.disk (.current f) = _
  cases f with
  | rendered => rw [hdisk₂, Function.update_of_ne (by simp), hdisk₁, Function.update_self]
  | raw => rw [hdisk₂, Function.update_self]

/-! ### Revert -/

/-- What a restore says of its file is true, and it leaves the other current file
alone. -/
structure Restores (p : FilePaths) (view : σ → β) (prior candidate : Contents) (f : Form)
    (w : World σ) (restored : Bool) (w' : World σ) : Prop where
  guarded : p.Guarded view prior candidate w w'
  others : ∀ g, g ≠ f → p.contents w'.disk (.current g) = p.contents w.disk (.current g)
  result : if restored then p.contents w'.disk (.current f) = prior (.current f) else w.Fails w'

section

variable (hcustody : Custody p prior candidate w.books (p.contents w.disk))

include hcustody

theorem Restores.done (h : p.Done view
      (Function.update (p.contents w.disk) (.current f) (prior (.current f))) w w') :
    Restores p view prior candidate f w true w' where
  guarded := (FilePaths.Guarded.refl hcustody view).done h hcustody.restore
  others g hg := by rw [h.contents, Function.update_of_ne (by simpa using hg)]
  result := by
    rw [h.contents, Function.update_self]
    rfl

theorem Restores.refused (h : p.Refused view w w') (log : Array Record) :
    Restores p view prior candidate f w false { w' with log } where
  guarded := (FilePaths.Guarded.refl hcustody view).refused (h.log log)
  others _ _ := congrFun h.contents _
  result := (FilePaths.Guarded.refl hcustody view).fails (h.log log)

/-- A file that was copied is read back and put into its place. -/
theorem ends_restoreCopied (hp : p.Separate) (hlink : link.Steady view) (f : Form)
    (hcopied : p.path (.current f) ∈ w.books.copied) :
    (restore link p (p.path (.current f)) (p.path (.backup f))).Ends w
      (fun restored w' => Restores p view prior candidate f w restored w')
      (fun _ _ => False) := by
  have hbackup := (hcustody.backup f hcopied).2
  rw [restore, Act.ends_bind, Act.ends_books, if_pos (by simpa using hcopied), Act.ends_bind,
    Act.ends_rescue]
  refine (ends_readFile hlink p (.backup f) w).bind ?_ ?_
  · rintro content w₁ ⟨hcontent, h₁⟩
    have hdir : p.contents w₁.disk (.backup f) = some (.file content) := by
      rw [h₁.contents]
      exact hcontent
    refine (ends_writeAtomically hp hlink hdir (.current f) content).mono ?_ ?_
    · rintro - w₂ ⟨-, h₂⟩
      have h := h₁.after h₂
      rw [h₁.contents, ← hcontent, hbackup] at h
      exact .done hcustody h
    · rintro _ w₂ ⟨⟨refusal, rfl⟩, h₂⟩
      exact .refused hcustody (h₂.after h₁) _
  · rintro _ w₁ ⟨⟨refusal, rfl⟩, h₁⟩
    exact .refused hcustody h₁ _

/-- Where there was no raw file, the one that is there now is removed. -/
theorem ends_restoreAbsent (hp : p.Separate) (hlink : link.Steady view)
    (habsent : w.books.rawWasAbsent = some true) :
    (removeLogged link (p.path (.current .raw))).Ends w
      (fun restored w' => Restores p view prior candidate .raw w restored w')
      (fun _ _ => False) := by
  refine (ends_removeLogged hp hlink (.current .raw) w).mono ?_ fun _ _ he => he
  intro removed w' h
  cases removed with
  | true =>
    obtain ⟨hdir, h⟩ := h
    -- there was no raw file, nor a directory in its place: there was nothing
    have hnone : prior (.current .raw) = none := by
      rcases hprior : prior (.current .raw) with _ | content | _
      · rfl
      · exact absurd hprior (hcustody.absent habsent content)
      · exact absurd (hcustody.directory .raw hprior) hdir
    rw [← hnone] at h
    exact .done hcustody h
  | false => exact .refused hcustody h w'.log

/-- A restore never raises, and what it says is true. -/
theorem ends_restore (hp : p.Separate) (hlink : link.Steady view) (f : Form) :
    (restore link p (p.path (.current f)) (p.path (.backup f))).Ends w
      (fun restored w' => Restores p view prior candidate f w restored w')
      (fun _ _ => False) := by
  by_cases hcopied : p.path (.current f) ∈ w.books.copied
  · exact ends_restoreCopied hcustody hp hlink f hcopied
  · rw [restore, Act.ends_bind, Act.ends_books, if_neg (by simpa using hcopied)]
    split
    · next habsent =>
      simp only [Bool.and_eq_true, beq_iff_eq] at habsent
      obtain rfl : f = .raw := by
        have hslot : Slot.current f = .current .raw := hp.path_injective habsent.1
        simpa using hslot
      exact ends_restoreAbsent hcustody hp hlink habsent.2
    · next habsent =>
      refine ⟨(FilePaths.Guarded.refl hcustody view).log _, fun g _ => rfl, ?_⟩
      rw [if_pos rfl]
      -- the books do not cover the file, so it was never replaced
      refine hcustody.current_of_not_covers ?_
      rintro (hf | ⟨rfl, hf⟩)
      · exact hcopied hf
      · exact habsent (by simp [FilePaths.path, hf])

end

/-- A revert never raises, and says whether both files are as before. -/
theorem ends_revert (hp : p.Separate) (hlink : link.Steady view)
    (hw : Custody p prior candidate w.books (p.contents w.disk)) :
    (revert link p).Ends w
      (fun reverted w' =>
        p.Guarded view prior candidate (w.enter (.began .revert)) w' ∧
        if reverted then Unchanged prior (p.contents w'.disk)
        else (w.enter (.began .revert)).Fails w')
      (fun _ _ => False) := by
  rw [revert, Act.ends_bind, Act.ends_enter]
  have hstart : Custody p prior candidate (w.enter (.began .revert)).books
      (p.contents (w.enter (.began .revert)).disk) := hw
  refine (ends_restore hstart hp hlink .rendered).bind ?_ fun _ _ he => he
  rintro active w₁ ⟨hw₁, -, hactive⟩
  refine (ends_restore hw₁.custody hp hlink .raw).bind ?_ fun _ _ he => he
  rintro raw w₂ ⟨hw₂, hother, hraw⟩
  refine ⟨hw₁.trans hw₂, ?_⟩
  cases active with
  | false => exact World.Fails.later hactive hw₁.grown hw₂.grown
  | true =>
    cases raw with
    | false => exact World.Fails.earlier hraw hw₁.grown hw₂.grown
    | true =>
      intro f
      cases f with
      | rendered => exact (hother .rendered (by simp)).trans hactive
      | raw => exact hraw

/-- A revert of files that are as before leaves them so, even if it fails. -/
theorem ends_revert_unchanged (hp : p.Separate) (hlink : link.Steady view)
    (hw : Custody p prior candidate w.books (p.contents w.disk)) :
    (revert link p).Ends w
      (fun _ w' => Unchanged prior (p.contents w.disk) → Unchanged prior (p.contents w'.disk))
      (fun _ _ => False) := by
  by_cases hprior : Unchanged prior (p.contents w.disk)
  · -- then the prior files are themselves a candidate in custody
    have hcustody : Custody p prior prior w.books (p.contents w.disk) :=
      ⟨fun f => .inl (hprior f), hw.backup, hw.absent, hw.directory⟩
    refine (ends_revert hp hlink hcustody).mono ?_ fun _ _ he => he
    rintro - w' ⟨hguarded, -⟩ - f
    exact (hguarded.custody.current f).elim id And.left
  · exact (ends_revert hp hlink hw).mono (fun _ _ _ h => absurd h hprior) fun _ _ he => he

/-! ### Cleanup -/

/-- Removing a backup leaves the current files alone, or is refused and leaves all
four alone. -/
theorem ends_removeBackup (hp : p.Separate) (hlink : link.Steady view) (f : Form) (w : World σ) :
    (removeLogged link (p.path (.backup f))).Ends w
      (fun _ w' => p.Trail view (Unchanged (p.contents w.disk)) w w' ∧
        Unchanged (p.contents w.disk) (p.contents w'.disk))
      (fun _ _ => False) := by
  refine (ends_removeLogged hp hlink (.backup f) w).mono ?_ fun _ _ he => he
  have hprior : Unchanged (p.contents w.disk) (p.contents w.disk) := fun _ => rfl
  intro removed w' h
  cases removed with
  | true =>
    obtain ⟨-, h⟩ := h
    refine ⟨h.toTrail.mono ?_, ?_⟩
    · rintro k (rfl | rfl)
      · exact hprior
      · exact hprior.stock f none
    · rw [h.contents]
      exact hprior.stock f none
  | false =>
    refine ⟨h.toTrail.mono ?_, ?_⟩
    · rintro k (rfl | rfl) <;> exact hprior
    · rw [h.contents]
      exact hprior

/-- A cleanup never raises, empties the books and leaves the current files alone. -/
theorem ends_cleanup (hp : p.Separate) (hlink : link.Steady view) (w : World σ) :
    (cleanup link p).Ends w
      (fun _ w' => p.Trail view (Unchanged (p.contents w.disk)) (w.enter (.began .cleanup)) w' ∧
        Unchanged (p.contents w.disk) (p.contents w'.disk) ∧ w'.books = {})
      (fun _ _ => False) := by
  rw [cleanup, Act.ends_bind, Act.ends_enter]
  generalize hw₀ : w.enter (.began .cleanup) = w₀
  have hdisk : p.contents w.disk = p.contents w₀.disk := by
    rw [← hw₀]
    rfl
  rw [hdisk]
  refine (ends_removeBackup hp hlink .rendered w₀).bind ?_ fun _ _ he => he
  rintro - w₁ ⟨hw₁, hprior₁⟩
  refine (ends_removeBackup hp hlink .raw w₁).bind ?_ fun _ _ he => he
  rintro - w₂ ⟨hw₂, hprior₂⟩
  have hchain : ∀ {c}, Unchanged (p.contents w₁.disk) c → Unchanged (p.contents w₀.disk) c :=
    fun h f => (h f).trans (hprior₁ f)
  exact ⟨(hw₁.trans (hw₂.mono fun _ => hchain)).noted w₂.log {}, hchain hprior₂, rfl⟩

end FileSet
end HotSwap
