/-
Custody of a configuration while it is being replaced.

The files of an attempt are compared with what stood there before it (`prior`) and
with what it wants to put there (`candidate`).  The invariant is that a current
file is as it was, or holds the candidate and is covered by the books; what the
books say was copied stands in the backup.

* `Custody` — the invariant, of the books and the four files;
* `Custody.intact` — a file that was there before is still there, in its place or in
  the backup;
* `Custody.stock`, `Custody.replace`, `Custody.restore` — the invariant survives a
  backup copy, a replacement and a restore.
-/
import HotSwap.Proofs.FourFiles

namespace HotSwap

variable {p : FilePaths} {prior candidate : Contents} {books : Bookkeeping} {c : Contents}
  {f g : Form}

/-- Both current files are as before. -/
def Unchanged (prior c : Contents) : Prop := ∀ f, c (.current f) = prior (.current f)

/-- A file that was there before is still there, in its place or in the backup. -/
def Intact (prior c : Contents) : Prop :=
  ∀ f content, prior (.current f) = some (.file content) →
    c (.current f) = some (.file content) ∨ c (.backup f) = some (.file content)

theorem Unchanged.intact (h : Unchanged prior c) : Intact prior c := fun f _ hprior =>
  .inl ((h f).trans hprior)

/-- What an attempt wants to put into the current files. -/
def FilePaths.wanted (p : FilePaths) (rendered raw : Bytes) : Contents
  | .current .rendered => some (.file (p.encode rendered))
  | .current .raw => some (.file raw)
  | .backup _ => none

/-- The books say what to do about a file: it was copied, or there was no raw file
to copy. -/
def Bookkeeping.Covers (b : Bookkeeping) (p : FilePaths) (f : Form) : Prop :=
  p.path (.current f) ∈ b.copied ∨ f = .raw ∧ b.rawWasAbsent = some true

/-- How the books and the four files stand while an attempt is under way. -/
structure Custody (p : FilePaths) (prior candidate : Contents) (books : Bookkeeping)
    (c : Contents) : Prop where
  current : ∀ f, c (.current f) = prior (.current f) ∨
    c (.current f) = candidate (.current f) ∧ books.Covers p f
  backup : ∀ f, p.path (.current f) ∈ books.copied →
    (∃ content, prior (.current f) = some (.file content)) ∧
      c (.backup f) = prior (.current f)
  absent : books.rawWasAbsent = some true →
    ∀ content, prior (.current .raw) ≠ some (.file content)
  directory : ∀ f, prior (.current f) = some .directory → c (.current f) = some .directory

namespace Custody

theorem intact (h : Custody p prior candidate books c) : Intact prior c := by
  intro f content hprior
  rcases h.current f with hsame | ⟨-, hcopied | ⟨rfl, habsent⟩⟩
  · exact .inl (hsame.trans hprior)
  · exact .inr ((h.backup f hcopied).2.trans hprior)
  · exact absurd hprior (h.absent habsent content)

/-- Where the books cover the rendered file, its backup is there. -/
theorem exists_backup (h : Custody p prior candidate books c) (hf : books.Covers p .rendered) :
    ∃ content, c (.backup .rendered) = some (.file content) := by
  rcases hf with hcopied | ⟨hraw, -⟩
  · obtain ⟨⟨content, hprior⟩, hc⟩ := h.backup _ hcopied
    exact ⟨content, hc.trans hprior⟩
  · cases hraw

/-- What the books do not cover is as before. -/
theorem current_of_not_covers (h : Custody p prior candidate books c) (hf : ¬ books.Covers p f) :
    c (.current f) = prior (.current f) :=
  (h.current f).resolve_right fun hc => hf hc.2

/-- With empty books, both current files have to be as before. -/
theorem of_unchanged (h : Unchanged prior c) : Custody p prior candidate {} c where
  current f := .inl (h f)
  backup f hcopied := by cases hcopied
  absent habsent := by cases habsent
  directory f hdir := (h f).trans hdir

/-- A backup may be anything as long as the books do not speak of it. -/
theorem stock (h : Custody p prior candidate books c) {n : Option Node}
    (hf : p.path (.current f) ∉ books.copied) :
    Custody p prior candidate books (Function.update c (.backup f) n) where
  current g := by
    rw [Function.update_of_ne (by simp)]
    exact h.current g
  backup g hcopied := by
    rw [Function.update_of_ne (by rintro ⟨⟩; exact hf hcopied)]
    exact h.backup g hcopied
  absent := h.absent
  directory g hdir := by
    rw [Function.update_of_ne (by simp)]
    exact h.directory g hdir

/-- The books may note a copy that stands in the backup. -/
theorem noteCopied (h : Custody p prior candidate books c) (hp : p.Separate) {content : Bytes}
    (hprior : prior (.current f) = some (.file content))
    (hc : c (.backup f) = some (.file content)) :
    Custody p prior candidate
      { books with copied := p.path (.current f) :: books.copied } c where
  current g := by
    refine (h.current g).imp id fun hg => ⟨hg.1, hg.2.imp (fun hcopied => ?_) id⟩
    exact List.mem_cons_of_mem _ hcopied
  backup g hcopied := by
    rcases List.mem_cons.mp hcopied with heq | hcopied
    · obtain rfl : g = f := by
        have := hp.path_injective heq
        simpa using this
      exact ⟨⟨content, hprior⟩, hc.trans hprior.symm⟩
    · exact h.backup g hcopied
  absent := h.absent
  directory := h.directory

/-- The books may note whether there was a raw file. -/
theorem noteAbsent (h : Custody p prior candidate books c)
    (habsent : books.rawWasAbsent ≠ some true) {b : Bool}
    (hb : b = true → ∀ content, prior (.current .raw) ≠ some (.file content)) :
    Custody p prior candidate { books with rawWasAbsent := some b } c where
  current g := by
    -- a file was covered by a copy only, since the books did not speak of absence
    refine (h.current g).imp id fun hg => ⟨hg.1, hg.2.imp id fun hraw => ?_⟩
    exact absurd hraw.2 habsent
  backup := h.backup
  absent hnoted := hb (by simpa using hnoted)
  directory := h.directory

/-- A covered file may be replaced by the candidate. -/
theorem replace (h : Custody p prior candidate books c) (hf : books.Covers p f)
    (hdir : c (.current f) ≠ some .directory) :
    Custody p prior candidate books
      (Function.update c (.current f) (candidate (.current f))) where
  current g := by
    by_cases hg : g = f
    · -- the replaced file holds the candidate, and the books cover it
      subst hg
      exact .inr ⟨Function.update_self .., hf⟩
    · rw [Function.update_of_ne (by simpa using hg)]
      exact h.current g
  backup g hcopied := by
    rw [Function.update_of_ne (by simp)]
    exact h.backup g hcopied
  absent := h.absent
  directory g hprior := by
    have hc := h.directory g hprior
    rwa [Function.update_of_ne (by rintro ⟨⟩; exact hdir hc)]

/-- A file may be put back to what it was. -/
theorem restore (h : Custody p prior candidate books c) :
    Custody p prior candidate books
      (Function.update c (.current f) (prior (.current f))) where
  current g := by
    by_cases hg : g = f
    · subst hg
      exact .inl (Function.update_self ..)
    · rw [Function.update_of_ne (by simpa using hg)]
      exact h.current g
  backup g hcopied := by
    rw [Function.update_of_ne (by simp)]
    exact h.backup g hcopied
  absent := h.absent
  directory g hprior := by
    by_cases hg : g = f
    · subst hg
      rw [Function.update_self, hprior]
    · rw [Function.update_of_ne (by simpa using hg)]
      exact h.directory g hprior

end Custody
end HotSwap
