/-
Acts on the files whose end is certain.

Where the host refuses nothing, it depends on the books and the disk alone how an act on the files
ends, and what it leaves.

* `Act.Takes`, `Act.Meets` — an operation, or an access, that ends in one way, and leaves what is
  known of the books and the disk;
* `meets_discardFile_removed`, `meets_write_moved`, … — the accesses to a disk that is known;
* `FilePaths.Stands` — what is known of a disk by what stands at the four paths, where their
  directory is there;
* `FilePaths.meets_readFile`, `FilePaths.meets_discardFile`, `FilePaths.meets_write` — the accesses
  to the four files there.

Design notes: the text of a refusal may name a temporary file, whose name depends on the disk.  An
access is therefore described up to that text, and an operation, which never shows it, in full.
-/
import HotSwap.Proofs.Directories
import HotSwap.Proofs.Grants
import HotSwap.Proofs.Naming

namespace HotSwap

open Act

/-- What is known of the books and the disk. -/
abbrev Holding := Bookkeeping → Disk → Prop

variable {σ α β : Type} {link : Link σ} {p : FilePaths} {w : World σ} {s : Slot} {f : Form}
  {b : Bookkeeping} {c : Contents} {d d' d'' : Disk} {Φ Ψ Θ : Holding}

/-! ### Acts that end in one way -/

/-- The books and the disk are as told, and the host will refuse nothing. -/
def World.Holds (w : World σ) (link : Link σ) (Φ : Holding) : Prop :=
  link.Lets w.host ∧ Φ w.books w.disk

/-- The books and the disk are just these. -/
def Held (b : Bookkeeping) (d : Disk) : Holding := fun b' d' => b' = b ∧ d' = d

/-- At most one state of the books and of the places of the disk is as told. -/
def Holding.Fixed (Φ : Holding) : Prop :=
  ∀ {b b' d d'}, Φ b d → Φ b' d' → b' = b ∧ ∀ r, d'.node? r = d.node? r

namespace Act

/-- From wherever `Φ` holds, the act ends as `r`, where `Ψ` holds. -/
def Takes (a : Act σ α) (link : Link σ) (Φ : Holding) (r : Except Fault α) (Ψ : Holding) : Prop :=
  ∀ w, w.Holds link Φ → a.Ends w (fun x w' => r = .ok x ∧ w'.Holds link Ψ)
    fun e w' => r = .error e ∧ w'.Holds link Ψ

/-- From wherever `Φ` holds, the act ends with the value `x?`, or is refused if that is none, where
`Ψ` holds. -/
def Meets (a : Act σ α) (link : Link σ) (Φ : Holding) (x? : Option α) (Ψ : Holding) : Prop :=
  ∀ w, w.Holds link Φ → a.Ends w (fun x w' => x? = some x ∧ w'.Holds link Ψ)
    fun e w' => (x? = none ∧ e.Refusal) ∧ w'.Holds link Ψ

variable {a : Act σ α} {g : α → Act σ β} {x : α} {x? : Option α} {y? : Option β} {e : Fault}
  {r : Except Fault α} {q : Except Fault β}

theorem takes_pure (x : α) : (pure x : Act σ α).Takes link Φ (.ok x) Φ := fun _ h => ⟨rfl, h⟩

theorem takes_raise (e : Fault) : (raise e : Act σ α).Takes link Φ (.error e) Φ := fun _ h =>
  ⟨rfl, h⟩

theorem takes_enter (e : Entry) : (enter e : Act σ Unit).Takes link Φ (.ok ()) Φ := fun _ h =>
  ⟨rfl, h⟩

theorem takes_say {level : Level} {event : String} {fields : List (String × Data)} :
    (FileSet.say level event fields : Act σ Unit).Takes link Φ (.ok ()) Φ := fun _ h => ⟨rfl, h⟩

theorem takes_changeBooks (g : Bookkeeping → Bookkeeping) (h : ∀ {b d}, Φ b d → Ψ (g b) d) :
    (changeBooks g : Act σ Unit).Takes link Φ (.ok ()) Ψ := fun _ hw => ⟨rfl, hw.1, h hw.2⟩

theorem Takes.bind (h : a.Takes link Φ (.ok x) Ψ) (hg : (g x).Takes link Ψ q Θ) :
    (a >>= g).Takes link Φ q Θ := fun w hw => by
  refine (h w hw).bind ?_ ?_
  · rintro _ w' ⟨⟨⟩, hw'⟩
    exact hg w' hw'
  · rintro e w' ⟨⟨⟩, -⟩

theorem Takes.strengthen (h : a.Takes link Φ r Ψ) (hΦ : ∀ {b d}, Θ b d → Φ b d) :
    a.Takes link Θ r Ψ := fun w hw => h w ⟨hw.1, hΦ hw.2⟩

theorem Takes.bind_error (h : a.Takes link Φ (.error e) Ψ) :
    (a >>= g).Takes link Φ (.error e) Ψ := fun w hw => by
  refine (h w hw).bind ?_ ?_
  · rintro _ w' ⟨⟨⟩, -⟩
  · rintro _ w' ⟨⟨⟩, hw'⟩
    exact ⟨rfl, hw'⟩

theorem Meets.bind (h : a.Meets link Φ (some x) Ψ) (hg : (g x).Meets link Ψ y? Θ) :
    (a >>= g).Meets link Φ y? Θ := fun w hw => by
  refine (h w hw).bind ?_ ?_
  · rintro _ w' ⟨⟨⟩, hw'⟩
    exact hg w' hw'
  · rintro e w' ⟨⟨⟨⟩, -⟩, -⟩

theorem Meets.bind_none (h : a.Meets link Φ none Ψ) : (a >>= g).Meets link Φ none Ψ :=
  fun w hw => by
    refine (h w hw).bind ?_ fun _ _ he => he.imp_left fun he => ⟨rfl, he.2⟩
    rintro _ w' ⟨⟨⟩, -⟩

theorem Meets.mono (h : a.Meets link Φ x? Ψ) (hΨ : ∀ {b d}, Ψ b d → Θ b d) :
    a.Meets link Φ x? Θ := fun w hw =>
  (h w hw).mono (fun _ _ hx => ⟨hx.1, hx.2.1, hΨ hx.2.2⟩) fun _ _ he => ⟨he.1, he.2.1, hΨ he.2.2⟩

theorem Meets.strengthen (h : a.Meets link Φ x? Ψ) (hΦ : ∀ {b d}, Θ b d → Φ b d) :
    a.Meets link Θ x? Ψ := fun w hw => h w ⟨hw.1, hΦ hw.2⟩

/-- What is met from everything that `Φ` describes is met from `Φ`. -/
theorem Meets.of_held (h : ∀ b d, Φ b d → a.Meets link (Held b d) x? Ψ) : a.Meets link Φ x? Ψ :=
  fun w hw => h _ _ hw.2 w ⟨hw.1, rfl, rfl⟩

end Act

/-! ### Accesses to a known disk -/

section

variable {q t : Path} {a : Act σ α} {x? : Option α} {made filled : Disk} {content : Bytes}
  {apart : List Path}

theorem meets_noted {entry : Option Fault → Disk → Entry} (h : a.Meets link Φ x? Ψ) :
    (noted entry a).Meets link Φ x? Ψ := fun w hw => (ends_noted entry).mpr (h w hw)

theorem meets_look {g : Disk → Act σ α} (h : (g d).Meets link (Held b d) x? Ψ) :
    (look (·.disk) >>= g).Meets link (Held b d) x? Ψ := fun w hw => by
  rw [ends_bind, ends_look, hw.2.2]
  exact h w hw

theorem meets_access {access : Access} (h : a.Meets link Φ x? Ψ) :
    (noted (.accessed access) (do link.leave access; a)).Meets link Φ x? Ψ :=
  meets_noted fun w hw => by
    rw [ends_bind, Link.leave, ends_bind, ends_choose, hw.1.gate]
    exact h _ ⟨hw.1.next access, hw.2⟩

theorem meets_readFile_held (link : Link σ) :
    (link.readFile q).Meets link (Held b d) (d.read q).toOption (Held b d) := by
  refine meets_access (meets_look fun w hw => ?_)
  cases d.read q with
  | ok content => exact ⟨rfl, hw⟩
  | error code => exact ⟨⟨rfl, _, rfl⟩, hw⟩

theorem meets_discardFile_removed (h : d.remove q = .ok d') :
    (link.discardFile q).Meets link (Held b d) (some ()) (Held b d') := by
  refine meets_access (meets_look fun w hw => ?_)
  rw [h]
  exact ⟨rfl, hw.1, hw.2.1, rfl⟩

theorem meets_discardFile_missing (h : d.remove q = .error SystemError.notFound) :
    (link.discardFile q).Meets link (Held b d) (some ()) (Held b d) := by
  refine meets_access (meets_look fun w hw => ?_)
  rw [h]
  exact ⟨rfl, hw⟩

theorem meets_discardFile_refused {code : Nat} (h : d.remove q = .error code)
    (hcode : code ≠ SystemError.notFound) :
    (link.discardFile q).Meets link (Held b d) none (Held b d) := by
  refine meets_access (meets_look fun w hw => ?_)
  rw [h]
  dsimp only
  rw [if_neg (by simpa using hcode)]
  exact ⟨⟨rfl, _, rfl⟩, hw⟩

theorem meets_makeFile_filled (h : d.fill q content = .ok d') :
    (Link.makeFile q content : Act σ Unit).Meets link (Held b d) (some ()) (Held b d') := by
  refine meets_noted (meets_look fun w hw => ?_)
  rw [h]
  exact ⟨rfl, hw.1, hw.2.1, rfl⟩

theorem meets_moveFile_moved (h : d.move q t = .ok d') :
    (link.moveFile q t).Meets link (Held b d) (some ()) (Held b d') := by
  refine meets_access (meets_look fun w hw => ?_)
  rw [h]
  exact ⟨rfl, hw.1, hw.2.1, rfl⟩

theorem meets_moveFile_refused {code : Nat} (h : d.move q t = .error code) :
    (link.moveFile q t).Meets link (Held b d) none (Held b d) := by
  refine meets_access (meets_look fun w hw => ?_)
  rw [h]
  exact ⟨⟨rfl, _, rfl⟩, hw⟩

theorem meets_ensureDirectory_made (h : d.makeDirectories q = (d', none)) :
    (Link.ensureDirectory q : Act σ Unit).Meets link (Held b d) (some ()) (Held b d') := by
  refine meets_noted (meets_look fun w hw => ?_)
  rw [h]
  exact ⟨rfl, hw.1, hw.2.1, rfl⟩

theorem meets_ensureDirectory_refused {e : SystemError} (h : d.makeDirectories q = (d', some e)) :
    (Link.ensureDirectory q : Act σ Unit).Meets link (Held b d) none (Held b d') := by
  refine meets_noted (meets_look fun w hw => ?_)
  rw [h]
  exact ⟨⟨rfl, _, rfl⟩, hw.1, hw.2.1, rfl⟩

/-- A write that the disk does not refuse. -/
theorem meets_write_moved (hmade : d.makeDirectories t.parent = (made, none))
    (hfill : made.fill (temporaryFor made t apart) content = .ok filled)
    (hmove : filled.move (temporaryFor made t apart) t = .ok d') :
    (writeAtomically link t content apart).Meets link (Held b d) (some ()) (Held b d') := by
  rw [writeAtomically]
  refine (meets_ensureDirectory_made hmade).bind (meets_look ?_)
  refine (meets_makeFile_filled hfill).bind fun w hw => ?_
  rw [ends_bind, ends_outcome]
  exact (meets_moveFile_moved hmove w hw).mono (fun _ _ hx => ⟨rfl, hx.2⟩)
    fun _ _ he => by cases he.1.1

/-- A write that the disk refuses at last takes the temporary file away again. -/
theorem meets_write_refused {code : Nat} (hmade : d.makeDirectories t.parent = (made, none))
    (hfill : made.fill (temporaryFor made t apart) content = .ok filled)
    (hmove : filled.move (temporaryFor made t apart) t = .error code)
    (hremove : filled.remove (temporaryFor made t apart) = .ok d') :
    (writeAtomically link t content apart).Meets link (Held b d) none (Held b d') := by
  rw [writeAtomically]
  refine (meets_ensureDirectory_made hmade).bind (meets_look ?_)
  refine (meets_makeFile_filled hfill).bind fun w hw => ?_
  rw [ends_bind, ends_outcome]
  refine (meets_moveFile_refused hmove w hw).mono (fun _ _ hx => by cases hx.1) ?_
  -- the temporary file is removed before the fault of the move comes out
  rintro e w₁ ⟨⟨-, hrefusal⟩, hw₁⟩
  exact (meets_discardFile_removed hremove w₁ hw₁).bind (fun _ _ hx => ⟨⟨rfl, hrefusal⟩, hx.2⟩)
    fun _ _ he => by cases he.1.1

end

namespace FileSet

variable {a : Act σ α} {x? : Option α} {path : Path}

/-- A refusal comes out as the fault that explains it. -/
theorem takes_explained (problem : FileProblem) (path : Path) (h : a.Meets link Φ x? Ψ) :
    (explained problem path a).Takes link Φ
      (x?.elim (.error (.configFile problem path)) .ok) Ψ := fun w hw => by
  rw [explained, ends_bind, ends_rescue]
  refine (h w hw).mono ?_ ?_
  · rintro x w' ⟨rfl, hw'⟩
    exact ⟨rfl, hw'⟩
  · rintro _ w' ⟨⟨rfl, refusal, rfl⟩, hw'⟩
    exact ⟨rfl, hw'⟩

/-- A refusal to remove a file comes out as a no. -/
theorem takes_removeLogged {x? : Option Unit} (h : (link.discardFile path).Meets link Φ x? Ψ) :
    (removeLogged link path).Takes link Φ (.ok x?.isSome) Ψ := fun w hw => by
  rw [removeLogged, ends_bind, ends_rescue]
  refine (h w hw).mono ?_ ?_
  · rintro x w' ⟨rfl, hw'⟩
    exact ⟨rfl, hw'⟩
  · rintro _ w' ⟨⟨rfl, refusal, rfl⟩, hw'⟩
    exact ⟨rfl, hw'⟩

end FileSet

/-! ### The files in a directory that is there -/

/-- The content of a file. -/
def Node.content? : Node → Option Bytes
  | .file content => some content
  | .directory => none

namespace FilePaths

/-- The books are `b`, the directory of the files is there, and the disk shows `c` at the four paths
and is `d` elsewhere. -/
structure Stands (p : FilePaths) (d : Disk) (b : Bookkeeping) (c : Contents) (b' : Bookkeeping)
    (d' : Disk) : Prop where
  books : b' = b
  directory : d'.isDirectory p.active.parent = true
  contents : p.contents d' = c
  confined : p.Confined d d'

/-- The disk is like that once the directory of the files has been made. -/
def Rises (p : FilePaths) (d : Disk) (b : Bookkeeping) (c : Contents) : Holding := fun b' d' =>
  ∃ made, d'.makeDirectories p.active.parent = (made, none) ∧ p.Stands d b c b' made

/-- Whether what stands at a path can be removed and replaced. -/
def yields (n : Option Node) : Option Unit := if n = some .directory then none else some ()

/-- What stands at a path after `m` was to take its place. -/
def yielded (n m : Option Node) : Option Node := if n = some .directory then n else m

theorem yields_yielded {m : Option Node} (n : Option Node) (hm : m ≠ some .directory) :
    yields (yielded n m) = yields n := by
  by_cases hn : n = some .directory
  · rw [yielded, if_pos hn]
  · rw [yielded, if_neg hn, yields, yields, if_neg hm, if_neg hn]

theorem yielded_yielded {m : Option Node} (n : Option Node) :
    yielded (yielded n m) m = yielded n m := by
  by_cases hn : n = some .directory
  · simp [yielded, hn]
  · simp [yielded, hn]

variable {b' : Bookkeeping} {n : Option Node}

theorem Stands.rises (h : p.Stands d b c b' d') : p.Rises d b c b' d' :=
  ⟨d', Disk.makeDirectories_of_isDirectory h.directory, h⟩

theorem Stands.node?_place (h : p.Stands d b c b' d') (hp : p.Beside) (s : Slot) :
    d'.node? (p.path s).place = c s := by
  rw [← h.contents]
  show _ = d'.found (p.path s)
  rw [Disk.found, hp.route_eq h.directory s]
  rfl

theorem Stands.fixed (hp : p.Beside) : Holding.Fixed (p.Stands d b c) := by
  intro b₁ b₂ d₁ d₂ h₁ h₂
  refine ⟨h₂.books.trans h₁.books.symm, fun r => ?_⟩
  by_cases hr : ∃ s, (p.path s).place = r
  · obtain ⟨s, rfl⟩ := hr
    rw [h₂.node?_place hp, h₁.node?_place hp]
  · have hothers : ∀ q ∈ p.all, q.place ≠ r := fun q hq hqr => by
      obtain ⟨s, rfl⟩ := exists_path_of_mem_all hq
      exact hr ⟨s, hqr⟩
    rw [h₂.confined.2 r hothers, h₁.confined.2 r hothers]

/-- One of the four files changes. -/
theorem Stands.change (h : p.Stands d b c b' d') (hp : p.Separate)
    (hsame : Disk.SameDirectories d' d'') (hs : d''.found (p.path s) = n)
    (helse : ∀ r, r ≠ (p.path s).place → d''.node? r = d'.node? r) :
    p.Stands d b (Function.update c s n) b' d'' where
  books := h.books
  directory := (hsame.isDirectory _).mpr h.directory
  contents := by
    funext t
    by_cases ht : t = s
    · rw [ht, Function.update_self]
      exact hs
    · rw [Function.update_of_ne ht, ← h.contents]
      exact hsame.found (helse _ (hp.place_ne ht))
  confined := h.confined.trans ⟨hsame, fun r hr => helse r (hr _ (p.path_mem_all s)).symm⟩

theorem Stands.found (h : p.Stands d b c b' d') (s : Slot) : d'.found (p.path s) = c s :=
  congrFun h.contents s

theorem meets_readFile (link : Link σ) (s : Slot) :
    (link.readFile (p.path s)).Meets link (p.Stands d b c) ((c s).bind Node.content?)
      (p.Stands d b c) := by
  refine .of_held fun b' d' h => ?_
  have hread : (d'.read (p.path s)).toOption = (c s).bind Node.content? := by
    rw [← h.found s]
    cases hread : d'.read (p.path s) with
    | ok content =>
      rw [Disk.read_eq_ok_iff.mp hread]
      rfl
    | error code =>
      rcases hs : d'.found (p.path s) with _ | content | _
      · rfl
      · rw [Disk.read_eq_ok_iff.mpr hs] at hread
        cases hread
      · rfl
  rw [← hread]
  exact (meets_readFile_held link).mono fun ⟨hb, hd⟩ => hb ▸ hd ▸ h

theorem meets_discardFile (link : Link σ) (hp : p.Separate) (hbeside : p.Beside) (s : Slot) :
    (link.discardFile (p.path s)).Meets link (p.Stands d b c) (yields (c s))
      (p.Stands d b (Function.update c s (yielded (c s) none))) := by
  refine .of_held fun b' d' h => ?_
  rcases hs : c s with _ | content | _
  · have hremove := hbeside.remove_of_found_eq_none h.directory ((h.found s).trans hs)
    rw [show yielded none none = c s from hs.symm, Function.update_eq_self]
    refine (meets_discardFile_missing hremove).mono ?_
    rintro _ _ ⟨rfl, rfl⟩
    exact h
  · have hremove := Disk.remove_of_found ((h.found s).trans hs)
    obtain ⟨-, hgone, -⟩ := Disk.found_of_remove hremove
    obtain ⟨-, -, hsame, -⟩ := Disk.exists_of_remove hremove
    refine (meets_discardFile_removed hremove).mono ?_
    rintro _ _ ⟨rfl, rfl⟩
    exact h.change hp hsame hgone fun r hr => Disk.node?_erase_of_ne _ hr
  · have hremove := Disk.remove_of_directory ((h.found s).trans hs)
    rw [show yielded (some .directory) none = c s from hs.symm, Function.update_eq_self]
    refine (meets_discardFile_refused hremove (by decide)).mono ?_
    rintro _ _ ⟨rfl, rfl⟩
    exact h

/-- A write replaces what stands at the path, unless that is a directory. -/
theorem meets_write (link : Link σ) (hp : p.Separate) (hbeside : p.Beside) (s : Slot)
    (content : Bytes) :
    (writeAtomically link (p.path s) content p.all).Meets link (p.Rises d b c) (yields (c s))
      (p.Stands d b (Function.update c s (yielded (c s) (some (.file content))))) := by
  refine .of_held fun b' d' ⟨made, hmade, h⟩ => ?_
  rw [← hbeside.parent_eq s] at hmade
  have hdir : made.isDirectory (p.path s).parent = true := Disk.isDirectory_of_makeDirectories hmade
  obtain ⟨filled, hfill⟩ := Disk.exists_fill_temporaryFor hdir p.all content
  obtain ⟨hsame, hfound, helse⟩ := Disk.found_of_fill hfill
  have hnone := Disk.node?_temporaryFor made (p.path s) p.all
  have htarget : filled.found (p.path s) = c s :=
    (helse _ (hp.aside_temporaryFor made s s)).trans (h.found s)
  cases hmove : filled.move (temporaryFor made (p.path s) p.all) (p.path s) with
  | ok moved =>
    obtain ⟨content', hcontent', hfree, hwritten, -⟩ := Disk.found_of_move hmove
    obtain rfl : content = content' := by simpa [hfound] using hcontent'
    rw [htarget] at hfree
    rw [yields, if_neg hfree, yielded, if_neg hfree]
    refine (meets_write_moved hmade hfill hmove).mono ?_
    rintro _ _ ⟨rfl, rfl⟩
    exact h.change hp (hsame.trans (Disk.sameDirectories_of_move hmove)) hwritten fun r hr =>
      Disk.node?_of_move_of_fill hnone hfill hmove hr
  | error code =>
    have hs : c s = some .directory := by
      by_contra hfree
      obtain ⟨name, hname⟩ := hbeside s
      obtain ⟨moved, hmoved⟩ := Disk.exists_move hfound (by rw [hname]; rfl)
        (Disk.exists_walk_of_isDirectory ((hsame.isDirectory _).mpr h.directory)).1
        (htarget ▸ hfree)
      rw [hmoved] at hmove
      cases hmove
    have hremove := Disk.remove_of_found hfound
    have hnodes := Disk.node?_of_remove_of_fill hnone hfill hremove
    have hsame' : Disk.SameDirectories made _ := fun r => by rw [hnodes r]
    rw [yields, if_pos hs, yielded, if_pos hs]
    refine (meets_write_refused hmade hfill hmove hremove).mono ?_
    rintro _ _ ⟨rfl, rfl⟩
    exact h.change hp hsame' ((hsame'.found (hnodes _)).trans (h.found s)) fun r _ => hnodes r

theorem Stands.isFile_eq {b' : Bookkeeping} (h : p.Stands d b c b' d') (s : Slot) :
    d'.isFile (p.path s) = ((c s).bind Node.content?).isSome := by
  rw [← h.found s, Bool.eq_iff_iff, Disk.isFile_iff]
  rcases d'.found (p.path s) with _ | _ | _ <;> simp [Node.content?]

end FilePaths

end HotSwap
