/-
One write, whole or not at all.

A file is given its content through a temporary file that is moved onto it.  Whatever
refuses on the way, the target then holds the new content or what it held before, the
temporary file is gone, and all that can have come beside is a directory above the
target.

* `Disk.Grown` — a disk on which only directories of some routes have come;
* `Disk.grown_makeDirectories` — making directories makes those of the path, and nothing
  else;
* `Disk.node?_temporaryFor` — a temporary file stands where nothing stood;
* `ends_writeAtomically_whole` — the write as a whole, for every target and content.

Design notes: a disk is looked at by its routes.  A path with double dots may begin to
lead somewhere when a directory is made, so that only routes can tell what was touched.
-/
import HotSwap.Proofs.Frames
import HotSwap.Proofs.Places

namespace HotSwap

open Act

namespace Disk

variable {d d' d'' : Disk} {S : Route → Prop} {r : Route}

/-! ### Directories that have come -/

/-- A route leads to the same, or to a directory where nothing stood, if it is one of `S`. -/
def SameOrMade (S : Route → Prop) (d d' : Disk) (r : Route) : Prop :=
  d'.node? r = d.node? r ∨ d.node? r = none ∧ d'.node? r = some .directory ∧ S r

/-- Nothing has come but directories, at routes of `S`, where nothing stood. -/
def Grown (S : Route → Prop) (d d' : Disk) : Prop := ∀ r, SameOrMade S d d' r

theorem Grown.refl (S : Route → Prop) (d : Disk) : Grown S d d := fun _ => .inl rfl

theorem Grown.trans (h : Grown S d d') (h' : Grown S d' d'') : Grown S d d'' := fun r => by
  rcases h' r with hsame | ⟨hnone, hcame, hS⟩
  · rw [SameOrMade, hsame]
    exact h r
  · -- where a directory has come later, nothing had come before
    rcases h r with hsame | ⟨-, hcame', -⟩
    · exact .inr ⟨hsame ▸ hnone, hcame, hS⟩
    · rw [hnone] at hcame'
      cases hcame'

theorem Grown.mono {T : Route → Prop} (h : Grown S d d') (hST : ∀ r, S r → T r) : Grown T d d' :=
  fun r => (h r).imp_right fun ⟨hnone, hcame, hS⟩ => ⟨hnone, hcame, hST r hS⟩

/-- The file at a route is the same, and so is its absence. -/
theorem Grown.file (h : Grown S d d') (r : Route) (content : Bytes) :
    d'.node? r = some (.file content) ↔ d.node? r = some (.file content) := by
  rcases h r with hsame | ⟨hnone, hcame, -⟩
  · rw [hsame]
  · simp [hnone, hcame]

/-- A directory is made where nothing stood, and nothing else is touched. -/
theorem exists_of_makeDirectory {p : Path} (h : d.makeDirectory p = .ok d') :
    d.route p = .ok p.place ∧ d.node? p.place = none ∧ d' = d.put p.place .directory := by
  rw [makeDirectory] at h
  cases hroute : d.route p with
  | error code => simp [hroute, bind, Except.bind] at h
  | ok r =>
    obtain rfl := route_eq_place hroute
    cases hn : d.node? p.place with
    | some n => simp [hroute, hn, bind, Except.bind, throw, throwThe, MonadExceptOf.throw] at h
    | none =>
      simp [hroute, hn, bind, Except.bind, pure, Except.pure] at h
      exact ⟨rfl, rfl, h.symm⟩

theorem node?_put_directory (hr : d.node? r = none) :
    (d.put r .directory).node? r = some .directory := by
  refine node?_put_self d _ fun hnil => ?_
  rw [hnil, node?_nil] at hr
  cases hr

theorem grown_makeDirectory {p : Path} (h : d.makeDirectory p = .ok d') :
    Grown (· = p.place) d d' := by
  obtain ⟨-, hnone, rfl⟩ := exists_of_makeDirectory h
  intro q
  by_cases hq : q = p.place
  · subst hq
    exact .inr ⟨hnone, node?_put_directory hnone, rfl⟩
  · exact .inl (node?_put_of_ne d _ hq)

theorem grown_ensureDirectory {p : Path} (h : d.ensureDirectory p = .ok d') :
    Grown (· = p.place) d d' := by
  rw [ensureDirectory] at h
  split at h
  · next made hmade =>
    cases h
    exact grown_makeDirectory hmade
  · split at h
    · cases h
      exact Grown.refl _ _
    · cases h

/-- The routes of the directories of a path, from the top to the path itself. -/
def Above (p : Path) (r : Route) : Prop := ∃ parts, parts <+: p.parts ∧ r = Path.climb [] parts

theorem grown_makeUpward (d : Disk) (anchor : Anchor) (parts : List String) :
    Grown (Above { anchor, parts := parts.reverse }) d (d.makeUpward anchor parts).1 := by
  induction parts with
  | nil => exact Grown.refl _ _
  | cons last above ih =>
    have hself : ∀ r, r = (Path.mk anchor (last :: above).reverse).place →
        Above { anchor, parts := (last :: above).reverse } r :=
      fun r hr => ⟨_, List.prefix_refl _, hr⟩
    have habove : ∀ r, Above { anchor, parts := above.reverse } r →
        Above { anchor, parts := (last :: above).reverse } r := by
      rintro r ⟨parts, hparts, hr⟩
      refine ⟨parts, hparts.trans ?_, hr⟩
      show above.reverse <+: (last :: above).reverse
      rw [List.reverse_cons]
      exact List.prefix_append _ _
    rw [makeUpward]
    split
    · next made hmade => exact (grown_makeDirectory hmade).mono hself
    · split
      · split
        · next made e hup =>
          rw [hup] at ih
          exact ih.mono habove
        · next up hup =>
          rw [hup] at ih
          split
          · next made hmade =>
            exact (ih.mono habove).trans ((grown_ensureDirectory hmade).mono hself)
          · exact ih.mono habove
      · split
        · exact Grown.refl _ _
        · exact Grown.refl _ _

/-- Making directories makes those of the path, and nothing else. -/
theorem grown_makeDirectories (d : Disk) (p : Path) : Grown (Above p) d (d.makeDirectories p).1 := by
  have h := grown_makeUpward d p.anchor p.parts.reverse
  rwa [List.reverse_reverse] at h

/-! ### Temporary files -/

theorem freshName_ne_dots (d : Disk) (front back : String) (apart : List String) :
    d.freshName front back apart ≠ ".." := fun heq => by
  have hlen := congrArg String.length heq
  rw [freshName] at hlen
  simp only [String.length_append, String.length_ofList, List.length_replicate] at hlen
  have hdots : "..".length = 2 := rfl
  omega

/-- A temporary file stands where nothing stood. -/
theorem node?_temporaryFor (d : Disk) (target : Path) (apart : List Path) :
    d.node? (temporaryFor d target apart).place = none := by
  rw [temporaryFor, Path.place, Path.climb_concat, if_neg (freshName_ne_dots _ _ _ _)]
  exact node?_freshName _ _ _ _ _

/-- A temporary file that is taken away again leaves no trace. -/
theorem node?_of_remove_of_fill {p : Path} {content : Bytes} (hnone : d.node? p.place = none)
    (hfill : d.fill p content = .ok d') (hremove : d'.remove p = .ok d'') (r : Route) :
    d''.node? r = d.node? r := by
  obtain ⟨-, -, rfl⟩ := exists_of_fill hfill
  obtain ⟨_, -, -, rfl⟩ := exists_of_remove hremove
  by_cases hr : r = p.place
  · subst hr
    rw [hnone]
    refine node?_erase_self _ fun hnil => ?_
    rw [hnil, node?_nil] at hnone
    cases hnone
  · rw [node?_erase_of_ne _ hr, node?_put_of_ne _ _ hr]

/-- A temporary file that is moved leaves a trace at its target only. -/
theorem node?_of_move_of_fill {p target : Path} {content : Bytes}
    (hnone : d.node? p.place = none) (hfill : d.fill p content = .ok d')
    (hmove : d'.move p target = .ok d'') (hr : r ≠ target.place) : d''.node? r = d.node? r := by
  obtain ⟨-, -, rfl⟩ := exists_of_fill hfill
  obtain ⟨_, -, -, -, rfl⟩ := exists_of_move hmove
  rw [node?_put_of_ne _ _ hr]
  by_cases hp : r = p.place
  · subst hp
    rw [hnone]
    refine node?_erase_self _ fun hnil => ?_
    rw [hnil, node?_nil] at hnone
    cases hnone
  · rw [node?_erase_of_ne _ hp, node?_put_of_ne _ _ hp]

/-- A file that is found can be removed. -/
theorem remove_of_found {p : Path} {content : Bytes} (h : d.found p = some (.file content)) :
    d.remove p = .ok (d.erase p.place) := by
  obtain ⟨hroute, hnode⟩ := found_eq_some_iff.mp h
  rw [remove, hroute]
  simp [hnode, bind, Except.bind, pure, Except.pure]

/-- A directory cannot. -/
theorem remove_of_directory {p : Path} (h : d.found p = some .directory) :
    d.remove p = .error SystemError.isDirectory := by
  obtain ⟨hroute, hnode⟩ := found_eq_some_iff.mp h
  rw [remove, hroute]
  simp [hnode, bind, Except.bind, throw, throwThe, MonadExceptOf.throw]

end Disk

/-! ### Single accesses -/

section

variable {σ : Type} {link : Link σ} {w : World σ}

theorem ends_ensureDirectory_made (path : Path) (w : World σ) :
    (Link.ensureDirectory path).Ends w
      (fun _ w' => w'.disk = (w.disk.makeDirectories path).1)
      fun _ w' => w'.disk = (w.disk.makeDirectories path).1 := by
  rw [Link.ensureDirectory, ends_noted, ends_bind, ends_look, ends_bind, ends_change]
  split
  · exact rfl
  · exact rfl

theorem ends_makeFile_filled (path : Path) (content : Bytes) (w : World σ) :
    (Link.makeFile path content).Ends w
      (fun _ w' => w.disk.fill path content = .ok w'.disk) fun _ w' => w'.disk = w.disk := by
  rw [Link.makeFile, ends_noted, ends_bind, ends_look]
  cases w.disk.fill path content with
  | error code => exact rfl
  | ok disk => exact rfl

theorem ends_moveFile_moved (link : Link σ) (source target : Path) (w : World σ) :
    (link.moveFile source target).Ends w
      (fun _ w' => w.disk.move source target = .ok w'.disk) fun _ w' => w'.disk = w.disk := by
  rw [Link.moveFile, ends_noted, ends_bind, Link.leave, ends_bind, ends_choose]
  split
  · rw [ends_pure, ends_bind, ends_look]
    cases hmove : w.disk.move source target with
    | error code => exact rfl
    | ok disk => exact rfl
  · exact rfl

/-- A file that is there goes, unless the host refuses. -/
theorem ends_discardFile_removed {path : Path} {content : Bytes}
    (hgate : (link.gate (.remove path) w.host).1 = none)
    (hfound : w.disk.found path = some (.file content)) :
    (link.discardFile path).Ends w (fun _ w' => w.disk.remove path = .ok w'.disk)
      fun _ _ => False := by
  have hremove := Disk.remove_of_found hfound
  rw [Link.discardFile, ends_noted, ends_bind, Link.leave, ends_bind, ends_choose, hgate,
    ends_pure, ends_bind, ends_look]
  dsimp only
  rw [hremove]
  rfl

/-! ### The write as a whole -/

/-- Once the directories above the target are there, a write leaves the disk as it is, but
for the target when it succeeds. -/
theorem ends_writeAtomically_made (target : Path) (content : Bytes) (apart : List Path)
    (hgate : ∀ disk s, (link.gate (.remove (temporaryFor disk target apart)) s).1 = none)
    (w : World σ) :
    (writeAtomically link target content apart).Ends w
      (fun _ w' => w'.disk.found target = some (.file content) ∧
        Disk.SameDirectories (w.disk.makeDirectories target.parent).1 w'.disk ∧
        ∀ r, r ≠ target.place →
          w'.disk.node? r = (w.disk.makeDirectories target.parent).1.node? r)
      fun _ w' => ∀ r, w'.disk.node? r = (w.disk.makeDirectories target.parent).1.node? r := by
  rw [writeAtomically]
  refine (ends_ensureDirectory_made target.parent w).bind ?_ fun e w₁ h₁ r => by rw [h₁]
  rintro - w₁ h₁
  rw [← h₁, ends_bind, ends_look]
  have hnone := Disk.node?_temporaryFor w₁.disk target apart
  have hopen := hgate w₁.disk
  generalize temporaryFor w₁.disk target apart = temporary at hnone hopen ⊢
  refine (ends_makeFile_filled temporary content w₁).bind ?_ fun e w₂ h₂ r => by rw [h₂]
  rintro - w₂ hfill
  obtain ⟨hsame, hfound, -⟩ := Disk.found_of_fill hfill
  rw [ends_bind, ends_outcome]
  refine (ends_moveFile_moved link temporary target w₂).mono ?_ ?_
  · rintro - w₃ hmove
    obtain ⟨moved, hmoved, -, htarget, -⟩ := Disk.found_of_move hmove
    obtain rfl : content = moved := by simpa [hfound] using hmoved
    exact ⟨htarget, hsame.trans (Disk.sameDirectories_of_move hmove), fun r hr =>
      Disk.node?_of_move_of_fill hnone hfill hmove hr⟩
  · intro e w₃ h₃
    -- the fault of the move comes out only after the temporary file has gone
    rw [← h₃] at hfill hfound
    refine (ends_discardFile_removed (hopen w₃.host) hfound).bind ?_ fun _ _ he => he.elim
    rintro - w₄ hremove r
    exact Disk.node?_of_remove_of_fill hnone hfill hremove r

/-- A write leaves the target with exactly the content, or everything as it was; all that can
have come beside are directories above the target. -/
theorem ends_writeAtomically_whole (target : Path) (content : Bytes) (apart : List Path)
    (hgate : ∀ disk s, (link.gate (.remove (temporaryFor disk target apart)) s).1 = none)
    (w : World σ) :
    (writeAtomically link target content apart).Ends w
      (fun _ w' => w'.disk.read target = .ok content ∧ ∀ r, r ≠ target.place →
        Disk.SameOrMade (Disk.Above target.parent) w.disk w'.disk r)
      fun _ w' => Disk.Grown (Disk.Above target.parent) w.disk w'.disk := by
  have hgrown := Disk.grown_makeDirectories w.disk target.parent
  refine (ends_writeAtomically_made target content apart hgate w).mono ?_ ?_
  · rintro - w' ⟨hfound, -, hothers⟩
    refine ⟨Disk.read_eq_ok_iff.mpr hfound, fun r hr => ?_⟩
    rw [Disk.SameOrMade, hothers r hr]
    exact hgrown r
  · intro e w' h r
    rw [Disk.SameOrMade, h r]
    exact hgrown r

end

end HotSwap
