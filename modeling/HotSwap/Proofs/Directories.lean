/-
Directories that are made, and made again.

Making a directory with all those above it either succeeds, and then it is there, or stops on the
way, and then it stops again on what it has left behind.

* `Disk.Grown.walk`, `Disk.Grown.route` — a path that led somewhere still leads there when
  directories have come;
* `Disk.isDirectory_of_makeDirectories` — what was made is there;
* `Disk.makeDirectories_again` — what was refused is refused again, and nothing more comes.

Design notes: the number of the refusal need not be the same.  Where a file stands in the way, the
directories above it are made at first, so that only then the walk gets as far as the file.
-/
import HotSwap.Proofs.Writes

namespace HotSwap

namespace Disk

variable {d d' : Disk} {S : Route → Prop} {p : Path} {r : Route}

/-! ### Paths among directories that have come -/

/-- A directory stays one. -/
theorem Grown.directory (h : Grown S d d') (hr : d.node? r = some .directory) :
    d'.node? r = some .directory := by
  rcases h r with hsame | ⟨hnone, -, -⟩
  · rw [hsame, hr]
  · rw [hnone] at hr
    cases hr

theorem Grown.walk {here : Route} {ss : List String} (h : Grown S d d')
    (hwalk : d.walk here ss = .ok r) : d'.walk here ss = .ok r := by
  induction ss generalizing here with
  | nil => exact hwalk
  | cons s ss ih =>
    rw [Disk.walk] at hwalk ⊢
    split at hwalk
    · next hdots =>
      rw [if_pos hdots]
      exact ih hwalk
    · next hdots =>
      rw [if_neg hdots]
      split at hwalk
      · cases hwalk
      · cases hwalk
      · next hdir =>
        rw [h.directory hdir]
        exact ih hwalk

theorem Grown.route (h : Grown S d d') (hroute : d.route p = .ok r) : d'.route p = .ok r := by
  rcases List.eq_nil_or_concat' p.parts with hp | ⟨above, last, hp⟩
  · rw [Disk.route, hp] at hroute ⊢
    exact hroute
  · rw [route_concat _ hp] at hroute ⊢
    cases hwalk : d.walk [] above with
    | error code =>
      rw [hwalk] at hroute
      cases hroute
    | ok r' =>
      rw [hwalk] at hroute
      rw [h.walk hwalk]
      exact hroute

/-! ### What was made is there -/

theorem isDirectory_of_makeDirectory (h : d.makeDirectory p = .ok d') :
    d'.isDirectory p = true := by
  have hgrown := grown_makeDirectory h
  obtain ⟨hroute, hnone, rfl⟩ := exists_of_makeDirectory h
  exact isDirectory_iff.mpr
    (found_eq_some_iff.mpr ⟨hgrown.route hroute, node?_put_directory hnone⟩)

theorem isDirectory_of_ensureDirectory (h : d.ensureDirectory p = .ok d') :
    d'.isDirectory p = true := by
  rw [ensureDirectory] at h
  split at h
  · next made hmade =>
    cases h
    exact isDirectory_of_makeDirectory hmade
  · split at h
    · next hdir =>
      cases h
      exact hdir
    · cases h

theorem isDirectory_of_makeUpward {anchor : Anchor} {parts : List String}
    (h : d.makeUpward anchor parts = (d', none)) :
    d'.isDirectory { anchor, parts := parts.reverse } = true := by
  cases parts with
  | nil => rfl
  | cons last above =>
    rw [makeUpward] at h
    split at h
    · next made hmade =>
      cases h
      exact isDirectory_of_makeDirectory hmade
    · split at h
      · split at h
        · cases h
        · split at h
          · next made hmade =>
            cases h
            exact isDirectory_of_ensureDirectory hmade
          · cases h
      · split at h
        · next hdir =>
          cases h
          exact hdir
        · cases h

theorem isDirectory_of_makeDirectories (h : d.makeDirectories p = (d', none)) :
    d'.isDirectory p = true := by
  have hdir := isDirectory_of_makeUpward h
  rwa [List.reverse_reverse] at hdir

/-! ### What was refused is refused again -/

theorem ensureDirectory_eq_error_iff {code : Nat} :
    d.ensureDirectory p = .error code ↔
      d.makeDirectory p = .error code ∧ d.isDirectory p = false := by
  rw [ensureDirectory]
  cases d.makeDirectory p <;> cases d.isDirectory p <;> simp

variable {anchor : Anchor} {last : String} {above : List String}

/-- Where a path leads somewhere, the directory above it is there. -/
theorem makeUpward_of_route (h : d.route { anchor, parts := (last :: above).reverse } = .ok r) :
    d.makeUpward anchor above = (d, none) := by
  rw [route_concat d (by rw [List.reverse_cons])] at h
  cases hwalk : d.walk [] above.reverse with
  | error code =>
    rw [hwalk] at h
    cases h
  | ok r' =>
    obtain ⟨hsolid, hplace⟩ := walk_ok hwalk (solid_nil d)
    have hroute := route_eq_walk d anchor above.reverse hwalk
    rw [hplace] at hsolid hroute
    have hmade := makeDirectories_of_isDirectory
      (isDirectory_iff.mpr (found_eq_some_iff.mpr ⟨hroute, hsolid.self⟩))
    rwa [makeDirectories, List.reverse_reverse] at hmade

/-- A directory is not made where what is above it is refused. -/
theorem exists_makeUpward_of_above {e : SystemError}
    (h : d.makeUpward anchor above = (d, some e)) :
    ∃ e', d.makeUpward anchor (last :: above) = (d, some e') := by
  have hlost : ∀ r, d.route { anchor, parts := (last :: above).reverse } ≠ .ok r := fun r hr => by
    rw [makeUpward_of_route hr] at h
    cases h
  rw [makeUpward]
  split
  · next made hmade => exact absurd (exists_of_makeDirectory hmade).1 (hlost _)
  · split
    · rw [h]
      exact ⟨e, rfl⟩
    · split
      · next hdir => exact absurd (found_eq_some_iff.mp (isDirectory_iff.mp hdir)).1 (hlost _)
      · exact ⟨_, rfl⟩

/-- Nor where it is refused itself. -/
theorem exists_makeUpward_of_ensureDirectory {code : Nat}
    (habove : d.makeUpward anchor above = (d, none))
    (h : d.ensureDirectory { anchor, parts := (last :: above).reverse } = .error code) :
    ∃ e, d.makeUpward anchor (last :: above) = (d, some e) := by
  obtain ⟨hmake, hdir⟩ := ensureDirectory_eq_error_iff.mp h
  rw [makeUpward, hmake]
  dsimp only
  split
  · rw [habove]
    dsimp only
    rw [h]
    exact ⟨_, rfl⟩
  · rw [hdir]
    exact ⟨_, rfl⟩

theorem makeUpward_again {parts : List String} {e : SystemError}
    (h : d.makeUpward anchor parts = (d', some e)) :
    ∃ e', d'.makeUpward anchor parts = (d', some e') := by
  induction parts generalizing d' e with
  | nil => cases h
  | cons last above ih =>
    have hrefused := h
    rw [makeUpward] at h
    split at h
    · cases h
    · split at h
      · split at h
        · next made e' hup =>
          cases h
          obtain ⟨e'', hagain⟩ := ih hup
          exact exists_makeUpward_of_above hagain
        · next up hup =>
          split at h
          · cases h
          · next code hensure =>
            cases h
            have hmade := makeDirectories_of_isDirectory (isDirectory_of_makeUpward hup)
            rw [makeDirectories, List.reverse_reverse] at hmade
            exact exists_makeUpward_of_ensureDirectory hmade hensure
      · split at h
        · cases h
        · -- nothing has come, so that the second attempt is the first one
          cases h
          exact ⟨_, hrefused⟩

/-- Where directories could not be made, they cannot be made either once some have come. -/
theorem makeDirectories_again {e : SystemError} (h : d.makeDirectories p = (d', some e)) :
    ∃ e', d'.makeDirectories p = (d', some e') :=
  makeUpward_again h

end Disk
end HotSwap
