/-
The four files of a configuration, as they stand on a disk.

* `Form`, `Slot`, `FilePaths.path` — the four files by name: the current file and the
  backup of each of the two forms of a configuration;
* `FilePaths.contents` — what stands at each of the four paths;
* `FilePaths.Separate` — the paths are four names in one directory, which is so
  whenever they were derived from an active path and differ
  (`FilePaths.separate_of_derive`);
* `Separate.contents_of_remove`, `Separate.contents_of_move` — what the accesses to
  a disk change of the contents;
* `FilePaths.Aside` — a place that is none of the four, such as that of the
  temporary file beside them (`Separate.aside_temporaryFor`).
-/
import HotSwap.Configuration.FileSet
import HotSwap.Proofs.Places

namespace HotSwap

/-- The forms of a configuration: as it can run, and as it was received. -/
inductive Form where
  | rendered
  | raw
  deriving DecidableEq, Repr

/-- The four files of a configuration. -/
inductive Slot where
  | current (f : Form)
  | backup (f : Form)
  deriving DecidableEq, Repr

/-- What stands at the four paths. -/
abbrev Contents := Slot → Option Node

namespace FilePaths

variable {p : FilePaths} {d d' : Disk} {s t : Slot}

/-- The path of a file. -/
def path (p : FilePaths) : Slot → Path
  | .current .rendered => p.active
  | .backup .rendered => p.backup
  | .current .raw => p.raw
  | .backup .raw => p.backupRaw

/-- What stands at the four paths. -/
def contents (p : FilePaths) (d : Disk) : Contents := fun s => d.found (p.path s)

theorem path_mem_all (p : FilePaths) (s : Slot) : p.path s ∈ p.all := by
  rcases s with (_ | _) | (_ | _) <;> simp [FilePaths.path, all]

theorem path_injective_of_nodup (h : p.all.Nodup) : p.path.Injective := by
  simp only [all, List.nodup_cons, List.mem_cons, List.not_mem_nil, or_false, not_or] at h
  obtain ⟨⟨hab, har, habr⟩, ⟨hbr, hbbr⟩, hrbr, -⟩ := h
  intro s t heq
  rcases s with (_ | _) | (_ | _) <;> rcases t with (_ | _) | (_ | _) <;> first
    | rfl
    | exact absurd heq ‹_›
    | exact absurd heq.symm ‹_›

/-! ### Separate paths -/

/-- The four paths are four names in one directory. -/
def Separate (p : FilePaths) : Prop :=
  ∃ (anchor : Anchor) (directory : List String) (name : Slot → String),
    name.Injective ∧ ∀ s, p.path s = { anchor, parts := directory ++ [name s] }

theorem Separate.place_ne (h : p.Separate) (hne : s ≠ t) : (p.path s).place ≠ (p.path t).place := by
  obtain ⟨anchor, directory, name, hinj, hat⟩ := h
  have hs : (p.path s).parts = directory ++ [name s] := by rw [hat s]
  have ht : (p.path t).parts = directory ++ [name t] := by rw [hat t]
  exact Path.place_ne_of_name_ne hs ht (hinj.ne hne)

theorem Separate.path_injective (h : p.Separate) : p.path.Injective := fun s t heq => by
  by_contra hne
  exact h.place_ne hne (by rw [heq])

theorem withName_ok {q r : Path} {name : String} (h : q.withName name = .ok r) :
    q.parts ≠ [] ∧ r = { q with parts := q.parts.dropLast ++ [name] } := by
  rw [Path.withName] at h
  split at h
  · cases h
  · next hname =>
    split at h
    · cases h
      refine ⟨fun hnil => hname ?_, rfl⟩
      simp [Path.name, hnil]
    · cases h

theorem derive_ok {file directory : Path} {backupSuffix rawExtension : String}
    (h : derive file directory backupSuffix rawExtension = .ok p) :
    p.active.withName (p.active.name ++ backupSuffix) = .ok p.backup ∧
      p.active.withName (p.active.stem ++ rawExtension) = .ok p.raw ∧
      p.active.withName (p.active.stem ++ backupSuffix ++ rawExtension) = .ok p.backupRaw := by
  rw [derive] at h
  generalize file.absoluteIn directory = active at h
  cases hb : active.withName (active.name ++ backupSuffix) with
  | error e => simp [hb, bind, Except.bind] at h
  | ok backup =>
    cases hr : active.withName (active.stem ++ rawExtension) with
    | error e => simp [hb, hr, bind, Except.bind] at h
    | ok raw =>
      cases hbr : active.withName (active.stem ++ backupSuffix ++ rawExtension) with
      | error e => simp [hb, hr, hbr, bind, Except.bind] at h
      | ok backupRaw =>
        simp only [hb, hr, hbr, bind, Except.bind, pure, Except.pure, Except.ok.injEq] at h
        subst h
        exact ⟨hb, hr, hbr⟩

/-- Four different paths are separate if all are names in one directory. -/
theorem separate_of_names (anchor : Anchor) (directory : List String)
    (hat : ∀ s, ∃ name, p.path s = { anchor, parts := directory ++ [name] })
    (hdistinct : p.all.Nodup) : p.Separate := by
  choose name hname using hat
  refine ⟨anchor, directory, name, fun s t heq => ?_, hname⟩
  -- equal names would be equal paths, and the four paths differ
  refine path_injective_of_nodup hdistinct ?_
  rw [hname s, hname t, heq]

/-- Paths that were derived from an active path are names in its directory. -/
theorem path_of_derive {file directory : Path} {backupSuffix rawExtension : String}
    (h : derive file directory backupSuffix rawExtension = .ok p) (s : Slot) :
    ∃ name, p.path s =
      { anchor := p.active.anchor, parts := p.active.parts.dropLast ++ [name] } := by
  obtain ⟨hb, hr, hbr⟩ := derive_ok h
  rcases s with (_ | _) | (_ | _)
  · refine ⟨p.active.parts.getLast (withName_ok hb).1, ?_⟩
    rw [List.dropLast_append_getLast]
    rfl
  · exact ⟨_, (withName_ok hr).2⟩
  · exact ⟨_, (withName_ok hb).2⟩
  · exact ⟨_, (withName_ok hbr).2⟩

/-- If they differ, they are separate. -/
theorem separate_of_derive {file directory : Path} {backupSuffix rawExtension : String}
    (h : derive file directory backupSuffix rawExtension = .ok p) (hdistinct : p.all.Nodup) :
    p.Separate :=
  separate_of_names p.active.anchor p.active.parts.dropLast (path_of_derive h) hdistinct

/-- Where one of the four files stands, their directory is there. -/
theorem Separate.isDirectory_parent (h : p.Separate) {n : Node} (hs : p.contents d s = some n)
    (t : Slot) : d.isDirectory (p.path t).parent = true := by
  obtain ⟨anchor, directory, name, -, hpath⟩ := h
  have hparent : (p.path t).parent = { anchor, parts := directory } := by
    rw [Path.parent, hpath t]
    simp
  rw [hparent]
  exact Disk.isDirectory_of_found (by rw [hpath s]) hs

/-! ### Accesses -/

/-- A place that is none of the four. -/
def Aside (p : FilePaths) (q : Path) : Prop := ∀ s, (p.path s).place ≠ q.place

theorem Aside.contents_of_fill {q : Path} {content : Bytes} (hq : p.Aside q)
    (h : d.fill q content = .ok d') : p.contents d' = p.contents d :=
  funext fun s => (Disk.found_of_fill h).2.2 _ (hq s)

theorem Aside.contents_of_remove {q : Path} (hq : p.Aside q) (h : d.remove q = .ok d') :
    p.contents d' = p.contents d :=
  funext fun s => (Disk.found_of_remove h).2.2 _ (hq s)

theorem Separate.contents_of_remove (hp : p.Separate) (h : d.remove (p.path s) = .ok d') :
    (∃ content, p.contents d s = some (.file content)) ∧
      p.contents d' = Function.update (p.contents d) s none := by
  obtain ⟨hfile, hgone, helse⟩ := Disk.found_of_remove h
  refine ⟨hfile, funext fun t => ?_⟩
  by_cases ht : t = s
  · subst ht
    rw [Function.update_self]
    exact hgone
  · rw [Function.update_of_ne ht]
    exact helse _ (hp.place_ne ht)

theorem Separate.contents_of_move (hp : p.Separate) {q : Path} (hq : p.Aside q)
    (h : d.move q (p.path s) = .ok d') : ∃ content, d.found q = some (.file content) ∧
      p.contents d s ≠ some .directory ∧
      p.contents d' = Function.update (p.contents d) s (some (.file content)) := by
  obtain ⟨content, hsource, hdir, htarget, helse⟩ := Disk.found_of_move h
  refine ⟨content, hsource, hdir, funext fun t => ?_⟩
  by_cases ht : t = s
  · subst ht
    rw [Function.update_self]
    exact htarget
  · rw [Function.update_of_ne ht]
    exact helse _ (hq t) (hp.place_ne ht)

/-- The temporary file beside one of four names in a directory is none of them. -/
theorem aside_temporaryFor_of_names {anchor : Anchor} {directory : List String}
    {name : Slot → String} (hpath : ∀ s, p.path s = { anchor, parts := directory ++ [name s] })
    (d : Disk) (t : Slot) : p.Aside (temporaryFor d (p.path t) p.all) := fun s => by
  have hname : (p.path s).name = name s := by
    rw [Path.name, hpath s]
    simp
  have hmem : name s ∈ p.all.map Path.name := by
    rw [← hname]
    exact List.mem_map_of_mem (p.path_mem_all s)
  generalize htemp : temporaryFor d (p.path t) p.all = q
  obtain ⟨fresh, hfresh, hparts⟩ : ∃ fresh, fresh ∉ p.all.map Path.name ∧
      q.parts = Path.climb [] directory ++ [fresh] := by
    refine ⟨_, Disk.freshName_not_mem d ("." ++ (p.path t).name ++ ".") ".tmp" _, ?_⟩
    rw [← htemp, temporaryFor, Path.parent, hpath t]
    simp
  -- the directory of the temporary file is written with its climbs carried out
  have hplace : q.place = (Path.mk anchor (directory ++ [fresh])).place := by
    rw [Path.place, Path.place, hparts, Path.climb_concat, Path.climb_concat,
      Path.climb_of_dots_not_mem (Path.dots_not_mem_climb directory (by simp))]
    rfl
  rw [hplace]
  have hs : (p.path s).parts = directory ++ [name s] := by rw [hpath s]
  refine Path.place_ne_of_name_ne hs rfl ?_
  rintro rfl
  exact hfresh hmem

/-- The temporary file beside one of the four files is none of them. -/
theorem Separate.aside_temporaryFor (hp : p.Separate) (d : Disk) (t : Slot) :
    p.Aside (temporaryFor d (p.path t) p.all) := by
  obtain ⟨anchor, directory, name, -, hpath⟩ := hp
  exact aside_temporaryFor_of_names hpath d t

end FilePaths
end HotSwap
