/-
Accesses of a host that refuses nothing.

Where the host lets every access through, what becomes of the files of a configuration
depends on what stands at their paths, and on nothing else: a read finds the file, a removal
and a write change the one path.  This holds also where paths coincide.

* `Link.Lets` — from some state on, the host refuses nothing, whatever it is asked;
* `Disk.exists_fill_temporaryFor`, `Disk.exists_move` — the disk does not refuse a write
  either, if the directory is there and the target is not one itself;
* `FilePaths.put` — the files after one path has changed, be it the path of several;
* `FilePaths.Ready` — the books and the files before a stretch in which nothing is refused;
* `Ready.ends_readFile`, `Ready.ends_discardFile`, `Ready.ends_write` — the accesses;
* `Ready.ends_copy`, `Ready.ends_backup`, `Ready.ends_persist`, `Ready.ends_restore` — the
  operations.
-/
import HotSwap.Proofs.Confinement

namespace HotSwap

open Act

variable {σ : Type} {link : Link σ} {p : FilePaths} {w w' : World σ} {s t : Slot}

/-! ### Hosts that refuse nothing -/

/-- The host refuses no access any more, whichever it is asked for. -/
def Link.Lets (link : Link σ) (host : σ) : Prop :=
  ∀ (as : List Access) (a : Access),
    (link.gate a (as.foldl (fun host a => (link.gate a host).2) host)).1 = none

theorem Link.Lets.gate {host : σ} (h : link.Lets host) (a : Access) :
    (link.gate a host).1 = none := h [] a

theorem Link.Lets.next {host : σ} (h : link.Lets host) (a : Access) :
    link.Lets (link.gate a host).2 := fun as b => h (a :: as) b

/-! ### The disk -/

namespace Disk

variable {d : Disk} {content : Bytes}

/-- A route of directories can be walked. -/
theorem walk_of_solid {here r : Route} (h : d.Solid (here ++ r)) (hdots : ".." ∉ r) :
    d.walk here r = .ok (here ++ r) := by
  induction r generalizing here with
  | nil => simp [walk]
  | cons s ss ih =>
    simp only [List.mem_cons, not_or] at hdots
    have hdir : d.node? (here ++ [s]) = some .directory := by
      have := h (here.length + 1)
      rwa [List.take_length_add_append] at this
    rw [walk, if_neg (by simpa using Ne.symm hdots.1), hdir]
    have hrest : d.walk (here ++ [s]) ss = .ok (here ++ [s] ++ ss) := ih (by simpa using h) hdots.2
    simpa using hrest

/-- A directory that is there can be walked to. -/
theorem exists_walk_of_isDirectory {q : Path} (h : d.isDirectory q = true) :
    d.walk [] q.parts = .ok q.place ∧ d.Solid q.place := by
  obtain ⟨hroute, hnode⟩ := found_eq_some_iff.mp (isDirectory_iff.mp h)
  have hwalk : ∃ r, d.walk [] q.parts = .ok r := by
    rcases List.eq_nil_or_concat' q.parts with hq | ⟨above, last, hq⟩
    · exact ⟨[], by rw [hq, walk]⟩
    · rw [route_concat d hq] at hroute
      rw [hq, walk_append]
      cases hwalk : d.walk [] above with
      | error code => simp [hwalk, Except.map] at hroute
      | ok r =>
        rw [hwalk] at hroute
        have hplace := Except.ok.inj hroute
        show ∃ r', d.walk r [last] = .ok r'
        rw [walk]
        split at hplace
        · next hlast => exact ⟨r.dropLast, by simp [hlast, walk]⟩
        · next hlast => exact ⟨r ++ [last], by simp [hlast, hplace, hnode, walk]⟩
  obtain ⟨r, hr⟩ := hwalk
  obtain ⟨hsolid, rfl⟩ := walk_ok hr (solid_nil d)
  exact ⟨hr, hsolid⟩

/-- In a directory that is there, a temporary file can be made. -/
theorem exists_fill_temporaryFor {target : Path} (h : d.isDirectory target.parent = true)
    (apart : List Path) (content : Bytes) :
    ∃ d', d.fill (temporaryFor d target apart) content = .ok d' := by
  have hwalk : d.walk [] target.parent.place = .ok target.parent.place :=
    walk_of_solid (exists_walk_of_isDirectory h).2 (Path.dots_not_mem_climb _ (by simp))
  have hroute := route_concat (p := temporaryFor d target apart) d rfl
  rw [show Path.climb [] target.parent.parts = target.parent.place from rfl, hwalk] at hroute
  rw [fill, hroute]
  simp [Except.map, bind, Except.bind, freshName_ne_dots, node?_freshName, pure, Except.pure]

/-- A file can be moved onto a name in a directory, if that is not a directory itself. -/
theorem exists_move {source target : Path} {directory : List String} {name : String}
    {above : Route} (hsource : d.found source = some (.file content))
    (htarget : target.parts = directory ++ [name]) (hwalk : d.walk [] directory = .ok above)
    (hdir : d.found target ≠ some .directory) : ∃ d', d.move source target = .ok d' := by
  obtain ⟨hroute, hnode⟩ := found_eq_some_iff.mp hsource
  have hsolid := (walk_ok hwalk (solid_nil d)).1
  have hname : name ≠ ".." := by
    -- what is above a directory is one
    rintro rfl
    refine hdir ?_
    rw [found, route_concat d htarget, hwalk]
    exact hsolid.dropLast.self
  have hroute' : d.route target = .ok (above ++ [name]) := by
    rw [route_concat d htarget, hwalk]
    simp [Except.map, hname]
  have hclimbs : climbs target = false := by
    simp [climbs, Path.name, htarget, hname]
  have hnode' : d.node? (above ++ [name]) ≠ some .directory := by
    rw [found, hroute'] at hdir
    exact hdir
  rw [move, hroute, hroute']
  rcases hn : d.node? (above ++ [name]) with _ | _ | _
  · simp [bind, Except.bind, hclimbs, hnode, hn, pure, Except.pure]
  · simp [bind, Except.bind, hclimbs, hnode, hn, pure, Except.pure]
  · exact absurd hn hnode'

end Disk

/-! ### The files -/

namespace FilePaths

variable {c : Contents} {n : Option Node} {d d' : Disk}

/-- The files after the path of one of them has changed. -/
def put (p : FilePaths) (c : Contents) (s : Slot) (n : Option Node) : Contents := fun t =>
  if p.path t = p.path s then n else c t

@[simp] theorem put_self (p : FilePaths) (c : Contents) (s : Slot) (n : Option Node) :
    p.put c s n s = n := if_pos rfl

theorem put_of_eq (h : p.path t = p.path s) : p.put c s n t = n := if_pos h

theorem put_of_ne (h : p.path t ≠ p.path s) : p.put c s n t = c t := if_neg h

theorem put_ne_directory (hn : n ≠ some .directory) (ht : c t ≠ some .directory) :
    p.put c s n t ≠ some .directory := by
  rw [put]
  split
  · exact hn
  · exact ht

/-- Where the paths differ, one file has changed. -/
theorem Separate.put_eq_update (hp : p.Separate) (c : Contents) (s : Slot) (n : Option Node) :
    p.put c s n = Function.update c s n := by
  funext t
  by_cases ht : t = s
  · rw [ht, put_self, Function.update_self]
  · rw [put_of_ne (hp.path_injective.ne ht), Function.update_of_ne ht]

/-- What changes one path changes the files so. -/
theorem Beside.contents_of_change (hp : p.Beside) (hs : d'.found (p.path s) = n)
    (h : ∀ t, (p.path t).place ≠ (p.path s).place → d'.found (p.path t) = d.found (p.path t)) :
    p.contents d' = p.put (p.contents d) s n := by
  funext t
  by_cases ht : p.path t = p.path s
  · rw [put_of_eq ht, contents, ht, hs]
  · rw [put_of_ne ht]
    obtain ⟨m, hm⟩ := hp s
    obtain ⟨m', hm'⟩ := hp t
    have hne : m' ≠ m := by
      rintro rfl
      exact ht (hm'.trans hm.symm)
    exact h t (Path.place_ne_of_name_ne (by rw [hm']) (by rw [hm]) hne)

/-- The temporary file beside one of the four files is none of them. -/
theorem Beside.aside_temporaryFor (hp : p.Beside) (d : Disk) (t : Slot) :
    p.Aside (temporaryFor d (p.path t) p.all) := by
  choose name hname using hp
  exact aside_temporaryFor_of_names hname d t

/-- A file is found where the place of its path says, if their directory is there. -/
theorem Beside.route_eq (hp : p.Beside) (hdir : d.isDirectory p.active.parent = true) (s : Slot) :
    d.route (p.path s) = .ok (p.path s).place := by
  obtain ⟨name, hname⟩ := hp s
  have hroute := Disk.route_concat (p := p.path s) d (by rw [hname])
  rw [show p.active.parts.dropLast = p.active.parent.parts from rfl,
    (Disk.exists_walk_of_isDirectory hdir).1] at hroute
  rw [← Disk.route_eq_place hroute, hroute]
  rfl

/-- Nothing can be removed there if nothing is found. -/
theorem Beside.remove_of_found_eq_none (hp : p.Beside)
    (hdir : d.isDirectory p.active.parent = true) (hs : d.found (p.path s) = none) :
    d.remove (p.path s) = .error SystemError.notFound := by
  have hroute := hp.route_eq hdir s
  have hnone : d.node? (p.path s).place = none := by
    rw [Disk.found, hroute] at hs
    exact hs
  rw [Disk.remove, hroute]
  simp [bind, Except.bind, hnone, throw, throwThe, MonadExceptOf.throw]

/-! ### Before a stretch in which nothing is refused -/

/-- The books are `b`, the files `c` and their directory is there, and nothing will be
refused. -/
structure Ready (link : Link σ) (p : FilePaths) (b : Bookkeeping) (c : Contents) (w : World σ) :
    Prop where
  lets : link.Lets w.host
  books : w.books = b
  contents : p.contents w.disk = c
  directory : w.disk.isDirectory p.active.parent = true

namespace Ready

variable {b : Bookkeeping} (h : p.Ready link b c w)

include h

theorem log (log : Array Record) : p.Ready link b c { w with log } :=
  ⟨h.lets, h.books, h.contents, h.directory⟩

theorem enter (e : Entry) : p.Ready link b c (w.enter e) :=
  ⟨h.lets, h.books, h.contents, h.directory⟩

theorem changeBooks (f : Bookkeeping → Bookkeeping) :
    p.Ready link (f b) c { w with books := f w.books } :=
  ⟨h.lets, congrArg f h.books, h.contents, h.directory⟩

/-- An access that is let through leaves the files as they are. -/
theorem gate (a : Access) : p.Ready link b c { w with host := (link.gate a w.host).2 } :=
  ⟨h.lets.next a, h.books, h.contents, h.directory⟩

/-- The disk changes by one path, and keeps its directories. -/
theorem change (hp : p.Beside) {disk : Disk} {n : Option Node}
    (hsame : Disk.SameDirectories w.disk disk) (hs : disk.found (p.path s) = n)
    (helse : ∀ t, (p.path t).place ≠ (p.path s).place →
      disk.found (p.path t) = w.disk.found (p.path t)) :
    p.Ready link b (p.put c s n) { w with disk } where
  lets := h.lets
  books := h.books
  contents := by
    rw [← h.contents]
    exact hp.contents_of_change hs helse
  directory := (hsame.isDirectory _).mpr h.directory

/-! ### Accesses -/

theorem ends_readFile {content : Bytes} (hs : c s = some (.file content)) :
    (link.readFile (p.path s)).Ends w (fun x w' => x = content ∧ p.Ready link b c w')
      fun _ _ => False := by
  have hread : w.disk.read (p.path s) = .ok content := by
    rw [Disk.read_eq_ok_iff]
    exact (congrFun h.contents s).trans hs
  rw [Link.readFile, ends_noted, ends_bind, Link.leave, ends_bind, ends_choose, h.lets.gate,
    ends_pure, ends_bind, ends_look]
  dsimp only
  rw [hread]
  exact ⟨rfl, (h.gate _).enter _⟩

/-- What is no directory goes, if it is there. -/
theorem ends_discardFile (hp : p.Beside) (hs : c s ≠ some .directory) :
    (link.discardFile (p.path s)).Ends w (fun _ w' => p.Ready link b (p.put c s none) w')
      fun _ _ => False := by
  rw [Link.discardFile, ends_noted, ends_bind, Link.leave, ends_bind, ends_choose, h.lets.gate,
    ends_pure, ends_bind, ends_look]
  dsimp only
  cases hc : c s with
  | none =>
    rw [hp.remove_of_found_eq_none h.directory ((congrFun h.contents s).trans hc)]
    have hput : p.put c s none = c := by
      funext t
      by_cases ht : p.path t = p.path s
      · rw [put_of_eq ht, ← hc, ← h.contents]
        show w.disk.found _ = w.disk.found _
        rw [ht]
      · exact put_of_ne ht
    rw [hput]
    exact (h.gate _).enter _
  | some n =>
    cases n with
    | directory => exact absurd hc hs
    | file content =>
      have hfound : w.disk.found (p.path s) = some (.file content) :=
        (congrFun h.contents s).trans hc
      have hremove := Disk.remove_of_found hfound
      obtain ⟨-, hgone, helse⟩ := Disk.found_of_remove hremove
      obtain ⟨-, -, hsame, -⟩ := Disk.exists_of_remove hremove
      rw [hremove]
      exact ((h.gate _).change hp hsame hgone fun t => helse _).enter _

/-- A directory does not go. -/
theorem ends_discardFile_directory (hs : c s = some .directory) :
    (link.discardFile (p.path s)).Ends w (fun _ _ => False)
      fun e w' => e.Refusal ∧ p.Ready link b c w' := by
  have hremove := Disk.remove_of_directory ((congrFun h.contents s).trans hs)
  rw [Link.discardFile, ends_noted, ends_bind, Link.leave, ends_bind, ends_choose, h.lets.gate,
    ends_pure, ends_bind, ends_look]
  dsimp only
  rw [hremove]
  exact ⟨⟨_, rfl⟩, (h.gate _).enter _⟩

theorem ends_ensureDirectory {q : Path} (hq : w.disk.isDirectory q = true) :
    (Link.ensureDirectory q).Ends w (fun _ w' => p.Ready link b c w') fun _ _ => False := by
  rw [Link.ensureDirectory, ends_noted, ends_bind, ends_look,
    Disk.makeDirectories_of_isDirectory hq]
  exact h.enter _

/-- A file that is none of the four can be made, where the disk lets it. -/
theorem ends_makeFile {q : Path} (hq : p.Aside q) {content : Bytes} {disk : Disk}
    (hfill : w.disk.fill q content = .ok disk) :
    (Link.makeFile q content).Ends w
      (fun _ w' => w'.disk.found q = some (.file content) ∧ p.Ready link b c w')
      fun _ _ => False := by
  obtain ⟨hsame, hfound, -⟩ := Disk.found_of_fill hfill
  rw [Link.makeFile, ends_noted, ends_bind, ends_look, hfill]
  exact ⟨hfound, h.lets, h.books, (hq.contents_of_fill hfill).trans h.contents,
    (hsame.isDirectory _).mpr h.directory⟩

/-- It can be moved onto one of the four that is no directory. -/
theorem ends_moveFile (hp : p.Beside) {q : Path} (hq : p.Aside q) {content : Bytes}
    (hfound : w.disk.found q = some (.file content)) (hs : c s ≠ some .directory) :
    (link.moveFile q (p.path s)).Ends w
      (fun _ w' => p.Ready link b (p.put c s (some (.file content))) w') fun _ _ => False := by
  obtain ⟨name, hname⟩ := hp s
  have hdir : w.disk.found (p.path s) ≠ some .directory := by
    rw [← h.contents] at hs
    exact hs
  have htarget : (p.path s).parts = p.active.parent.parts ++ [name] := by rw [hname]; rfl
  obtain ⟨disk, hmove⟩ := Disk.exists_move hfound htarget
    (Disk.exists_walk_of_isDirectory h.directory).1 hdir
  obtain ⟨moved, hmoved, -, htarget, helse⟩ := Disk.found_of_move hmove
  obtain rfl : content = moved := by simpa [hfound] using hmoved
  rw [Link.moveFile, ends_noted, ends_bind, Link.leave, ends_bind, ends_choose, h.lets.gate,
    ends_pure, ends_bind, ends_look]
  dsimp only
  rw [hmove]
  exact ((h.gate _).change hp (Disk.sameDirectories_of_move hmove) htarget fun t ht =>
    helse _ (hq t) ht).enter _

/-- What is no directory can be written. -/
theorem ends_write (hp : p.Beside) (hs : c s ≠ some .directory) (content : Bytes) :
    (writeAtomically link (p.path s) content p.all).Ends w
      (fun _ w' => p.Ready link b (p.put c s (some (.file content))) w') fun _ _ => False := by
  have hdir : ∀ {w' : World σ}, p.Ready link b c w' →
      w'.disk.isDirectory (p.path s).parent = true := fun h' => by
    rw [hp.parent_eq s]
    exact h'.directory
  rw [writeAtomically]
  refine (h.ends_ensureDirectory (hdir h)).bind (fun _ w₁ h₁ => ?_) fun _ _ he => he
  obtain ⟨disk, hfill⟩ := Disk.exists_fill_temporaryFor (hdir h₁) p.all content
  have haside := hp.aside_temporaryFor w₁.disk s
  rw [ends_bind, ends_look]
  refine (h₁.ends_makeFile haside hfill).bind ?_ fun _ _ he => he
  rintro - w₂ ⟨hfound, h₂⟩
  rw [ends_bind, ends_outcome]
  exact (h₂.ends_moveFile hp haside hfound hs).mono (fun _ _ h₃ => h₃) fun _ _ he => he.elim

end Ready
end FilePaths

/-! ### Operations -/

namespace FileSet

theorem ends_explained_of_safe {α : Type} {a : Act σ α} {problem : FileProblem} {path : Path}
    {P : α → World σ → Prop} (h : a.Ends w P fun _ _ => False) :
    (explained problem path a).Ends w P fun _ _ => False := by
  rw [explained, ends_bind, ends_rescue]
  exact h.mono (fun _ _ hx => hx) fun _ _ he => he.elim

end FileSet

namespace FilePaths

variable {b : Bookkeeping} {c : Contents}

/-- The files when the backups have been removed. -/
def unbacked (p : FilePaths) (c : Contents) : Contents :=
  p.put (p.put c (.backup .rendered) none) (.backup .raw) none

/-- The files with other backups. -/
def backedUp (p : FilePaths) (c : Contents) (rendered raw : Bytes) : Contents :=
  p.put (p.put c (.backup .rendered) (some (.file rendered))) (.backup .raw) (some (.file raw))

/-- The files with the two current ones replaced, the raw one at last. -/
def replaced (p : FilePaths) (c : Contents) (rendered raw : Bytes) : Contents :=
  p.put (p.put c (.current .rendered) (some (.file rendered))) (.current .raw) (some (.file raw))

theorem unbacked_ne_directory (ht : c t ≠ some .directory) : p.unbacked c t ≠ some .directory :=
  put_ne_directory (by simp) (put_ne_directory (by simp) ht)

namespace Ready

open FileSet

variable (h : p.Ready link b c w) (hp : p.Beside)

include h hp

theorem ends_removeLogged (hs : c s ≠ some .directory) :
    (removeLogged link (p.path s)).Ends w
      (fun removed w' => removed = true ∧ p.Ready link b (p.put c s none) w')
      fun _ _ => False := by
  rw [removeLogged, ends_bind, ends_rescue]
  exact (h.ends_discardFile hp hs).mono (fun _ _ h' => ⟨rfl, h'⟩) fun _ _ he => he.elim

omit hp in
theorem ends_removeLogged_directory (hs : c s = some .directory) :
    (removeLogged link (p.path s)).Ends w
      (fun removed w' => removed = false ∧ p.Ready link b c w') fun _ _ => False := by
  rw [removeLogged, ends_bind, ends_rescue]
  refine (h.ends_discardFile_directory hs).mono (fun _ _ he => he.elim) ?_
  rintro _ w' ⟨⟨refusal, rfl⟩, h'⟩
  exact ⟨rfl, h'.log _⟩

theorem ends_removeStale (hbackups : ∀ f, c (.backup f) ≠ some .directory) :
    (removeStale link p.backups).Ends w (fun _ w' => p.Ready link b (p.unbacked c) w')
      fun _ _ => False := by
  rw [show p.backups = [p.path (.backup .rendered), p.path (.backup .raw)] from rfl, removeStale]
  refine (h.ends_removeLogged hp (hbackups .rendered)).bind ?_ fun _ _ he => he
  rintro _ w₁ ⟨rfl, h₁⟩
  rw [if_pos rfl, removeStale]
  refine (h₁.ends_removeLogged hp (put_ne_directory (by simp) (hbackups .raw))).bind ?_
    fun _ _ he => he
  rintro _ w₂ ⟨rfl, h₂⟩
  exact h₂

/-- A file that is there is copied. -/
theorem ends_copy {f : Form} {content : Bytes} (unreadable : FileProblem)
    (hfile : c (.current f) = some (.file content))
    (hbackup : c (.backup f) ≠ some .directory) :
    (copy link p unreadable (p.path (.current f)) (p.path (.backup f))).Ends w
      (fun _ w' => p.Ready link { b with copied := p.path (.current f) :: b.copied }
        (p.put c (.backup f) (some (.file content))) w') fun _ _ => False := by
  rw [copy]
  refine (ends_explained_of_safe (h.ends_readFile hfile)).bind ?_ fun _ _ he => he
  rintro content w₁ ⟨rfl, h₁⟩
  refine (ends_explained_of_safe (h₁.ends_write hp hbackup content)).bind ?_ fun _ _ he => he
  rintro - w₂ h₂
  exact h₂.changeBooks fun b => { b with copied := p.path (.current f) :: b.copied }

/-- A backup of two files that are there when it comes to them. -/
theorem ends_backup {rendered raw : Bytes} (hbackups : ∀ f, c (.backup f) ≠ some .directory)
    (hrendered : p.unbacked c (.current .rendered) = some (.file rendered))
    (hraw : p.put (p.unbacked c) (.backup .rendered) (some (.file rendered)) (.current .raw) =
      some (.file raw)) :
    (FileSet.backup link p).Ends w
      (fun _ w' => p.Ready link { copied := [p.raw, p.active], rawWasAbsent := some false }
        (p.backedUp (p.unbacked c) rendered raw) w')
      fun _ _ => False := by
  rw [FileSet.backup, ends_bind, ends_enter, ends_bind, ends_changeBooks]
  have h₀ := (h.enter (.began .backup)).changeBooks fun _ => {}
  refine (h₀.ends_removeStale hp hbackups).bind (fun _ w₁ h₁ => ?_) fun _ _ he => he
  refine (h₁.ends_copy hp .unreadableActive hrendered
    (unbacked_ne_directory (hbackups .rendered))).bind (fun _ w₂ h₂ => ?_) fun _ _ he => he
  have hfile : w₂.disk.isFile p.raw = true :=
    Disk.isFile_iff.mpr ⟨raw, (congrFun h₂.contents (.current .raw)).trans hraw⟩
  rw [FileSet.backupRaw, ends_bind, ends_bind, ends_look, hfile, if_pos rfl, ends_bind]
  refine (h₂.ends_copy hp .unreadableRaw hraw
    (put_ne_directory (by simp) (unbacked_ne_directory (hbackups .raw)))).mono
    (fun _ w₃ h₃ => ?_) fun _ _ he => he
  exact (h₃.changeBooks fun b => { b with rawWasAbsent := some false }).log _

/-- A persist writes both files, the raw one at last. -/
theorem ends_persist (rendered raw : Bytes) (hfiles : ∀ f, c (.current f) ≠ some .directory) :
    (persist link p rendered raw).Ends w
      (fun _ w' => p.Ready link b (p.replaced c (p.encode rendered) raw) w')
      fun _ _ => False := by
  rw [persist, ends_bind, ends_enter]
  refine (ends_explained_of_safe ((h.enter (.began .persist)).ends_write hp
    (hfiles .rendered) (p.encode rendered))).bind (fun _ w₁ h₁ => ?_) fun _ _ he => he
  refine (ends_explained_of_safe (h₁.ends_write hp
    (put_ne_directory (by simp) (hfiles .raw)) raw)).bind (fun _ w₂ h₂ => ?_) fun _ _ he => he
  exact h₂.log _

/-- A file that was copied is put back. -/
theorem ends_restore {f : Form} {content : Bytes} (hcopied : p.path (.current f) ∈ b.copied)
    (hbackup : c (.backup f) = some (.file content))
    (hfile : c (.current f) ≠ some .directory) :
    (restore link p (p.path (.current f)) (p.path (.backup f))).Ends w
      (fun restored w' => restored = true ∧
        p.Ready link b (p.put c (.current f) (some (.file content))) w')
      fun _ _ => False := by
  rw [restore, ends_bind, ends_books, h.books, if_pos (by simpa using hcopied), ends_bind,
    ends_rescue]
  refine (h.ends_readFile hbackup).bind ?_ fun _ _ he => he.elim
  rintro content w₁ ⟨rfl, h₁⟩
  exact (h₁.ends_write hp hfile content).mono (fun _ _ h₂ => ⟨rfl, h₂⟩) fun _ _ he => he.elim

/-- A revert of two files that were copied: each is read from its backup when it comes to it. -/
theorem ends_revert {rendered raw : Bytes} (hcopied : ∀ f, p.path (.current f) ∈ b.copied)
    (hfiles : ∀ f, c (.current f) ≠ some .directory)
    (hrendered : c (.backup .rendered) = some (.file rendered))
    (hraw : p.put c (.current .rendered) (some (.file rendered)) (.backup .raw) =
      some (.file raw)) :
    (revert link p).Ends w
      (fun restored w' => restored = true ∧ p.Ready link b (p.replaced c rendered raw) w')
      fun _ _ => False := by
  rw [revert, ends_bind, ends_enter]
  refine ((h.enter (.began .revert)).ends_restore hp (hcopied .rendered) hrendered
    (hfiles .rendered)).bind ?_ fun _ _ he => he
  rintro _ w₁ ⟨rfl, h₁⟩
  refine (h₁.ends_restore hp (hcopied .raw) hraw
    (put_ne_directory (by simp) (hfiles .raw))).bind ?_ fun _ _ he => he
  rintro _ w₂ ⟨rfl, h₂⟩
  exact ⟨rfl, h₂⟩

end Ready
end FilePaths
end HotSwap
