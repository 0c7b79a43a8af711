/-
When the names of the four files coincide.

The name of the active file is a stem and a suffix `s`.  Beside it, the settings make up
three more names from a backup suffix `b` and an extension `r` for raw files, so that the
four names are one stem with the endings `s`, `s b`, `r` and `b r`.

* `Path.splitName_cases` — the suffix of a name: nothing, or a dot and an ending without
  dots behind a stem that is not empty;
* `Path.isName_of_isPart` — what may stand between slashes is a name;
* `eq_of_append_eq_append` — the word equation `s b = b r` has a single solution;
* `FilePaths.derive_endings` — the four paths by their endings;
* `FileSettings.nodup_paths_iff` — accepted settings give four paths in one directory, and
  the two coincidences that there can be.

Design notes: names are compared as lists of characters, since they are cut and joined at
dots.
-/
import Mathlib.Data.List.Nodup
import HotSwap.Proofs.FourFiles
import HotSwap.Settings.Schema

namespace HotSwap

namespace Path

/-! ### Parts -/

/-- What can stand between two slashes of a path: not nothing, and no single dot. -/
def IsPart (cs : List Char) : Prop := '/' ∉ cs ∧ cs ≠ [] ∧ cs ≠ ['.']

theorem splitSlashes_ne_nil (cs : List Char) : splitSlashes cs ≠ [] := by
  cases cs with
  | nil => simp [splitSlashes]
  | cons c cs =>
    rw [splitSlashes]
    split
    · simp
    · split <;> simp

theorem splitSlashes_of_not_mem {cs : List Char} (h : '/' ∉ cs) : splitSlashes cs = [cs] := by
  induction cs with
  | nil => rfl
  | cons c cs ih =>
    rw [List.mem_cons, not_or] at h
    rw [splitSlashes, ih h.2]
    simp [Ne.symm h.1]

theorem not_mem_of_mem_splitSlashes {cs p : List Char} (hp : p ∈ splitSlashes cs) : '/' ∉ p := by
  induction cs generalizing p with
  | nil =>
    obtain rfl : p = [] := by simpa [splitSlashes] using hp
    simp
  | cons c cs ih =>
    rw [splitSlashes] at hp
    cases hcs : splitSlashes cs with
    | nil => exact absurd hcs (splitSlashes_ne_nil cs)
    | cons q qs =>
      rw [hcs] at ih hp
      by_cases hc : c = '/'
      · -- a slash begins a new part, which is empty
        simp only [hc, beq_self_eq_true, if_true, List.mem_cons] at hp
        rcases hp with rfl | hp
        · simp
        · exact ih (List.mem_cons.mpr hp)
      · simp only [beq_iff_eq, hc, if_false, List.mem_cons] at hp
        rcases hp with rfl | hp
        · rw [List.mem_cons, not_or]
          exact ⟨Ne.symm hc, ih (List.mem_cons_self ..)⟩
        · exact ih (List.mem_cons_of_mem _ hp)

theorem isPart_of_mem_partsOf {cs : List Char} {s : String} (hs : s ∈ partsOf cs) :
    IsPart s.toList := by
  rw [partsOf, List.mem_map] at hs
  obtain ⟨p, hp, rfl⟩ := hs
  rw [List.mem_filter] at hp
  rw [String.toList_ofList]
  exact ⟨not_mem_of_mem_splitSlashes hp.1, by simpa using hp.2⟩

/-- The final part of a path that has one. -/
theorem isPart_name {text : String} (h : (ofString text).name ≠ "") :
    IsPart (ofString text).name.toList := by
  suffices hmem : (ofString text).name ∈ partsOf text.toList from isPart_of_mem_partsOf hmem
  show (ofString text).name ∈ (ofString text).parts
  generalize ofString text = p at h
  rw [name] at h ⊢
  cases hlast : p.parts.getLast? with
  | none => simp [hlast] at h
  | some last => exact List.mem_of_getLast? hlast

/-- A part of a path is a name. -/
theorem isName_of_isPart {name : String} (h : IsPart name.toList) : isName name = true := by
  obtain ⟨hslash, hnil, hdot⟩ := h
  rw [isName]
  generalize name.toList = cs at hslash hnil hdot
  have hparts : (partsOf cs).length = 1 := by
    rw [partsOf, splitSlashes_of_not_mem hslash]
    simp [hnil, hdot]
  have hanchor : anchorOf cs = .none := by
    unfold anchorOf
    split
    · simp at hslash
    · simp at hslash
    · simp at hslash
    · rfl
  have hlast : cs.getLast? ≠ some '/' := fun h => hslash (List.mem_of_getLast? h)
  simp [hparts, hanchor, hlast]

/-! ### Stems and suffixes -/

/-- A suffix: nothing, or a dot and an ending without dots that is not empty. -/
def IsSuffix (s : List Char) : Prop := s = [] ∨ ∃ ending, s = '.' :: ending ∧ '.' ∉ ending

theorem splitName_append (name : String) :
    (splitName name).1.toList ++ (splitName name).2.toList = name.toList := by
  rw [splitName]
  split
  · simp
  · simp

theorem splitName_cases (name : String) :
    IsSuffix (splitName name).2.toList ∧ (name ≠ "" → (splitName name).1 ≠ "") := by
  rw [splitName]
  split
  · next hsplit =>
    simp only [Bool.and_eq_true, List.contains_eq_mem, decide_eq_true_eq, Bool.not_eq_true',
      List.isEmpty_eq_false_iff] at hsplit
    obtain ⟨⟨hdot, hbefore⟩, -⟩ := hsplit
    generalize name.toList = cs at hdot hbefore
    -- read from behind, the name is an ending without dots, then its last dot
    obtain ⟨ending, front, hcs, hnot⟩ := List.eq_append_cons_of_mem (List.mem_reverse.mpr hdot)
    have htake : cs.reverse.takeWhile (· != '.') = ending := by
      rw [hcs, List.takeWhile_append_of_pos fun c hc => by simpa using ne_of_mem_of_not_mem hc hnot]
      simp
    have hcs' : cs = front.reverse ++ '.' :: ending.reverse := by
      rw [← List.reverse_reverse cs, hcs]
      simp
    have hcut : cs.length - ending.length - 1 = front.reverse.length := by
      rw [hcs', List.length_append, List.length_cons, List.length_reverse, List.length_reverse]
      omega
    rw [htake, hcut] at hbefore
    rw [htake, hcut, hcs', List.drop_left, List.take_left]
    refine ⟨.inr ⟨ending.reverse, by simp, by simpa using hnot⟩, fun _ => ?_⟩
    rw [Ne, ← String.toList_eq_nil_iff, String.toList_ofList]
    exact List.length_pos_iff.mp hbefore
  · exact ⟨.inl (by simp), id⟩

/-- The path with another final part. -/
def beside (p : Path) (cs : List Char) : Path :=
  { p with parts := p.parts.dropLast ++ [String.ofList cs] }

theorem beside_injective (p : Path) : p.beside.Injective := fun cs ds h => by
  simpa [beside, String.ofList_inj] using h

theorem withName_eq_beside {p : Path} {name : String} (hp : p.name ≠ "")
    (hname : IsPart name.toList) : p.withName name = .ok (p.beside name.toList) := by
  rw [withName, if_neg (by simpa using hp), if_pos (isName_of_isPart hname), beside,
    String.ofList_toList]

/-- A path with a final part is beside itself. -/
theorem beside_name {p : Path} (hp : p.name ≠ "") : p.beside p.name.toList = p := by
  have hparts : p.parts ≠ [] := fun hnil => hp (by simp [name, hnil])
  rw [beside, String.ofList_toList, name, List.getLast?_eq_getLast_of_ne_nil hparts,
    Option.getD_some, List.dropLast_append_getLast]

theorem parent_beside (p : Path) (cs : List Char) : (p.beside cs).parent = p.parent := by
  simp [beside, parent]

/-- Seen from elsewhere, a path keeps its final part. -/
theorem name_absoluteIn {p : Path} (hp : p.name ≠ "") (directory : Path) :
    (p.absoluteIn directory).name = p.name := by
  have hparts : p.parts ≠ [] := fun hnil => hp (by simp [name, hnil])
  rw [absoluteIn, join]
  split
  · rfl
  · simp [name, List.getLast?_append_of_ne_nil _ hparts]

end Path

/-! ### Endings -/

/-- An extension: a dot, and something behind it. -/
def IsExtension (e : List Char) : Prop := '/' ∉ e ∧ ∃ ending, e = '.' :: ending ∧ ending ≠ []

theorem FileSettings.isExtension_iff {s : String} :
    FileSettings.isExtension s = true ↔ IsExtension s.toList := by
  rw [isExtension, IsExtension, ← String.length_toList]
  generalize s.toList = cs
  cases cs with
  | nil => simp
  | cons c cs =>
    have hlen : 2 ≤ (c :: cs).length ↔ cs ≠ [] := by
      rw [List.length_cons, ← List.length_pos_iff]
      omega
    simp only [List.head?_cons, Bool.and_eq_true, beq_iff_eq, Option.some.injEq, hlen,
      decide_eq_true_eq, Bool.not_eq_true', List.contains_eq_mem, decide_eq_false_iff_not,
      List.cons.injEq]
    constructor
    · rintro ⟨⟨rfl, hcs⟩, hslash⟩
      exact ⟨hslash, cs, ⟨rfl, rfl⟩, hcs⟩
    · rintro ⟨hslash, _, ⟨rfl, rfl⟩, hcs⟩
      exact ⟨⟨rfl, hcs⟩, hslash⟩

/-- Something with an extension behind it is a part of a path. -/
theorem Path.isPart_append {cs e : List Char} (hcs : '/' ∉ cs) (he : IsExtension e) :
    Path.IsPart (cs ++ e) := by
  obtain ⟨hslash, ending, rfl, hending⟩ := he
  refine ⟨by simpa [hcs] using hslash, by simp, fun heq => ?_⟩
  have hlen := congrArg List.length heq
  have := List.length_pos_iff.mpr hending
  simp only [List.length_append, List.length_cons, List.length_nil] at hlen
  omega

/-- Where `s b = b r`, and a dot is the first letter of `r` and the first and no other letter
of `s`, both are the same. -/
theorem eq_of_append_eq_append {ending r : List Char} (hs : '.' ∉ ending)
    (hr : r.head? = some '.') (b : List Char) (h : ('.' :: ending) ++ b = b ++ r) :
    '.' :: ending = r := by
  rcases List.append_eq_append_iff.mp h with ⟨c, hb, hc⟩ | ⟨c, hb, hc⟩
  · -- `b` begins with `s`, and what remains of it solves the same equation
    exact eq_of_append_eq_append hs hr c (hb.symm.trans hc)
  · -- `s` begins with `b`, and goes on with what `r` begins with
    cases b with
    | nil => simpa [hc] using hb
    | cons d b =>
      cases c with
      | nil => simpa [hc] using hb
      | cons e c =>
        obtain rfl : e = '.' := by simpa [hc] using hr
        have hending : ending = b ++ '.' :: c := by simpa using congrArg List.tail hb
        exact absurd (by simp [hending]) hs
termination_by b.length
decreasing_by
  rw [hb, List.length_append, List.length_cons]
  omega

/-- The endings of the four names, from the suffix of the active one, the backup suffix and the
extension of raw files. -/
def Slot.ending (s b r : List Char) : Slot → List Char
  | .current .rendered => s
  | .backup .rendered => s ++ b
  | .current .raw => r
  | .backup .raw => b ++ r

section

variable {s b r : List Char} (hb : IsExtension b)

include hb

/-- The active file is none of the backups: its ending has one dot at most. -/
theorem Slot.ending_active_ne (hs : Path.IsSuffix s) (hr : IsExtension r) (f : Form) :
    ending s b r (.current .rendered) ≠ ending s b r (.backup f) := by
  obtain ⟨-, b', rfl, -⟩ := hb
  obtain ⟨-, r', rfl, -⟩ := hr
  cases f with
  | rendered => exact fun heq : s = s ++ '.' :: b' => by simpa using congrArg List.length heq
  | raw =>
    rintro (rfl : s = '.' :: b' ++ '.' :: r')
    rcases hs with hnil | ⟨ending, hending, hnot⟩
    · cases hnil
    · obtain rfl : b' ++ '.' :: r' = ending := by simpa using hending
      simp at hnot

/-- The raw file is not its own backup. -/
theorem Slot.ending_raw_ne (s r : List Char) :
    ending s b r (.current .raw) ≠ ending s b r (.backup .raw) := by
  obtain ⟨-, b', rfl, -⟩ := hb
  intro (heq : r = '.' :: b' ++ r)
  have hlen := congrArg List.length heq
  simp at hlen
  omega

/-- The two backups are one only where the two current files are. -/
theorem Slot.eq_of_ending_backup (hs : Path.IsSuffix s) (hr : IsExtension r)
    (heq : ending s b r (.backup .rendered) = ending s b r (.backup .raw)) : r = s := by
  obtain ⟨-, b', rfl, -⟩ := hb
  obtain ⟨-, r', rfl, -⟩ := hr
  change s ++ '.' :: b' = '.' :: b' ++ '.' :: r' at heq
  rcases hs with rfl | ⟨ending, rfl, hnot⟩
  · simp at heq
  · exact (eq_of_append_eq_append hnot rfl _ heq).symm

/-- Of the four endings no two can be the same, but for that of the raw file and the active one
(and then those of their backups), and that of the raw file and the backup of the active
one. -/
theorem Slot.ending_injective_iff (hs : Path.IsSuffix s) (hr : IsExtension r) :
    (Slot.ending s b r).Injective ↔ r ≠ s ∧ r ≠ s ++ b := by
  constructor
  · intro h
    refine ⟨fun heq => ?_, fun heq => ?_⟩
    · have : Slot.current .raw = .current .rendered := h heq
      cases this
    · have : Slot.current .raw = .backup .rendered := h heq
      cases this
  · rintro ⟨hactive, hbackup⟩
    have hrendered := ending_active_ne hb hs hr
    have hown := ending_raw_ne hb s r
    have htwin := fun heq => hactive (eq_of_ending_backup hb hs hr heq)
    intro t t' heq
    rcases t with (_ | _) | (_ | _) <;> rcases t' with (_ | _) | (_ | _) <;> first
      | rfl
      | exact absurd heq (hrendered _)
      | exact absurd heq.symm (hrendered _)
      | exact absurd heq ‹_›
      | exact absurd heq.symm ‹_›

end

/-! ### The four paths -/

namespace FilePaths

variable {p : FilePaths} {file directory : Path} {backupSuffix rawExtension : String}

theorem exists_path_of_mem_all {q : Path} (hq : q ∈ p.all) : ∃ t, q = p.path t := by
  simp only [all, List.mem_cons, List.not_mem_nil, or_false] at hq
  rcases hq with rfl | rfl | rfl | rfl
  · exact ⟨.current .rendered, rfl⟩
  · exact ⟨.backup .rendered, rfl⟩
  · exact ⟨.current .raw, rfl⟩
  · exact ⟨.backup .raw, rfl⟩

theorem nodup_all_iff (p : FilePaths) : p.all.Nodup ↔ p.path.Injective := by
  refine ⟨path_injective_of_nodup, fun h => ?_⟩
  have hall : p.all = [Slot.current .rendered, .backup .rendered, .current .raw,
      .backup .raw].map p.path := rfl
  rw [hall]
  exact List.Nodup.map h (by decide)

/-- From a path with a final part, four paths are derived: its stem with four endings. -/
theorem derive_endings (hfile : Path.IsPart file.name.toList)
    (hbackup : IsExtension backupSuffix.toList) (hraw : IsExtension rawExtension.toList) :
    ∃ p, derive file directory backupSuffix rawExtension = .ok p ∧
      p.active = file.absoluteIn directory ∧ ∀ t, p.path t =
        (file.absoluteIn directory).beside (file.stem.toList ++
          Slot.ending file.suffix.toList backupSuffix.toList rawExtension.toList t) := by
  have hnamed : file.name ≠ "" := fun h => hfile.2.1 (by simp [h])
  have hname := Path.name_absoluteIn hnamed directory
  have hactive := Path.beside_name (p := file.absoluteIn directory) (by rwa [hname])
  -- the name is the stem with the suffix, and no part of it has a slash
  have hcut : file.stem.toList ++ file.suffix.toList = file.name.toList :=
    Path.splitName_append file.name
  have hstem : '/' ∉ file.stem.toList := fun h =>
    hfile.1 (hcut ▸ List.mem_append_left _ h)
  have hbeside : ∀ {name : String} {e : List Char} (cs), name.toList = cs ++ e → '/' ∉ cs →
      IsExtension e → (file.absoluteIn directory).withName name =
        .ok ((file.absoluteIn directory).beside (cs ++ e)) := by
    intro name e cs heq hcs he
    rw [Path.withName_eq_beside (by rwa [hname]) (heq ▸ Path.isPart_append hcs he), heq]
  have hmiddle : '/' ∉ file.stem.toList ++ backupSuffix.toList := by
    simp [hstem, hbackup.1]
  rw [derive, hname, show (file.absoluteIn directory).stem = file.stem by
      rw [Path.stem, hname, Path.stem],
    hbeside file.name.toList (by simp) hfile.1 hbackup,
    hbeside file.stem.toList (by simp) hstem hraw,
    hbeside (file.stem.toList ++ backupSuffix.toList) (by simp) hmiddle hraw]
  refine ⟨_, rfl, rfl, fun t => ?_⟩
  rcases t with (_ | _) | (_ | _)
  · rw [Slot.ending, hcut, ← hname, hactive]
    rfl
  · rfl
  · rw [Slot.ending, ← List.append_assoc, hcut]
    rfl
  · rw [Slot.ending, ← List.append_assoc]
    rfl

end FilePaths

/-! ### Accepted settings -/

namespace Checked

variable {α β : Type}

/-- Two checks together are good if both are. -/
theorem seq_good {g : Checked (α → β)} {a : Checked α} {y : β} (h : g <*> a = .good y) :
    ∃ f x, g = .good f ∧ a = .good x ∧ y = f x := by
  cases g with
  | bad problems => cases a <;> cases h
  | good f =>
    cases a with
    | bad problems => cases h
    | good x =>
      cases h
      exact ⟨f, x, rfl, rfl, rfl⟩

theorem map_good {f : α → β} {a : Checked α} {y : β} (h : f <$> a = .good y) :
    ∃ x, a = .good x ∧ y = f x := by
  obtain ⟨_, x, hf, ha, rfl⟩ := seq_good (show Checked.good f <*> a = .good y from h)
  cases hf
  exact ⟨x, ha, rfl⟩

theorem ofExcept_good {key : String} {r : Except Complaint α} {x : α}
    (h : ofExcept key r = .good x) : r = .ok x := by
  cases r with
  | error complaint => cases h
  | ok y =>
    cases h
    rfl

theorem required_good {entries : List (String × Data)} {key : String}
    {read : Data → Except Complaint α} {x : α} (h : required entries key read = .good x) :
    ∃ d, read d = .ok x := by
  rw [required] at h
  split at h
  · cases ofExcept_good h
  · next d _ => exact ⟨d, ofExcept_good h⟩

/-- What comes from an entry was read, or is the default. -/
theorem field_good {entries : List (String × Data)} {key : String} {default x : α}
    {read : Data → Except Complaint α} (h : field entries key default read = .good x) :
    x = default ∨ ∃ d, read d = .ok x := by
  rw [field] at h
  split at h
  · cases h
    exact .inl rfl
  · next d _ => exact .inr ⟨d, ofExcept_good h⟩

end Checked

namespace FileSettings

variable {entries : List (String × Data)} {f : FileSettings}

/-- A text that was read as an extension is one. -/
theorem isExtension_of_read {d : Data} {t : String}
    (h : (do extension (← Settings.asText d)) = .ok t) : IsExtension t.toList := by
  cases d with
  | text s =>
    change extension s = .ok t at h
    rw [extension] at h
    split at h
    · next hs =>
      cases h
      exact isExtension_iff.mp hs
    · cases h
  | _ => cases h

/-- Accepted settings hold a path that was read from a text, and two extensions. -/
theorem check_good (h : check entries = .good f) :
    (∃ text, f.file = Path.ofString text) ∧ IsExtension f.backupSuffix.toList ∧
      IsExtension f.rawExtension.toList := by
  obtain ⟨_, rawExtension, hrest, hraw, rfl⟩ := Checked.seq_good h
  obtain ⟨_, backupSuffix, hfirst, hbackup, rfl⟩ := Checked.seq_good hrest
  obtain ⟨file, hfile, rfl⟩ := Checked.map_good hfirst
  have hextension : ∀ {key default t : String}, IsExtension default.toList →
      Checked.field entries key default (fun d => do extension (← Settings.asText d)) = .good t →
      IsExtension t.toList := by
    intro key default t hdefault ht
    rcases Checked.field_good ht with rfl | ⟨d, hd⟩
    · exact hdefault
    · exact isExtension_of_read hd
  refine ⟨?_, hextension (isExtension_iff.mp (by decide)) hbackup,
    hextension (isExtension_iff.mp (by decide)) hraw⟩
  obtain ⟨d, hd⟩ := Checked.required_good hfile
  cases d with
  | text s =>
    cases hd
    exact ⟨s, rfl⟩
  | _ => cases hd

/-- The four paths that accepted settings give, by the endings of their names. -/
theorem paths_endings (h : check entries = .good f) (hfile : f.file.name ≠ "")
    (directory : Path) :
    ∃ p, f.paths directory = .ok p ∧ p.active = f.file.absoluteIn directory ∧ ∀ t, p.path t =
      (f.file.absoluteIn directory).beside (f.file.stem.toList ++
        Slot.ending f.file.suffix.toList f.backupSuffix.toList f.rawExtension.toList t) := by
  obtain ⟨⟨text, htext⟩, hbackup, hraw⟩ := check_good h
  refine FilePaths.derive_endings ?_ hbackup hraw
  rw [htext] at hfile ⊢
  exact Path.isPart_name hfile

/-- Settings that were accepted, for a path with a final part, give four paths in one
directory.  They are different just if the extension of raw files is neither the suffix of the
active file nor that suffix with the backup suffix behind it. -/
theorem nodup_paths_iff (h : check entries = .good f) (hfile : f.file.name ≠ "")
    (directory : Path) :
    ∃ p, f.paths directory = .ok p ∧ p.active = f.file.absoluteIn directory ∧
      (∀ q ∈ p.all, q.parent = p.active.parent) ∧
      (p.all.Nodup ↔ f.rawExtension ≠ f.file.suffix ∧
        f.rawExtension ≠ f.file.suffix ++ f.backupSuffix) := by
  obtain ⟨p, hp, hactive, hpath⟩ := paths_endings h hfile directory
  obtain ⟨-, hbackup, hraw⟩ := check_good h
  have hsuffix : Path.IsSuffix f.file.suffix.toList := (Path.splitName_cases _).1
  have hparent : ∀ t, (p.path t).parent = (f.file.absoluteIn directory).parent := fun t => by
    rw [hpath, Path.parent_beside]
  refine ⟨p, hp, hactive, fun q hq => ?_, ?_⟩
  · obtain ⟨t, rfl⟩ := FilePaths.exists_path_of_mem_all hq
    exact (hparent t).trans (hparent (.current .rendered)).symm
  · rw [FilePaths.nodup_all_iff, Ne, Ne, ← String.toList_inj, ← String.toList_inj,
      String.toList_append, ← Ne, ← Ne, ← Slot.ending_injective_iff hbackup hsuffix hraw]
    -- different endings behind one stem are different names in one directory
    refine ⟨fun hinj t t' heq => hinj ?_, fun hinj t t' heq => hinj ?_⟩
    · rw [hpath, hpath, heq]
    · rw [hpath, hpath] at heq
      exact List.append_cancel_left (Path.beside_injective _ heq)

end FileSettings

namespace Sample

/-- Entries under which the raw file is the backup of the active one. -/
def overlapping : List (String × Data) :=
  [("flow_configuration_file", .text "/conf/flow.json"), ("raw_extension", .text ".json.backup")]

/-- The settings that are read from them. -/
def overlap : FileSettings where
  file := { anchor := .slash, parts := ["conf", "flow.json"] }
  rawExtension := ".json.backup"

theorem check_overlapping : FileSettings.check overlapping = .good overlap := rfl

end Sample

namespace FileSettings

/-- The raw file is the backup of the active one. -/
theorem nodup_paths_iff_overlap :
    check Sample.overlapping = .good Sample.overlap ∧ Sample.overlap.file.name ≠ "" ∧
      ∃ p, Sample.overlap.paths { anchor := .slash, parts := [] } = .ok p ∧ ¬ p.all.Nodup := by
  have hname : Sample.overlap.file.name ≠ "" := by decide +kernel
  obtain ⟨p, hp, -, -, hnodup⟩ := nodup_paths_iff Sample.check_overlapping hname
    { anchor := .slash, parts := [] }
  refine ⟨Sample.check_overlapping, hname, p, hp, fun h => ?_⟩
  exact (hnodup.mp h).2 (by decide +kernel)

end FileSettings
end HotSwap
